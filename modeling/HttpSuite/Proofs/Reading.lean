import HttpSuite.Proofs.Grammar

/-!
# Reading by one token

What it means for a reader to read a part of the grammar, and how this is shown for readers that
are put together from smaller ones.

A reader sees the token under decision and nothing behind it.  So when it succeeds, the words it
has passed are derivable and the token it stops at is one that may follow them; and it succeeds
on every such text, because nothing else can have been seen.  When it refuses a token, the words
before are the beginning of a derivable text, and it refuses every text that looks the same up to
that token.  When pulling a token fails, the words up to the token it came from are such a
beginning.  `Reader.Reads` says all of this at once, and is closed under sequencing, choice by the
token under decision, and repetition.

## Main definitions

* `ReaderState.Steps`: one state reached from another by going on over some words.
* `Grammar.Opens`: the tokens with which a part and what may follow it can start.
* `Reader.Reads`: the specification of a reader.

## Main results

* `Reader.Reads.bind`, `Reader.Reads.bind_of_opens`: sequencing.
* `Reader.Reads.peek_bind`, `Reader.Reads.widen`, `Reader.reads_refuse`: choice.
* `Reader.Reads.many`, `Reader.Reads.optional`: repetition and option.
-/

namespace HttpSuite

open Grammar

/-! ## Going on -/

namespace ReaderState

/-- Going on from `s` over the tokens of kinds `w` leads to `after`.  The end of the text is never
gone over. -/
inductive Steps : ReaderState → List TokenKind → ReaderState → Prop
  | refl (s : ReaderState) : Steps s [] s
  | step {s middle after : ReaderState} {w : List TokenKind} :
    s.current.kind ≠ .endOfFile → Reader.advance s = .ok () middle → Steps middle w after →
    Steps s (s.current.kind :: w) after

@[simp] theorem steps_nil {s after : ReaderState} : Steps s [] after ↔ after = s := by
  constructor
  · intro h
    cases h
    rfl
  · intro h
    subst h
    exact .refl _

theorem steps_cons {s after : ReaderState} {kind : TokenKind} {w : List TokenKind} :
    Steps s (kind :: w) after ↔
      s.current.kind = kind ∧ kind ≠ .endOfFile ∧
        ∃ middle, Reader.advance s = .ok () middle ∧ Steps middle w after := by
  constructor
  · intro h
    cases h with
    | step hs hadvance hw => exact ⟨rfl, hs, _, hadvance, hw⟩
  · intro h
    obtain ⟨rfl, hs, middle, hadvance, hw⟩ := h
    exact .step hs hadvance hw

theorem steps_append {s after : ReaderState} {v w : List TokenKind} :
    Steps s (v ++ w) after ↔ ∃ middle, Steps s v middle ∧ Steps middle w after := by
  induction v generalizing s with
  | nil => simp
  | cons kind v ih =>
    simp only [List.cons_append, steps_cons, ih]
    constructor
    · intro h
      obtain ⟨hkind, hne, next, hadvance, middle, hv, hw⟩ := h
      exact ⟨middle, ⟨hkind, hne, next, hadvance, hv⟩, hw⟩
    · intro h
      obtain ⟨middle, ⟨hkind, hne, next, hadvance, hv⟩, hw⟩ := h
      exact ⟨hkind, hne, next, hadvance, middle, hv, hw⟩

/-- The token under decision is the first of the words ahead, or the token after them. -/
theorem Steps.head?_eq {s after : ReaderState} {w : List TokenKind} (h : Steps s w after) :
    (w ++ [after.current.kind]).head? = some s.current.kind := by
  cases h <;> rfl

/-- Two states with the same words ahead and the same token after them agree on the token under
decision. -/
theorem Steps.kind_eq {s after t last : ReaderState} {w : List TokenKind} (hs : Steps s w after)
    (ht : Steps t w last) (hkind : last.current.kind = after.current.kind) :
    t.current.kind = s.current.kind := by
  have hhead := ht.head?_eq
  rw [hkind, hs.head?_eq] at hhead
  exact (Option.some.inj hhead).symm

end ReaderState

/-! ## The specification of a reader -/

namespace Grammar

variable {α : Type}

/-- `kind` starts a text of words that the part allows and a token that may follow them. -/
def Opens (part : Phrase α) (follow : α → TokenKind → Prop) (kind : TokenKind) : Prop :=
  ∃ a w next, part a w ∧ follow a next ∧ (w ++ [next]).head? = some kind

/-- Words of one part and then words of a part that depends on the first tree. -/
def Chain {β : Type} (first : Phrase α) (second : α → Phrase β) : Phrase β :=
  fun b w => ∃ a u v, first a u ∧ second a b v ∧ w = u ++ v

theorem Begins.chain_left {β : Type} {first : Phrase α} {second : α → Phrase β}
    {w : List TokenKind} (h : Begins first w) (hsecond : ∀ a u, first a u → ∃ b v, second a b v) :
    Begins (Chain first second) w := by
  obtain ⟨a, rest, ha⟩ := h
  obtain ⟨b, v, hb⟩ := hsecond a _ ha
  exact ⟨b, rest ++ v, a, w ++ rest, v, ha, hb, (List.append_assoc _ _ _).symm⟩

theorem Begins.chain_right {β : Type} {first : Phrase α} {second : α → Phrase β} {a : α}
    {u v : List TokenKind} (ha : first a u) (h : Begins (second a) v) :
    Begins (Chain first second) (u ++ v) := by
  obtain ⟨b, rest, hb⟩ := h
  exact ⟨b, rest, a, u, v ++ rest, ha, hb, List.append_assoc _ _ _⟩

/-- What opens a chain opens its first part, or its second if the first can be nothing. -/
theorem opens_chain {β : Type} {first : Phrase α} {second : α → Phrase β}
    {follow : β → TokenKind → Prop} {kind : TokenKind}
    (h : Opens (Chain first second) follow kind) :
    (∃ a v, first a (kind :: v)) ∨ ∃ a, first a [] ∧ Opens (second a) follow kind := by
  obtain ⟨b, w, next, ⟨a, u, v, ha, hb, rfl⟩, hnext, hhead⟩ := h
  cases u with
  | nil => exact .inr ⟨a, ha, b, v, next, hb, hnext, hhead⟩
  | cons start rest =>
    obtain rfl := Option.some.inj hhead
    exact .inl ⟨a, rest, ha⟩

theorem opens_mark {β : Type} {kind mark : TokenKind} {second : Unit → Phrase β}
    {follow : β → TokenKind → Prop} (h : Opens (Chain (fun _ w => w = [mark]) second) follow kind) :
    kind = mark := by
  rcases opens_chain h with ⟨-, v, hv⟩ | ⟨-, hnil, -⟩
  · exact (List.cons.inj hv).1
  · cases hnil

/-- A first part of one token, whose tree the token carries. -/
theorem chain_token {β : Type} (kind : α → TokenKind) {second : α → Phrase β} {b : β}
    {w : List TokenKind} : Chain (fun a w => w = [kind a]) second b w ↔
      ∃ a v, w = kind a :: v ∧ second a b v := by
  constructor
  · intro h
    obtain ⟨a, _, v, rfl, hb, rfl⟩ := h
    exact ⟨a, v, rfl, hb⟩
  · intro h
    obtain ⟨a, v, rfl, hb⟩ := h
    exact ⟨a, [kind a], v, rfl, hb, rfl⟩

theorem chain_mark {β : Type} {kind : TokenKind} {second : Unit → Phrase β} {b : β}
    {w : List TokenKind} : Chain (fun _ w => w = [kind]) second b w ↔
      ∃ v, w = kind :: v ∧ second () b v := by
  rw [chain_token fun _ => kind]
  exact ⟨fun ⟨_, h⟩ => h, fun h => ⟨(), h⟩⟩

theorem chain_string {β : Type} {second : String → Phrase β} {b : β} {w : List TokenKind} :
    Chain (fun content w => w = [.string content]) second b w ↔
      ∃ content v, w = .string content :: v ∧ second content b v :=
  chain_token .string

theorem chain_name {β : Type} {second : String → Phrase β} {b : β} {w : List TokenKind} :
    Chain (fun name w => w = [.identifier name]) second b w ↔
      ∃ name v, w = .identifier name :: v ∧ second name b v :=
  chain_token .identifier

theorem Begins.many_head {part : Phrase α} {w : List TokenKind} (h : Begins part w) :
    Begins (Many part) w := by
  obtain ⟨a, rest, ha⟩ := h
  exact ⟨[a], rest, .single ha⟩

theorem Begins.many_tail {part : Phrase α} {a : α} {v w : List TokenKind} (ha : part a v)
    (h : Begins (Many part) w) : Begins (Many part) (v ++ w) := by
  obtain ⟨others, rest, hothers⟩ := h
  exact ⟨a :: others, rest, by rw [List.append_assoc]; exact .cons ha hothers⟩

/-- Any words of a repetition can go on with one more item. -/
theorem Begins.many_ne_nil {part : Phrase α} {w : List TokenKind} (hpart : ∃ a v, part a v)
    (h : Begins (Many part) w) : Begins (fun as w => Many part as w ∧ as ≠ []) w := by
  obtain ⟨as, rest, has⟩ := h
  obtain ⟨a, v, ha⟩ := hpart
  refine ⟨as ++ [a], rest ++ v, ?_, by simp⟩
  rw [← List.append_assoc]
  exact has.append (.single ha)

end Grammar

namespace Reader

open ReaderState

variable {α β : Type}

/-- The reader gives an error. -/
def Fails (r : Reader α) (s : ReaderState) : Prop := ∃ e after, r s = .error e after

/-- Started at a token that satisfies `starts`, the reader reads the part of the grammar, and stops
at a token that satisfies `follow`. -/
structure Reads (starts : TokenKind → Prop) (r : Reader α) (part : Phrase α)
    (follow : α → TokenKind → Prop) : Prop where
  /-- The part has some words. -/
  productive : ∃ a w, part a w
  /-- Success is a derivation, up to a token that may follow, and every such derivation is read. -/
  ok_iff ⦃s : ReaderState⦄ ⦃a : α⦄ ⦃after : ReaderState⦄ : starts s.current.kind →
    (r s = .ok a after ↔ ∃ w, Steps s w after ∧ part a w ∧ follow a after.current.kind)
  /-- A token is refused after words that could have gone on, and whatever stands behind it. -/
  refused ⦃s : ReaderState⦄ ⦃e : ParseError⦄ ⦃after : ReaderState⦄ : starts s.current.kind →
    r s = .error (.parse e) after →
    e.found = after.current ∧ ∃ w, Steps s w after ∧ Begins part w ∧
      ∀ t last, Steps t w last → last.current.kind = after.current.kind → Fails r t
  /-- A pull fails after words that could have gone on. -/
  broken ⦃s : ReaderState⦄ ⦃e : LexError⦄ ⦃after : ReaderState⦄ : starts s.current.kind →
    r s = .error (.lex e) after →
    ∃ w last, Steps s w last ∧ advance last = .error (.lex e) after ∧
      Begins part (w ++ [last.current.kind])

/-- No condition on a token. -/
abbrev anyToken : TokenKind → Prop := fun _ => True

/-- Any token may follow. -/
abbrev anyFollow : α → TokenKind → Prop := fun _ _ => True

theorem Fails.bind {r : Reader α} {s : ReaderState} (h : Fails r s) (f : α → Reader β) :
    Fails (r >>= f) s := by
  obtain ⟨e, after, hr⟩ := h
  exact ⟨e, after, by simp only [Bind.bind, EStateM.bind, hr]⟩

theorem bind_of_ok {r : Reader α} {s middle : ReaderState} {a : α} (h : r s = .ok a middle)
    (f : α → Reader β) : (r >>= f) s = f a middle := by
  simp only [Bind.bind, EStateM.bind, h]

theorem Fails.bind_of_ok {r : Reader α} {s middle : ReaderState} {a : α} {f : α → Reader β}
    (h : r s = .ok a middle) (hf : Fails (f a) middle) : Fails (r >>= f) s := by
  obtain ⟨e, after, hr⟩ := hf
  exact ⟨e, after, by rw [Reader.bind_of_ok h, hr]⟩

/-- An error of two readers in sequence is one of the first or one of the second. -/
theorem bind_eq_error {r : Reader α} {f : α → Reader β} {s after : ReaderState} {e : SourceError}
    (h : (r >>= f) s = .error e after) :
    r s = .error e after ∨ ∃ a middle, r s = .ok a middle ∧ f a middle = .error e after := by
  simp only [Bind.bind, EStateM.bind] at h
  split at h
  · next a middle hr => exact .inr ⟨a, middle, hr, h⟩
  · next e' after' hr =>
    cases h
    exact .inl hr

/-! ## Single tokens -/

/-- Reading nothing stops at the token it starts at. -/
theorem reads_pure (starts : TokenKind → Prop) (a : α) :
    Reads starts (pure a) (fun b w => b = a ∧ w = []) (fun _ => starts) where
  productive := ⟨a, [], rfl, rfl⟩
  ok_iff s b after hs := by
    constructor
    · intro h
      cases h
      exact ⟨[], .refl _, ⟨rfl, rfl⟩, hs⟩
    · intro h
      obtain ⟨w, hw, ⟨rfl, rfl⟩, -⟩ := h
      rw [steps_nil.1 hw]
      rfl
  refused s e after _ h := nomatch h
  broken s e after _ h := nomatch h

/-- Going on from a known token. -/
theorem reads_advance {kind : TokenKind} (hne : kind ≠ .endOfFile) :
    Reads (· = kind) advance (fun _ w => w = [kind]) anyFollow where
  productive := ⟨(), [kind], rfl⟩
  ok_iff s a after hs := by
    constructor
    · intro h
      exact ⟨[kind], steps_cons.2 ⟨hs, hne, after, h, .refl _⟩, rfl, trivial⟩
    · intro h
      obtain ⟨w, hw, rfl, -⟩ := h
      obtain ⟨-, -, middle, hadvance, hmiddle⟩ := steps_cons.1 hw
      rw [steps_nil.1 hmiddle]
      exact hadvance
  refused s e after _ h := by
    unfold advance at h
    split at h <;> cases h
  broken s e after hs h :=
    ⟨[], s, .refl _, h, (), [], by rw [List.append_nil, List.nil_append, hs]⟩

/-- Refusing is right where no words of the part can start. -/
theorem reads_refuse {starts : TokenKind → Prop} {part : Phrase α}
    {follow : α → TokenKind → Prop} (cause : ParseError.Cause) (hpart : ∃ a w, part a w)
    (hstarts : ∀ kind, starts kind → ¬ Opens part follow kind) :
    Reads starts (refuse cause) part follow where
  productive := hpart
  ok_iff s a after hs := by
    constructor
    · intro h
      cases h
    · intro h
      obtain ⟨w, hw, ha, hfollow⟩ := h
      exact absurd ⟨a, w, _, ha, hfollow, hw.head?_eq⟩ (hstarts _ hs)
  refused s e after hs h := by
    cases h
    exact ⟨rfl, [], .refl _, .nil hpart, fun t last _ _ => ⟨_, _, rfl⟩⟩
  broken s e after _ h := nomatch h

/-- No token opens a part whose words all start with another. -/
theorem not_opens {part : Phrase α} {follow : α → TokenKind → Prop} {kind : TokenKind}
    (h : ∀ a w, part a w → ∃ first rest, w = first :: rest ∧ first ≠ kind) :
    ¬ Opens part follow kind := by
  intro h
  obtain ⟨a, w, next, ha, -, hhead⟩ := h
  obtain ⟨first, rest, rfl, hne⟩ := h a w ha
  exact hne (by simpa using hhead)

/-! ## Choice -/

/-- A reader that decides by the token under decision reads what it reads for each token. -/
theorem Reads.peek_bind {starts : TokenKind → Prop} {part : Phrase α}
    {follow : α → TokenKind → Prop} {f : TokenKind → Reader α} (hpart : ∃ a w, part a w)
    (hf : ∀ kind, starts kind → Reads (· = kind) (f kind) part follow) :
    Reads starts (peek >>= f) part follow where
  productive := hpart
  ok_iff s a after hs := (hf _ hs).ok_iff rfl
  refused s e after hs h := by
    obtain ⟨hfound, w, hw, hbegins, hsame⟩ := (hf _ hs).refused rfl h
    refine ⟨hfound, w, hw, hbegins, fun t last ht hkind => ?_⟩
    have hfails := hsame t last ht hkind
    rw [← hw.kind_eq ht hkind] at hfails
    exact hfails
  broken s e after hs h := (hf _ hs).broken rfl h

/-- A reader of a smaller part reads a larger one if they agree on the texts that start with the
token under decision. -/
theorem Reads.widen {starts : TokenKind → Prop} {r : Reader α} {small part : Phrase α}
    {followSmall follow : α → TokenKind → Prop} (hr : Reads starts r small followSmall)
    (hle : ∀ a w, small a w → part a w)
    (hfollow : ∀ a w kind, small a w → followSmall a kind → follow a kind)
    (hge : ∀ a w kind start, part a w → follow a kind → (w ++ [kind]).head? = some start →
      starts start → small a w ∧ followSmall a kind) :
    Reads starts r part follow where
  productive := by
    obtain ⟨a, w, hw⟩ := hr.productive
    exact ⟨a, w, hle a w hw⟩
  ok_iff s a after hs := by
    rw [hr.ok_iff hs]
    constructor
    · intro h
      obtain ⟨w, hw, ha, hnext⟩ := h
      exact ⟨w, hw, hle a w ha, hfollow a w _ ha hnext⟩
    · intro h
      obtain ⟨w, hw, ha, hnext⟩ := h
      exact ⟨w, hw, hge a w _ _ ha hnext hw.head?_eq hs⟩
  refused s e after hs h := by
    obtain ⟨hfound, w, hw, ⟨a, rest, ha⟩, hsame⟩ := hr.refused hs h
    exact ⟨hfound, w, hw, ⟨a, rest, hle _ _ ha⟩, hsame⟩
  broken s e after hs h := by
    obtain ⟨w, last, hw, hadvance, a, rest, ha⟩ := hr.broken hs h
    exact ⟨w, last, hw, hadvance, a, rest, hle _ _ ha⟩

theorem Reads.congr {starts : TokenKind → Prop} {r : Reader α} {part other : Phrase α}
    {follow : α → TokenKind → Prop} (hr : Reads starts r part follow)
    (h : ∀ a w, part a w ↔ other a w) : Reads starts r other follow :=
  hr.widen (fun a w => (h a w).1) (fun _ _ _ _ hnext => hnext)
    (fun a w _ _ ha hnext _ _ => ⟨(h a w).2 ha, hnext⟩)

theorem Reads.mono {starts starts' : TokenKind → Prop} {r : Reader α} {part : Phrase α}
    {follow : α → TokenKind → Prop} (hr : Reads starts r part follow)
    (h : ∀ kind, starts' kind → starts kind) : Reads starts' r part follow where
  productive := hr.productive
  ok_iff _ _ _ hs := hr.ok_iff (h _ hs)
  refused _ _ _ hs := hr.refused (h _ hs)
  broken _ _ _ hs := hr.broken (h _ hs)

/-! ## Sequencing -/

/-- A reader that refuses whatever it is given. -/
def Refuses (r : Reader α) : Prop :=
  ∀ s, ∃ cause, r s = .error (.parse ⟨cause, s.current⟩) s

theorem refuses_refuse (cause : ParseError.Cause) : Refuses (refuse cause : Reader α) :=
  fun _ => ⟨cause, rfl⟩

theorem Refuses.peek_bind {f : TokenKind → Reader α} (h : ∀ kind, Refuses (f kind)) :
    Refuses (peek >>= f) := by
  intro s
  exact h s.current.kind s

theorem Refuses.bind {r : Reader α} (h : Refuses r) (f : α → Reader β) : Refuses (r >>= f) := by
  intro s
  obtain ⟨cause, hr⟩ := h s
  exact ⟨cause, by simp only [Bind.bind, EStateM.bind, hr]⟩

/-- Two readers in sequence, of which the second refuses at once after some trees of the first.
After the others, it must start with a token at which the first stops. -/
theorem Reads.bind_of_good {starts : TokenKind → Prop} {r : Reader α} {f : α → Reader β}
    {first : Phrase α} {second : α → Phrase β} {followFirst : α → TokenKind → Prop}
    {follow : β → TokenKind → Prop} (good : α → Prop) (hr : Reads starts r first followFirst)
    (hgood : ∀ w, Begins first w → Begins (fun a w => first a w ∧ good a) w)
    (hf : ∀ a, good a → Reads anyToken (f a) (second a) follow)
    (hbad : ∀ a, ¬ good a → Refuses (f a))
    (hopens : ∀ a kind, good a → Opens (second a) follow kind → followFirst a kind) :
    Reads starts (r >>= f) (Chain (fun a w => first a w ∧ good a) second) follow := by
  have hsecond : ∀ a u, first a u ∧ good a → ∃ b v, second a b v :=
    fun a u ha => (hf a ha.2).productive
  constructor
  case productive =>
    obtain ⟨a, w, hw⟩ := hr.productive
    obtain ⟨b, v, hb⟩ := (hgood [] ⟨a, w, hw⟩).chain_left hsecond
    exact ⟨b, _, hb⟩
  case ok_iff =>
    intro s b after hs
    constructor
    · intro h
      obtain ⟨a, middle, hrs, hfs⟩ := bind_eq_ok h
      obtain ⟨u, hu, ha, -⟩ := (hr.ok_iff hs).1 hrs
      by_cases hga : good a
      · obtain ⟨v, hv, hb, hnext⟩ := ((hf a hga).ok_iff trivial).1 hfs
        exact ⟨u ++ v, steps_append.2 ⟨middle, hu, hv⟩, ⟨a, u, v, ⟨ha, hga⟩, hb, rfl⟩, hnext⟩
      · obtain ⟨cause, hcause⟩ := hbad a hga middle
        rw [hcause] at hfs
        cases hfs
    · intro h
      obtain ⟨w, hw, ⟨a, u, v, ⟨ha, hga⟩, hb, rfl⟩, hnext⟩ := h
      obtain ⟨middle, hu, hv⟩ := steps_append.1 hw
      have hmiddle : followFirst a middle.current.kind :=
        hopens a _ hga ⟨b, v, _, hb, hnext, hv.head?_eq⟩
      rw [bind_of_ok ((hr.ok_iff hs).2 ⟨u, hu, ha, hmiddle⟩)]
      exact ((hf a hga).ok_iff trivial).2 ⟨v, hv, hb, hnext⟩
  case refused =>
    intro s e after hs h
    rcases bind_eq_error h with hrs | ⟨a, middle, hrs, hfs⟩
    · obtain ⟨hfound, u, hu, hbegins, hsame⟩ := hr.refused hs hrs
      exact ⟨hfound, u, hu, (hgood u hbegins).chain_left hsecond,
        fun t last ht hkind => (hsame t last ht hkind).bind f⟩
    · obtain ⟨u, hu, ha, hnext⟩ := (hr.ok_iff hs).1 hrs
      -- the first reader stops at the same place in every text that looks the same so far
      have hfirst : ∀ t m, Steps t u m → m.current.kind = middle.current.kind →
          r t = .ok a m := by
        intro t m ht hm
        have hstart : starts t.current.kind := by rwa [hu.kind_eq ht hm]
        exact (hr.ok_iff hstart).2 ⟨u, ht, ha, by rwa [hm]⟩
      by_cases hga : good a
      · obtain ⟨hfound, v, hv, hbegins, hsame⟩ := (hf a hga).refused trivial hfs
        refine ⟨hfound, u ++ v, steps_append.2 ⟨middle, hu, hv⟩,
          Begins.chain_right ⟨ha, hga⟩ hbegins, fun t last ht hkind => ?_⟩
        obtain ⟨m, htu, htv⟩ := steps_append.1 ht
        exact .bind_of_ok (hfirst t m htu (hv.kind_eq htv hkind)) (hsame m last htv hkind)
      · obtain ⟨cause, hcause⟩ := hbad a hga middle
        rw [hcause] at hfs
        cases hfs
        refine ⟨rfl, u, hu, (hgood u ⟨a, [], by rwa [List.append_nil]⟩).chain_left hsecond,
          fun t last ht hkind => ?_⟩
        obtain ⟨cause', hcause'⟩ := hbad a hga last
        exact .bind_of_ok (hfirst t last ht hkind) ⟨_, _, hcause'⟩
  case broken =>
    intro s e after hs h
    rcases bind_eq_error h with hrs | ⟨a, middle, hrs, hfs⟩
    · obtain ⟨w, last, hw, hadvance, hbegins⟩ := hr.broken hs hrs
      exact ⟨w, last, hw, hadvance, (hgood _ hbegins).chain_left hsecond⟩
    · obtain ⟨u, hu, ha, -⟩ := (hr.ok_iff hs).1 hrs
      by_cases hga : good a
      · obtain ⟨v, last, hv, hadvance, hbegins⟩ := (hf a hga).broken trivial hfs
        refine ⟨u ++ v, last, steps_append.2 ⟨middle, hu, hv⟩, hadvance, ?_⟩
        rw [List.append_assoc]
        exact Begins.chain_right ⟨ha, hga⟩ hbegins
      · obtain ⟨cause, hcause⟩ := hbad a hga middle
        rw [hcause] at hfs
        cases hfs

/-- Two readers in sequence, of which the second starts with a token at which the first stops. -/
theorem Reads.bind_of_opens {starts : TokenKind → Prop} {r : Reader α} {f : α → Reader β}
    {first : Phrase α} {second : α → Phrase β} {followFirst : α → TokenKind → Prop}
    {follow : β → TokenKind → Prop} (hr : Reads starts r first followFirst)
    (hf : ∀ a, Reads anyToken (f a) (second a) follow)
    (hopens : ∀ a kind, Opens (second a) follow kind → followFirst a kind) :
    Reads starts (r >>= f) (Chain first second) follow := by
  have h := hr.bind_of_good (fun _ => True) (fun w hw => by simpa using hw) (fun a _ => hf a)
    (fun a ha => absurd trivial ha) (fun a kind _ => hopens a kind)
  simpa only [and_true] using h

/-- Changing the tree that was read. -/
theorem Reads.map {starts : TokenKind → Prop} {r : Reader α} {part : Phrase α}
    {follow : α → TokenKind → Prop} (g : α → β) (follow' : β → TokenKind → Prop)
    (hr : Reads starts r part follow) (hfollow : ∀ a kind, follow a kind ↔ follow' (g a) kind) :
    Reads starts (r >>= fun a => pure (g a)) (fun b w => ∃ a, b = g a ∧ part a w) follow' := by
  constructor
  case productive =>
    obtain ⟨a, w, ha⟩ := hr.productive
    exact ⟨g a, w, a, rfl, ha⟩
  case ok_iff =>
    intro s b after hs
    constructor
    · intro h
      obtain ⟨a, middle, hrs, hpure⟩ := bind_eq_ok h
      cases hpure
      obtain ⟨w, hw, ha, hnext⟩ := (hr.ok_iff hs).1 hrs
      exact ⟨w, hw, ⟨a, rfl, ha⟩, (hfollow a _).1 hnext⟩
    · intro h
      obtain ⟨w, hw, ⟨a, rfl, ha⟩, hnext⟩ := h
      rw [bind_of_ok ((hr.ok_iff hs).2 ⟨w, hw, ha, (hfollow a _).2 hnext⟩)]
      rfl
  case refused =>
    intro s e after hs h
    rcases bind_eq_error h with hrs | ⟨a, middle, -, hpure⟩
    · obtain ⟨hfound, w, hw, ⟨a, rest, ha⟩, hsame⟩ := hr.refused hs hrs
      exact ⟨hfound, w, hw, ⟨g a, rest, a, rfl, ha⟩,
        fun t last ht hkind => (hsame t last ht hkind).bind _⟩
    · cases hpure
  case broken =>
    intro s e after hs h
    rcases bind_eq_error h with hrs | ⟨a, middle, -, hpure⟩
    · obtain ⟨w, last, hw, hadvance, a, rest, ha⟩ := hr.broken hs hrs
      exact ⟨w, last, hw, hadvance, g a, rest, a, rfl, ha⟩
    · cases hpure

/-- One alternative of a part: the words that start with a known token. -/
theorem Reads.alternative {kind : TokenKind} {r : Reader α} {one : Phrase α} {part : Phrase β}
    (g : α → β) (hr : Reads (· = kind) r one anyFollow) (hle : ∀ a w, one a w → part (g a) w)
    (hge : ∀ b v, part b (kind :: v) → ∃ a, b = g a ∧ one a (kind :: v))
    (hnil : ∀ b, ¬ part b []) :
    Reads (· = kind) (r >>= fun a => pure (g a)) part anyFollow := by
  refine (hr.map g anyFollow fun _ _ => Iff.rfl).widen ?_ (fun _ _ _ _ _ => trivial) ?_
  · intro b w h
    obtain ⟨a, rfl, ha⟩ := h
    exact hle a w ha
  · intro b w next start hb _ hhead hstart
    cases w with
    | nil => exact absurd hb (hnil b)
    | cons first v =>
      have hfirst : first = kind := (Option.some.inj hhead).trans hstart
      subst hfirst
      exact ⟨hge b v hb, trivial⟩

/-- Two readers in sequence, of which the first looks at no token that it does not go over. -/
theorem Reads.bind {starts : TokenKind → Prop} {r : Reader α} {f : α → Reader β}
    {first : Phrase α} {second : α → Phrase β} {follow : β → TokenKind → Prop}
    (hr : Reads starts r first anyFollow) (hf : ∀ a, Reads anyToken (f a) (second a) follow) :
    Reads starts (r >>= f) (Chain first second) follow :=
  hr.bind_of_opens hf fun _ _ _ => trivial

/-- Going on from a known token and reading the rest of the part reads those words of the part
that start with the token. -/
theorem Reads.advance_bind {kind : TokenKind} {r : Reader α} {part rest : Phrase α}
    {follow : α → TokenKind → Prop} (hne : kind ≠ .endOfFile)
    (hr : Reads anyToken r rest follow) (hrest : ∀ a v, rest a v ↔ part a (kind :: v))
    (hnil : ∀ a, ¬ part a []) : Reads (· = kind) (advance >>= fun _ => r) part follow := by
  refine ((reads_advance hne).bind fun _ => hr).widen ?_ ?_ ?_
  · intro a w h
    obtain ⟨-, u, v, rfl, ha, rfl⟩ := h
    exact (hrest a v).1 ha
  · intro a w next _ hnext
    exact hnext
  · intro a w next start ha hnext hhead hstart
    cases w with
    | nil => exact absurd ha (hnil a)
    | cons first v =>
      have hfirst : first = kind := (Option.some.inj hhead).trans hstart
      subst hfirst
      exact ⟨⟨(), [first], v, rfl, (hrest a v).2 ha, rfl⟩, hnext⟩

/-! ## Marks, strings and names -/

/-- Going on if the token under decision is the expected one, and refusing it otherwise. -/
theorem reads_kind {kind : TokenKind} (hne : kind ≠ .endOfFile) (cause : ParseError.Cause) :
    Reads anyToken (peek >>= fun found => if found = kind then advance else refuse cause)
      (fun _ w => w = [kind]) anyFollow := by
  refine .peek_bind ⟨(), _, rfl⟩ fun k _ => ?_
  split
  · next h =>
    subst h
    exact reads_advance hne
  · next h =>
    refine reads_refuse _ ⟨(), _, rfl⟩ ?_
    intro _ h
    subst h
    exact not_opens fun a w hw => ⟨kind, [], hw, Ne.symm h⟩

theorem reads_mark {kind : TokenKind} (hne : kind ≠ .endOfFile) (place : ParseError.Place) :
    Reads anyToken (mark kind place) (fun _ w => w = [kind]) anyFollow :=
  reads_kind hne _

theorem reads_string (role : ParseError.Role) :
    Reads anyToken (string role) (fun content w => w = [.string content]) anyFollow := by
  refine .peek_bind ⟨"", _, rfl⟩ fun k _ => ?_
  split
  · refine .advance_bind (by simp) (reads_pure anyToken _) (fun a v => ?_) (fun _ h => by cases h)
    rw [List.cons.injEq, TokenKind.string.injEq, eq_comm]
  · next h =>
    refine reads_refuse _ ⟨"", _, rfl⟩ ?_
    intro _ h
    subst h
    exact not_opens fun a w hw => ⟨_, _, hw, fun hk => h a hk.symm⟩

theorem reads_name (role : ParseError.Role) :
    Reads anyToken (name role) (fun name w => w = [.identifier name]) anyFollow := by
  refine .peek_bind ⟨"", _, rfl⟩ fun k _ => ?_
  split
  · refine .advance_bind (by simp) (reads_pure anyToken _) (fun a v => ?_) (fun _ h => by cases h)
    rw [List.cons.injEq, TokenKind.identifier.injEq, eq_comm]
  · next h =>
    refine reads_refuse _ ⟨"", _, rfl⟩ ?_
    intro _ h
    subst h
    exact not_opens fun a w hw => ⟨_, _, hw, fun hk => h a hk.symm⟩

/-! ## Options -/

/-- Reading a part that starts with a known token, if that token is there. -/
theorem Reads.optional {kind : TokenKind} {r : Reader α} {part : Phrase α}
    (hr : Reads (· = kind) r part anyFollow) (hleads : ∀ a w, part a w → ∃ v, w = kind :: v) :
    Reads anyToken
      (peek >>= fun found => if found = kind then r >>= fun a => pure (some a) else pure none)
      (Optional part) (fun o next => o = none → next ≠ kind) := by
  refine .peek_bind ⟨none, [], .none⟩ fun found _ => ?_
  split
  · next h =>
    subst h
    refine (hr.map some anyFollow fun _ _ => Iff.rfl).widen ?_ ?_ ?_
    · intro _ w h
      obtain ⟨a, rfl, ha⟩ := h
      exact .some ha
    · intro _ w next h _
      obtain ⟨a, rfl, -⟩ := h
      simp
    · intro o w next start ho hnext hhead hstart
      cases ho with
      | none => exact absurd ((Option.some.inj hhead).trans hstart) (hnext rfl)
      | some ha => exact ⟨⟨_, rfl, ha⟩, trivial⟩
  · next h =>
    refine (reads_pure (· = found) none).widen ?_ ?_ ?_
    · intro o w h
      obtain ⟨rfl, rfl⟩ := h
      exact .none
    · intro o w next _ h _
      subst h
      exact h
    · intro o w next start ho hnext hhead hstart
      cases ho with
      | none => exact ⟨⟨rfl, rfl⟩, (Option.some.inj hhead).trans hstart⟩
      | some ha =>
        obtain ⟨v, rfl⟩ := hleads _ _ ha
        exact absurd ((Option.some.inj hhead).trans hstart).symm h

/-! ## Repetition -/

variable {item : Item α}

theorem many_of_not_starts {s : ReaderState} (hs : item.starts s.current.kind = false) :
    many item s = .ok [] s := by
  rw [many, dif_neg (by rw [hs]; exact Bool.false_ne_true)]

/-- Where an item starts, repetition is one item and then repetition. -/
theorem many_of_starts {s : ReaderState} (hs : item.starts s.current.kind = true) :
    many item s =
      (item.read >>= fun first => many item >>= fun others => pure (first :: others)) s := by
  rw [many, dif_pos hs]
  cases hread : item.read s with
  | error e after => simp only [Bind.bind, EStateM.bind, hread]
  | ok first middle =>
    rw [bind_of_ok hread]
    cases hmany : many item middle with
    | error e after => simp only [Bind.bind, EStateM.bind, hmany]
    | ok others last =>
      simp only [bind_of_ok hmany, hmany]
      rfl

/-- The words of an item start with a token that starts the item. -/
def Leads (item : Item α) (part : Phrase α) : Prop :=
  ∀ a w, part a w → ∃ kind rest, w = kind :: rest ∧ item.starts kind = true

theorem Leads.many {part : Phrase α} (hleads : Leads item part) {as : List α} {kind : TokenKind}
    {v : List TokenKind} (h : Many part as (kind :: v)) : item.starts kind = true := by
  generalize hw : kind :: v = w at h
  cases h with
  | nil => cases hw
  | cons ha _ =>
    obtain ⟨first, rest, rfl, hfirst⟩ := hleads _ _ ha
    rwa [(List.cons.inj hw).1]

/-- A derivation of several items is read, up to a token that starts none. -/
theorem many_eq_ok {part : Phrase α} (hitem : Reads (item.starts · = true) item.read part anyFollow)
    (hleads : Leads item part) {as : List α} {w : List TokenKind} (h : Many part as w) :
    ∀ {s after : ReaderState}, Steps s w after → item.starts after.current.kind = false →
      many item s = .ok as after := by
  induction h with
  | nil =>
    intro s after hw hstop
    obtain rfl := steps_nil.1 hw
    exact many_of_not_starts hstop
  | cons ha _ ih =>
    intro s after hw hstop
    obtain ⟨middle, hv, hw'⟩ := steps_append.1 hw
    obtain ⟨kind, rest, rfl, hkind⟩ := hleads _ _ ha
    have hs : item.starts s.current.kind = true := by rwa [(steps_cons.1 hv).1]
    rw [many_of_starts hs, bind_of_ok ((hitem.ok_iff hs).2 ⟨_, hv, ha, trivial⟩),
      bind_of_ok (ih hw' hstop)]
    rfl

/-- What several items are read from is a derivation of them, up to a token that starts none. -/
theorem many_ok {part : Phrase α} (hitem : Reads (item.starts · = true) item.read part anyFollow)
    {s after : ReaderState} {as : List α} (h : many item s = .ok as after) :
    ∃ w, Steps s w after ∧ Many part as w ∧ item.starts after.current.kind = false := by
  fun_induction many item s generalizing as with
  | case1 | case2 => cases h
  | case3 s hs first middle hread others last hmany ih =>
    cases h
    obtain ⟨v, hv, ha, -⟩ := (hitem.ok_iff hs).1 hread
    obtain ⟨w, hw, hmore, hstop⟩ := ih hmany
    exact ⟨v ++ w, steps_append.2 ⟨middle, hv, hw⟩, .cons ha hmore, hstop⟩
  | case4 s hs =>
    cases h
    exact ⟨[], .refl _, .nil, Bool.eq_false_iff.2 hs⟩

/-- Reading an item for as long as one starts reads their repetition. -/
theorem Reads.many {part : Phrase α} (hitem : Reads (item.starts · = true) item.read part anyFollow)
    (hleads : Leads item part) :
    Reads anyToken (many item) (Many part) (fun _ kind => item.starts kind = false) where
  productive := ⟨[], [], .nil⟩
  ok_iff s as after _ := by
    constructor
    · exact many_ok hitem
    · intro h
      obtain ⟨w, hw, has, hstop⟩ := h
      exact many_eq_ok hitem hleads has hw hstop
  refused s e after _ h := by
    fun_induction Reader.many item s with
    | case1 s hs e' after' hread =>
      cases h
      obtain ⟨hfound, w, hw, hbegins, hsame⟩ := hitem.refused hs hread
      refine ⟨hfound, w, hw, .many_head hbegins, fun t last ht hkind => ?_⟩
      have hstart : item.starts t.current.kind = true := by rwa [hw.kind_eq ht hkind]
      rw [Fails, many_of_starts hstart]
      exact (hsame t last ht hkind).bind _
    | case2 s hs first middle hread e' last' hmany ih =>
      cases h
      obtain ⟨v, hv, ha, -⟩ := (hitem.ok_iff hs).1 hread
      obtain ⟨hfound, w, hw, hbegins, hsame⟩ := ih trivial hmany
      refine ⟨hfound, v ++ w, steps_append.2 ⟨middle, hv, hw⟩, .many_tail ha hbegins,
        fun t last ht hkind => ?_⟩
      obtain ⟨m, htv, htw⟩ := steps_append.1 ht
      have hm : m.current.kind = middle.current.kind := hw.kind_eq htw hkind
      have hstart : item.starts t.current.kind = true := by rwa [hv.kind_eq htv hm]
      have hfirst : item.read t = .ok first m := (hitem.ok_iff hstart).2 ⟨v, htv, ha, trivial⟩
      rw [Fails, many_of_starts hstart, bind_of_ok hfirst]
      exact (hsame m last htw hkind).bind _
    | case3 | case4 => cases h
  broken s e after _ h := by
    fun_induction Reader.many item s with
    | case1 s hs e' after' hread =>
      cases h
      obtain ⟨w, last, hw, hadvance, hbegins⟩ := hitem.broken hs hread
      exact ⟨w, last, hw, hadvance, .many_head hbegins⟩
    | case2 s hs first middle hread e' last' hmany ih =>
      cases h
      obtain ⟨v, hv, ha, -⟩ := (hitem.ok_iff hs).1 hread
      obtain ⟨w, last, hw, hadvance, hbegins⟩ := ih trivial hmany
      refine ⟨v ++ w, last, steps_append.2 ⟨middle, hv, hw⟩, hadvance, ?_⟩
      rw [List.append_assoc]
      exact .many_tail ha hbegins
    | case3 | case4 => cases h

end Reader

end HttpSuite
