import Mathlib.Data.List.Infix
import HttpSuite.Placeholder

/-!
# Filling placeholders

How filling the placeholders of one name goes through a text, and when filling those of two names
can be done in either order.

Filling a name writes its value into the text, and with the value a placeholder of the other name
may come into being: the value may hold it, or it may be made of an end of the value and the text
behind, or of the text before and a start of the value.  If the other name is filled afterwards, the
new placeholder is filled too; if it was filled before, the new placeholder stays.  So the order
does not matter exactly if no placeholder of either name can come into being by filling the other,
or filling the other changes nothing.

## Main definitions

* `Placeholder.Avoids`: writing a value makes no placeholder of a name.
* `Placeholder.Independent`: two names with their values can be filled in either order.

## Main results

* `Placeholder.fill_comm_iff`: two names can be filled in either order if and only if they are
  independent.
-/

namespace HttpSuite.Placeholder

variable {name value : List Char}

/-! ## One name -/

theorem starts_eq_true_iff {text : List Char} : starts name text = true ↔ '$' :: name <+: text := by
  cases text with
  | nil => simp [starts]
  | cons c text =>
    rw [starts, Bool.and_eq_true, beq_iff_eq, List.isPrefixOf_iff_prefix, List.cons_prefix_cons,
      eq_comm]

theorem fillFrom_eq (skipped : Nat) (text : List Char) :
    fillFrom name value skipped text = fill name value (text.drop skipped) := by
  induction text generalizing skipped with
  | nil => simp [fill, fillFrom]
  | cons c text ih =>
    cases skipped with
    | zero => rfl
    | succ skipped => exact ih skipped

@[simp] theorem fill_nil : fill name value [] = [] := rfl

/-- A placeholder is replaced by the value. -/
theorem fill_placeholder (text : List Char) :
    fill name value ('$' :: (name ++ text)) = value ++ fill name value text := by
  have hstarts : starts name ('$' :: (name ++ text)) = true :=
    starts_eq_true_iff.2 (List.prefix_append ('$' :: name) text)
  rw [fill, fillFrom, if_pos hstarts, fillFrom_eq, List.drop_left]

/-- A character that starts no placeholder stays. -/
theorem fill_cons {c : Char} {text : List Char} (h : ¬ '$' :: name <+: c :: text) :
    fill name value (c :: text) = c :: fill name value text := by
  rw [fill, fillFrom, if_neg (mt starts_eq_true_iff.1 h)]
  rfl

/-- Induction along the way that filling goes through a text. -/
@[elab_as_elim]
theorem fill_induction (name : List Char) {motive : List Char → Prop} (nil : motive [])
    (placeholder : ∀ rest, motive rest → motive ('$' :: (name ++ rest)))
    (cons : ∀ c rest, ¬ '$' :: name <+: c :: rest → motive rest → motive (c :: rest))
    (text : List Char) : motive text := by
  induction hlength : text.length using Nat.strong_induction_on generalizing text with
  | _ n ih =>
    cases text with
    | nil => exact nil
    | cons c rest =>
      by_cases h : '$' :: name <+: c :: rest
      · obtain ⟨rest', hrest⟩ := h
        have hlt : rest'.length < n := by
          rw [← hlength, ← hrest, List.length_append, List.length_cons]
          omega
        rw [← hrest]
        exact placeholder rest' (ih _ hlt rest' rfl)
      · have hlt : rest.length < n := by
          rw [← hlength, List.length_cons]
          omega
        exact cons c rest h (ih _ hlt rest rfl)

/-- Text in which no placeholder starts, whatever follows, stays. -/
theorem fill_append {first rest : List Char}
    (h : ∀ part, part ≠ [] → part <:+ first → ¬ '$' :: name <+: part ++ rest) :
    fill name value (first ++ rest) = first ++ fill name value rest := by
  induction first with
  | nil => rfl
  | cons c first ih =>
    have hhead : ¬ '$' :: name <+: c :: (first ++ rest) :=
      h (c :: first) (List.cons_ne_nil _ _) List.suffix_rfl
    have htail := ih fun part hpart hsuffix =>
      h part hpart (hsuffix.trans (List.suffix_cons c first))
    rw [List.cons_append, fill_cons hhead, htail, List.cons_append]

/-- A placeholder starts with a dollar sign. -/
theorem not_prefix_of_not_mem {part rest : List Char} (hpart : part ≠ []) (h : '$' ∉ part) :
    ¬ '$' :: name <+: part ++ rest := by
  obtain ⟨c, part', rfl⟩ := List.exists_cons_of_ne_nil hpart
  rw [List.cons_append, List.cons_prefix_cons]
  exact fun hpre => h (hpre.1 ▸ List.mem_cons_self)

/-- Text without dollar signs stays. -/
theorem fill_plain_append {first : List Char} (h : '$' ∉ first) (rest : List Char) :
    fill name value (first ++ rest) = first ++ fill name value rest :=
  fill_append fun _ hpart hsuffix =>
    not_prefix_of_not_mem hpart fun hmem => h (hsuffix.subset hmem)

theorem fill_plain {text : List Char} (h : '$' ∉ text) : fill name value text = text := by
  have hfill : fill name value (text ++ []) = text ++ fill name value [] := fill_plain_append h []
  rwa [List.append_nil, fill_nil, List.append_nil] at hfill

/-- A name whose value is its own placeholder changes nothing. -/
theorem fill_self (text : List Char) : fill name ('$' :: name) text = text := by
  induction text using fill_induction name with
  | nil => rfl
  | placeholder rest ih => rw [fill_placeholder, ih, List.cons_append]
  | cons c rest hc ih => rw [fill_cons hc, ih]

theorem length_fill_le (h : value.length ≤ name.length + 1) (text : List Char) :
    (fill name value text).length ≤ text.length := by
  induction text using fill_induction name with
  | nil => exact Nat.le_refl 0
  | placeholder rest ih =>
    rw [fill_placeholder, List.length_append, List.length_cons, List.length_append]
    omega
  | cons c rest hc ih =>
    rw [fill_cons hc, List.length_cons, List.length_cons]
    omega

theorem le_length_fill (h : name.length + 1 ≤ value.length) (text : List Char) :
    text.length ≤ (fill name value text).length := by
  induction text using fill_induction name with
  | nil => exact Nat.le_refl 0
  | placeholder rest ih =>
    rw [fill_placeholder, List.length_append, List.length_cons, List.length_append]
    omega
  | cons c rest hc ih =>
    rw [fill_cons hc, List.length_cons, List.length_cons]
    omega

/-- Only a value that is its own placeholder leaves a text unchanged that holds the placeholder. -/
theorem value_of_fill_eq {text : List Char} (hocc : '$' :: name <:+: text)
    (h : fill name value text = text) : value = '$' :: name := by
  induction text using fill_induction name with
  | nil => exact absurd hocc.length_le (Nat.not_succ_le_zero _)
  | placeholder rest _ =>
    -- A longer value would make the whole text longer, a shorter one would make it shorter.
    rw [fill_placeholder] at h
    have hlength := congrArg List.length h
    rw [List.length_append, List.length_cons, List.length_append] at hlength
    have hvalue : value.length = ('$' :: name).length := by
      rw [List.length_cons]
      rcases Nat.le_total value.length (name.length + 1) with hle | hle
      · have hrest := length_fill_le hle rest
        omega
      · have hrest := le_length_fill hle rest
        omega
    rw [← List.cons_append] at h
    exact (List.append_inj h hvalue).1
  | cons c rest hc ih =>
    rw [fill_cons hc] at h
    have hrest := (List.infix_cons_iff.1 hocc).resolve_left hc
    exact ih hrest (List.cons.inj h).2

/-! ## Two names -/

/-- One of the texts goes on as the other begins. -/
def Meets (first second : List Char) : Prop := first <+: second ∨ second <+: first

instance (first second : List Char) : Decidable (Meets first second) :=
  inferInstanceAs (Decidable (_ ∨ _))

/-- The value makes no placeholder of the name wherever it is written: it does not begin like an
end of the name, and no end of it begins like the placeholder. -/
def Avoids (value name : List Char) : Prop :=
  (∀ part ∈ name.tails, part ≠ [] → ¬ Meets part value) ∧
    ∀ part ∈ value.tails, part ≠ [] → ¬ Meets part ('$' :: name)

instance (value name : List Char) : Decidable (Avoids value name) :=
  inferInstanceAs (Decidable (_ ∧ _))

theorem Meets.of_append {first second rest : List Char} (h : first <+: second ++ rest) :
    Meets first second :=
  List.prefix_or_prefix_of_prefix h (List.prefix_append second rest)

/-- Filling with a value that avoids a name makes no start of the name. -/
theorem prefix_of_prefix_fill {other part text : List Char} (h : Avoids value other)
    (hsuffix : part <:+ other) (hpre : part <+: fill name value text) : part <+: text := by
  induction text using fill_induction name generalizing part with
  | nil => exact hpre
  | placeholder rest _ =>
    by_cases hpart : part = []
    · rw [hpart]
      exact List.nil_prefix
    · rw [fill_placeholder] at hpre
      exact absurd (Meets.of_append hpre) (h.1 part ((List.mem_tails _ _).2 hsuffix) hpart)
  | cons c rest hc ih =>
    rw [fill_cons hc] at hpre
    cases part with
    | nil => exact List.nil_prefix
    | cons d part =>
      rw [List.cons_prefix_cons] at hpre ⊢
      exact ⟨hpre.1, ih ((List.suffix_cons d part).trans hsuffix) hpre.2⟩

/-- A value that avoids a name stays when the name is filled. -/
theorem fill_value_append {other filler : List Char} (h : Avoids value other) (rest : List Char) :
    fill other filler (value ++ rest) = value ++ fill other filler rest :=
  fill_append fun part hpart hsuffix hpre =>
    h.2 part ((List.mem_tails _ _).2 hsuffix) hpart (Meets.of_append hpre).symm

section Pair

variable {a b x y : List Char}

/-- The placeholders of two names are no parts of each other. -/
structure Apart (a b : List Char) : Prop where
  plain : '$' ∉ a
  plain' : '$' ∉ b
  not_meets : ¬ Meets a b

theorem Apart.symm (h : Apart a b) : Apart b a :=
  ⟨h.plain', h.plain, fun hmeets => h.not_meets hmeets.symm⟩

/-- The placeholder of the one name stays when the other is filled. -/
theorem Apart.fill_placeholder (h : Apart a b) (rest : List Char) :
    fill b y ('$' :: (a ++ rest)) = '$' :: (a ++ fill b y rest) := by
  have hpre : ¬ '$' :: b <+: '$' :: (a ++ rest) := by
    rw [List.cons_prefix_cons]
    exact fun hpre => h.symm.not_meets (Meets.of_append hpre.2)
  rw [fill_cons hpre, fill_plain_append h.plain]

/-- A text that starts with no placeholder of the one name does not come to by filling the
other. -/
theorem Avoids.fill_cons {c : Char} {rest : List Char} (h : Avoids x b)
    (ha : ¬ '$' :: a <+: c :: rest) (hb : ¬ '$' :: b <+: c :: rest) :
    fill b y (fill a x (c :: rest)) = c :: fill b y (fill a x rest) := by
  rw [Placeholder.fill_cons ha, Placeholder.fill_cons]
  rw [List.cons_prefix_cons] at hb ⊢
  exact fun hpre => hb ⟨hpre.1, prefix_of_prefix_fill h List.suffix_rfl hpre.2⟩

/-- Two names can be filled in either order if neither value makes a placeholder of the other
name. -/
theorem fill_comm (h : Apart a b) (hx : Avoids x b) (hy : Avoids y a) (text : List Char) :
    fill b y (fill a x text) = fill a x (fill b y text) := by
  induction text using fill_induction a with
  | nil => rfl
  | placeholder rest ih =>
    rw [Placeholder.fill_placeholder, h.fill_placeholder, Placeholder.fill_placeholder,
      fill_value_append hx, ih]
  | cons c rest ha ih =>
    by_cases hb : '$' :: b <+: c :: rest
    · obtain ⟨rest', hrest⟩ := hb
      rw [List.cons_append, List.cons.injEq] at hrest
      obtain ⟨rfl, rfl⟩ := hrest
      -- The name itself stays, so the rest behind it commutes if the rest with it does.
      have htail : fill b y (fill a x rest') = fill a x (fill b y rest') := by
        rw [fill_plain_append h.plain', fill_plain_append h.plain', fill_plain_append h.plain',
          fill_plain_append h.plain'] at ih
        exact List.append_cancel_left ih
      rw [h.symm.fill_placeholder, Placeholder.fill_placeholder, Placeholder.fill_placeholder,
        fill_value_append hy, htail]
    · rw [hx.fill_cons ha hb, hy.fill_cons hb ha, ih]

/-! ## When the order matters -/

/-- A name of which no part meets the other cannot start inside a started placeholder of it. -/
theorem Apart.not_prefix_start (h : Apart a b) {start rest tail : List Char}
    (hb : b = start ++ rest) : ¬ a <+: start ++ '$' :: tail := by
  intro hpre
  rcases Meets.of_append hpre with hstart | ⟨more, rfl⟩
  · exact h.not_meets (.inl (hb ▸ hstart.trans (List.prefix_append start rest)))
  · rw [List.prefix_append_right_inj] at hpre
    cases more with
    | nil => exact h.not_meets (.inl ⟨rest, by rw [hb, List.append_nil]⟩)
    | cons c more =>
      rw [List.cons_prefix_cons] at hpre
      exact h.plain (List.mem_append_right _ (hpre.1 ▸ List.mem_cons_self))

/-- A text that holds a placeholder of the one name only, and what it becomes. Before the
placeholder there may stand a started one of the other name. -/
theorem Apart.fill_around (h : Apart a b) {lead last : List Char}
    (hlead : lead = [] ∨ ∃ start rest, lead = '$' :: start ∧ b = start ++ rest ∧ rest ≠ [])
    (hlast : '$' ∉ last) :
    fill b y (lead ++ '$' :: (a ++ last)) = lead ++ '$' :: (a ++ last) ∧
      fill a x (lead ++ '$' :: (a ++ last)) = lead ++ (x ++ last) := by
  have hb : fill b y ('$' :: (a ++ last)) = '$' :: (a ++ last) := by
    rw [h.fill_placeholder, fill_plain hlast]
  have ha : fill a x ('$' :: (a ++ last)) = x ++ last := by
    rw [Placeholder.fill_placeholder, fill_plain hlast]
  rcases hlead with rfl | ⟨start, rest, rfl, hsplit, hrest⟩
  · exact ⟨hb, ha⟩
  · have hstart : '$' ∉ start := fun hmem => h.plain' (hsplit ▸ List.mem_append_left _ hmem)
    have hnotb : ¬ '$' :: b <+: '$' :: (start ++ '$' :: (a ++ last)) := by
      rw [List.cons_prefix_cons, hsplit, List.prefix_append_right_inj]
      obtain ⟨c, rest', rfl⟩ := List.exists_cons_of_ne_nil hrest
      rw [List.cons_prefix_cons]
      rintro ⟨-, rfl, -⟩
      exact h.plain' (hsplit ▸ List.mem_append_right _ List.mem_cons_self)
    have hnota : ¬ '$' :: a <+: '$' :: (start ++ '$' :: (a ++ last)) := by
      rw [List.cons_prefix_cons]
      exact fun hpre => h.not_prefix_start hsplit hpre.2
    rw [List.cons_append, Placeholder.fill_cons hnotb, Placeholder.fill_cons hnota,
      fill_plain_append hstart, fill_plain_append hstart, hb, ha]
    exact ⟨rfl, rfl⟩

/-- A value that does not avoid a name makes a placeholder of it out of some text that has none. -/
theorem Apart.exists_text_of_not_avoids (h : Apart a b) (hx : ¬ Avoids x b) :
    ∃ text, fill b y text = text ∧ '$' :: b <:+: fill a x text := by
  rw [Avoids, not_and_or] at hx
  push Not at hx
  rcases hx with ⟨part, htails, hpart, hmeets⟩ | ⟨part, htails, hpart, hmeets⟩
  · -- The value ends a placeholder that the text before it has started.
    obtain ⟨start, hb⟩ := (List.mem_tails _ _).1 htails
    have hlead : '$' :: start = [] ∨
        ∃ start' rest, '$' :: start = '$' :: start' ∧ b = start' ++ rest ∧ rest ≠ [] :=
      .inr ⟨start, part, rfl, hb.symm, hpart⟩
    rcases hmeets with ⟨more, hmore⟩ | ⟨more, hmore⟩
    · obtain ⟨hkept, hfill⟩ := h.fill_around (x := x) (y := y) hlead (List.not_mem_nil)
      refine ⟨_, hkept, ?_⟩
      rw [hfill, ← hb, ← hmore]
      exact ⟨[], more, by simp⟩
    · have hplain : '$' ∉ more := fun hmem =>
        h.plain' (hb ▸ List.mem_append_right _ (hmore ▸ List.mem_append_right _ hmem))
      obtain ⟨hkept, hfill⟩ := h.fill_around (x := x) (y := y) hlead hplain
      refine ⟨_, hkept, ?_⟩
      rw [hfill, ← hb, ← hmore]
      exact ⟨[], [], by simp⟩
  · -- The value holds a placeholder, or starts one that the text behind it ends.
    obtain ⟨before, hvalue⟩ := (List.mem_tails _ _).1 htails
    rcases hmeets with ⟨more, hmore⟩ | ⟨more, hmore⟩
    · have hplain : '$' ∉ more := by
        obtain ⟨c, part', rfl⟩ := List.exists_cons_of_ne_nil hpart
        rw [List.cons_append, List.cons.injEq] at hmore
        exact fun hmem => h.plain' (hmore.2 ▸ List.mem_append_right _ hmem)
      obtain ⟨hkept, hfill⟩ := h.fill_around (x := x) (y := y) (.inl rfl) hplain
      refine ⟨_, hkept, ?_⟩
      rw [hfill, ← hmore, ← hvalue]
      exact ⟨before, [], by simp⟩
    · obtain ⟨hkept, hfill⟩ := h.fill_around (x := x) (y := y) (.inl rfl) (List.not_mem_nil)
      refine ⟨_, hkept, ?_⟩
      rw [hfill, ← hvalue, ← hmore]
      exact ⟨before, more, by simp⟩

/-- Where the order does not matter, the one value makes no placeholder of the other name, or
filling the other name changes nothing. -/
theorem Apart.self_or_avoids (h : Apart a b)
    (hcomm : ∀ text, fill b y (fill a x text) = fill a x (fill b y text)) :
    y = '$' :: b ∨ Avoids x b := by
  by_cases hx : Avoids x b
  · exact .inr hx
  · obtain ⟨text, hkept, hocc⟩ := h.exists_text_of_not_avoids (y := y) hx
    have htext := hcomm text
    rw [hkept] at htext
    exact .inl (value_of_fill_eq hocc htext)

/-- Two names with their values do not get in each other's way: filling either makes no
placeholder of the other, unless the other stands for its own placeholder. -/
def Independent (a x b y : List Char) : Prop :=
  (y = '$' :: b ∨ Avoids x b) ∧ (x = '$' :: a ∨ Avoids y a)

instance (a x b y : List Char) : Decidable (Independent a x b y) :=
  inferInstanceAs (Decidable (_ ∧ _))

/-- Two names can be filled in either order if and only if they are independent. -/
theorem fill_comm_iff (h : Apart a b) :
    (∀ text, fill b y (fill a x text) = fill a x (fill b y text)) ↔ Independent a x b y := by
  constructor
  · intro hcomm
    exact ⟨h.self_or_avoids hcomm, h.symm.self_or_avoids fun text => (hcomm text).symm⟩
  · rintro ⟨rfl | hx, hy⟩ text
    · rw [fill_self, fill_self]
    · rcases hy with rfl | hy
      · rw [fill_self, fill_self]
      · exact fill_comm h hx hy text

end Pair

end HttpSuite.Placeholder
