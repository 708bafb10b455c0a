import HttpSuite.Proofs.Placeholder
import HttpSuite.Proofs.Recovery.Suite

/-!
# Programs with their declarations reordered

The variables of a program are filled in one after the other, longer names first and names of one
length in the order of their declarations.  So the order of the declarations shows only in names of
one length, and there only where filling one name gets in the way of filling the other.

What a table of variables does is a fold over its entries.  Two orders of the entries give the same
fold if all pairs that stand in different orders commute; in two tables these are pairs of names of
one length, and because sorting is stable they are declared in different orders too.

## Main definitions

* `Variable.Independent`: two variables can be filled in either order.

## Main results

* `Substitution.applyChars_eq_of_perm`: when reordered declarations make no difference.
* `reordered_declarations`: the same for programs and the suites that they are compiled to.
-/

namespace HttpSuite

/-! ## Folds over reordered lists -/

section Fold

variable {α β : Type} {f : β → α → β}

private theorem foldl_front {x : α} {as : List α} (h : ∀ y ∈ as, ∀ t, f (f t x) y = f (f t y) x)
    (t : β) : as.foldl f (f t x) = f (as.foldl f t) x := by
  induction as generalizing t with
  | nil => rfl
  | cons y as ih =>
    rw [List.forall_mem_cons] at h
    rw [List.foldl_cons, List.foldl_cons, h.1, ih h.2]

/-- Two orders of a list give the same fold if the pairs that stand in different orders commute. -/
private theorem foldl_eq_of_perm {as bs : List α} (hperm : as.Perm bs)
    (hcomm : ∀ x y, [x, y].Sublist as → [y, x].Sublist bs → ∀ t, f (f t x) y = f (f t y) x)
    (t : β) : as.foldl f t = bs.foldl f t := by
  induction as generalizing bs t with
  | nil => rw [hperm.nil_eq]
  | cons x as ih =>
    -- The first entry is moved to the front of the second list, past entries it commutes with.
    obtain ⟨before, after, rfl⟩ := List.append_of_mem (hperm.subset List.mem_cons_self)
    have hrest : as.Perm (before ++ after) := (hperm.trans List.perm_middle).cons_inv
    have hfront : ∀ y ∈ before, ∀ t, f (f t x) y = f (f t y) x := by
      intro y hy
      have hmem : y ∈ as := hrest.symm.subset (List.mem_append_left _ hy)
      refine hcomm x y ((List.singleton_sublist.2 hmem).cons_cons x) ?_
      exact (List.singleton_sublist.2 hy).append (List.singleton_sublist.2 List.mem_cons_self)
    have htail := ih hrest (fun y z hyz hzy => hcomm y z (hyz.cons x)
      (hzy.trans ((List.Sublist.refl before).append (List.sublist_cons_self x after)))) (f t x)
    rw [List.foldl_cons, htail, List.foldl_append, foldl_front hfront, List.foldl_append,
      List.foldl_cons]

end Fold

/-! ## Pairs in a list -/

section Pairs

variable {α : Type} {x y : α} {as : List α}

theorem mem_of_pair_sublist (h : [x, y].Sublist as) : x ∈ as ∧ y ∈ as :=
  ⟨h.subset List.mem_cons_self, h.subset (List.mem_cons_of_mem _ List.mem_cons_self)⟩

theorem ne_of_pair_sublist (hnodup : as.Nodup) (h : [x, y].Sublist as) : x ≠ y := by
  have hpair := hnodup.sublist h
  simpa using hpair

private theorem pair_sublist_or (hx : x ∈ as) (hy : y ∈ as) (hne : x ≠ y) :
    [x, y].Sublist as ∨ [y, x].Sublist as := by
  obtain ⟨before, after, rfl⟩ := List.append_of_mem hx
  rcases List.mem_append.1 hy with hbefore | hafter
  · exact .inr ((List.singleton_sublist.2 hbefore).append
      (List.singleton_sublist.2 List.mem_cons_self))
  · have hmem : y ∈ after := (List.mem_cons.1 hafter).resolve_left (Ne.symm hne)
    exact .inl (((List.singleton_sublist.2 hmem).cons_cons x).trans
      (List.sublist_append_right before _))

private theorem not_pair_sublist_swap (hnodup : as.Nodup) (h : [x, y].Sublist as) :
    ¬ [y, x].Sublist as := by
  induction as with
  | nil => cases h
  | cons z as ih =>
    rw [List.nodup_cons] at hnodup
    intro hswap
    cases h with
    | cons _ h =>
      cases hswap with
      | cons _ hswap => exact ih hnodup.2 h hswap
      | cons_cons _ _ => exact hnodup.1 (mem_of_pair_sublist h).2
    | cons_cons _ h =>
      cases hswap with
      | cons _ hswap => exact hnodup.1 (mem_of_pair_sublist hswap).2
      | cons_cons _ _ => exact hnodup.1 (h.subset List.mem_cons_self)

/-- Sorting is stable: what it does not have to exchange was in that order before. -/
private theorem pair_sublist_of_mergeSort {le : α → α → Bool} (hnodup : as.Nodup)
    (htrans : ∀ a b c, le a b → le b c → le a c) (htotal : ∀ a b, le a b || le b a)
    (h : [x, y].Sublist (as.mergeSort le)) (hle : le y x = true) : [x, y].Sublist as := by
  have hperm := List.mergeSort_perm as le
  have hnodup' := hperm.nodup_iff.2 hnodup
  have hx : x ∈ as := hperm.subset (mem_of_pair_sublist h).1
  have hy : y ∈ as := hperm.subset (mem_of_pair_sublist h).2
  have hne : x ≠ y := ne_of_pair_sublist hnodup' h
  refine (pair_sublist_or hx hy hne).resolve_right fun hswap => ?_
  exact not_pair_sublist_swap hnodup' h (List.pair_sublist_mergeSort htrans htotal hle hswap)

end Pairs

/-! ## Tables of reordered declarations -/

/-- The two variables can be filled in either order. -/
def Variable.Independent (v w : Variable) : Prop :=
  Placeholder.Independent v.name.toList v.value.asText.toList w.name.toList w.value.asText.toList

instance (v w : Variable) : Decidable (v.Independent w) :=
  inferInstanceAs (Decidable (Placeholder.Independent _ _ _ _))

/-- The entry that a variable makes in a table. -/
def Variable.entry (v : Variable) : String × String := (v.name, v.value.asText)

/-- A text that starts another and is no shorter is the other. -/
theorem eq_of_prefix_of_size_le {a b : String} (hpre : a.toList <+: b.toList)
    (hsize : b.utf8ByteSize ≤ a.utf8ByteSize) : a = b := by
  obtain ⟨rest, hrest⟩ := hpre
  have hb : b = a ++ String.ofList rest := by
    rw [← String.toList_inj, String.toList_append, String.toList_ofList, hrest]
  have hzero : (String.ofList rest).utf8ByteSize = 0 := by
    rw [hb, String.utf8ByteSize_append] at hsize
    omega
  rw [hb, String.utf8ByteSize_eq_zero_iff.1 hzero, String.append_empty]

/-- Different names of one size are no parts of each other. -/
theorem apart_of_names {a b : String} (ha : IsName a) (hb : IsName b) (hne : a ≠ b)
    (hsize : a.utf8ByteSize = b.utf8ByteSize) : Placeholder.Apart a.toList b.toList := by
  have hplain {name : String} (h : IsName name) : '$' ∉ name.toList := fun hmem =>
    absurd (Text.isWordPart_of_isIdentifier h.1 _ hmem) (by decide)
  refine ⟨hplain ha, hplain hb, ?_⟩
  rintro (hpre | hpre)
  · exact hne (eq_of_prefix_of_size_le hpre hsize.ge)
  · exact hne (eq_of_prefix_of_size_le hpre hsize.le).symm

namespace Substitution

/-- The order of a table: the name of the first entry is no shorter. -/
def noShorter (a b : String × String) : Bool := b.1.utf8ByteSize ≤ a.1.utf8ByteSize

theorem noShorter_iff {a b : String × String} :
    noShorter a b = true ↔ b.1.utf8ByteSize ≤ a.1.utf8ByteSize :=
  decide_eq_true_iff

theorem noShorter_trans (a b c : String × String) (hab : noShorter a b) (hbc : noShorter b c) :
    noShorter a c :=
  noShorter_iff.2 (Nat.le_trans (noShorter_iff.1 hbc) (noShorter_iff.1 hab))

theorem noShorter_total (a b : String × String) : noShorter a b || noShorter b a := by
  rw [Bool.or_eq_true, noShorter_iff, noShorter_iff]
  exact Nat.le_total _ _

private theorem foldl_put {declared : List Variable} {entries : List (String × String)}
    (hnodup : (declared.map Variable.name).Nodup)
    (hnew : ∀ v ∈ declared, v.name ∉ entries.map Prod.fst) :
    declared.foldl put entries = entries ++ declared.map Variable.entry := by
  induction declared generalizing entries with
  | nil => rw [List.foldl_nil, List.map_nil, List.append_nil]
  | cons v declared ih =>
    rw [List.map_cons, List.nodup_cons] at hnodup
    rw [List.forall_mem_cons] at hnew
    have hput : put entries v = entries ++ [v.entry] := by
      have hany : (entries.any fun entry => entry.1 == v.name) = false := by
        rw [List.any_eq_false]
        intro entry hmem heq
        exact hnew.1 (List.mem_map.2 ⟨entry, hmem, beq_iff_eq.1 heq⟩)
      rw [put, hany]
      rfl
    have hnew' : ∀ w ∈ declared, w.name ∉ (entries ++ [v.entry]).map Prod.fst := by
      intro w hw
      rw [List.map_append, List.mem_append, not_or, List.map_singleton, List.mem_singleton]
      exact ⟨hnew.2 w hw, fun heq => hnodup.1 (List.mem_map.2 ⟨w, hw, heq⟩)⟩
    rw [List.foldl_cons, hput, ih hnodup.2 hnew', List.append_assoc, List.map_cons,
      List.singleton_append]

/-- The table of variables with different names. -/
theorem entries_ofVariables {declared : List Variable}
    (hnodup : (declared.map Variable.name).Nodup) :
    (ofVariables declared).entries = (declared.map Variable.entry).mergeSort noShorter := by
  have hput : declared.foldl put [] = [] ++ declared.map Variable.entry :=
    foldl_put hnodup fun _ _ => List.not_mem_nil
  rw [ofVariables, hput, List.nil_append]
  rfl

/-- A table is sorted: no name is shorter than those behind it. -/
theorem noShorter_of_pair {declared : List Variable} (hnodup : (declared.map Variable.name).Nodup)
    {x y : String × String} (h : [x, y].Sublist (ofVariables declared).entries) :
    noShorter x y = true := by
  rw [entries_ofVariables hnodup] at h
  exact List.pairwise_iff_forall_sublist.1
    (List.pairwise_mergeSort noShorter_trans noShorter_total _) h

/-- Entries for names of one size stand in the order of their declarations. -/
theorem exists_declared_pair {declared : List Variable}
    (hnodup : (declared.map Variable.name).Nodup) {x y : String × String}
    (h : [x, y].Sublist (ofVariables declared).entries) (hle : noShorter y x = true) :
    ∃ v w, x = v.entry ∧ y = w.entry ∧ [v, w].Sublist declared := by
  have hentries : (declared.map Variable.entry).Nodup := by
    refine List.Nodup.of_map Prod.fst ?_
    rwa [List.map_map]
  rw [entries_ofVariables hnodup] at h
  have hpair := pair_sublist_of_mergeSort hentries noShorter_trans noShorter_total h hle
  obtain ⟨pair, hsublist, heq⟩ := List.sublist_map_iff.1 hpair
  have hlength : pair.length = 2 := by
    rw [← List.length_map Variable.entry, ← heq, List.length_cons, List.length_singleton]
  obtain ⟨v, w, rfl⟩ := List.length_eq_two.1 hlength
  simp only [List.map_cons, List.map_nil, List.cons.injEq, and_true] at heq
  exact ⟨v, w, heq.1, heq.2, hsublist⟩

/-- Entries that stand in different orders in two tables have names of one size and are declared
in different orders. -/
private theorem variables_of_pair {declared declared' : List Variable}
    (hperm : declared.Perm declared')
    (hnodup : (declared.map Variable.name).Nodup) {x y : String × String}
    (hxy : [x, y].Sublist (ofVariables declared).entries)
    (hyx : [y, x].Sublist (ofVariables declared').entries) :
    ∃ v w, x = v.entry ∧ y = w.entry ∧ v.name.utf8ByteSize = w.name.utf8ByteSize ∧
      [v, w].Sublist declared ∧ [w, v].Sublist declared' := by
  have hnodup' : (declared'.map Variable.name).Nodup := (hperm.map _).nodup_iff.1 hnodup
  have hle := noShorter_of_pair hnodup hxy
  have hge := noShorter_of_pair hnodup' hyx
  obtain ⟨v, w, rfl, rfl, hvw⟩ := exists_declared_pair hnodup hxy hge
  obtain ⟨w', v', hw, hv, hwv⟩ := exists_declared_pair hnodup' hyx hle
  -- The name of an entry says which variable it is.
  have hsame {v v' : Variable} (hmem : v ∈ declared) (hmem' : v' ∈ declared')
      (h : v.entry = v'.entry) : v = v' :=
    List.inj_on_of_nodup_map hnodup hmem (hperm.symm.subset hmem') (congrArg Prod.fst h)
  obtain rfl := hsame (mem_of_pair_sublist hvw).1 (mem_of_pair_sublist hwv).2 hv
  obtain rfl := hsame (mem_of_pair_sublist hvw).2 (mem_of_pair_sublist hwv).1 hw
  have hsize := Nat.le_antisymm (noShorter_iff.1 hge) (noShorter_iff.1 hle)
  exact ⟨v, w, rfl, rfl, hsize, hvw, hwv⟩

/-- Reordered declarations make no difference if those that have names of one size and change
places are independent. -/
theorem applyChars_eq_of_perm {declared declared' : List Variable}
    (hnames : ∀ v ∈ declared, IsName v.name) (hperm : declared.Perm declared')
    (hnodup : (declared.map Variable.name).Nodup)
    (hindependent : ∀ v w, [v, w].Sublist declared → [w, v].Sublist declared' →
      v.name.utf8ByteSize = w.name.utf8ByteSize → v.Independent w) (text : List Char) :
    (ofVariables declared).applyChars text = (ofVariables declared').applyChars text := by
  have hnodup' : (declared'.map Variable.name).Nodup := (hperm.map _).nodup_iff.1 hnodup
  have hentries : (ofVariables declared).entries.Perm (ofVariables declared').entries := by
    rw [entries_ofVariables hnodup, entries_ofVariables hnodup']
    exact (List.mergeSort_perm _ _).trans
      ((hperm.map _).trans (List.mergeSort_perm _ _).symm)
  refine foldl_eq_of_perm hentries ?_ text
  intro x y hxy hyx text
  obtain ⟨v, w, rfl, rfl, hsize, hvw, hwv⟩ := variables_of_pair hperm hnodup hxy hyx
  have hv : IsName v.name := hnames v (mem_of_pair_sublist hvw).1
  have hw : IsName w.name := hnames w (mem_of_pair_sublist hvw).2
  have hne : v.name ≠ w.name := ne_of_pair_sublist hnodup (hvw.map Variable.name)
  exact (Placeholder.fill_comm_iff (apart_of_names hv hw hne hsize)).2
    (hindependent v w hvw hwv hsize) text

/-- Two names of one size are filled in the order of their declarations. -/
theorem entries_pair {v w : Variable} (hne : v.name ≠ w.name)
    (hsize : v.name.utf8ByteSize = w.name.utf8ByteSize) :
    (ofVariables [v, w]).entries = [v.entry, w.entry] := by
  rw [entries_ofVariables (by simpa using hne)]
  refine List.mergeSort_of_pairwise ?_
  simpa using noShorter_iff.2 (Nat.le_of_eq hsize.symm)

/-- Exchanging two declarations makes a difference unless they are independent. -/
private theorem independent_of_applyChars_eq {v w : Variable} (hv : IsName v.name)
    (hw : IsName w.name) (hne : v.name ≠ w.name) (hsize : v.name.utf8ByteSize = w.name.utf8ByteSize)
    (h : ∀ text, (ofVariables [v, w]).applyChars text = (ofVariables [w, v]).applyChars text) :
    v.Independent w := by
  refine (Placeholder.fill_comm_iff (apart_of_names hv hw hne hsize)).1 fun text => ?_
  have htext := h text
  rw [applyChars, applyChars, entries_pair hne hsize, entries_pair hne.symm hsize.symm] at htext
  exact htext

/-- Tables that give the same texts resolve a statement to the same. -/
private theorem resolve_eq_of_apply_eq {s s' : Substitution} (h : s.apply = s'.apply)
    (statement : Statement) : statement.resolve s = statement.resolve s' := by
  have hliteral : s.literal = s'.literal := by
    funext text
    rw [literal, literal, h]
  have hurl : s.url = s'.url := by
    funext url
    rw [Substitution.url, Substitution.url, h]
  have hbody : s.body = s'.body := by
    funext method body
    rw [Substitution.body.eq_def, Substitution.body.eq_def, hliteral]
  cases statement with
  | request r => simp only [Statement.resolve, Request.resolve, hurl, hbody]
  | assertion a =>
    cases a <;> simp only [Statement.resolve, Assertion.resolve, hliteral]

end Substitution

/-! ## Programs with reordered declarations -/

/-- A suite depends on the declarations through the texts that result from them. -/
private theorem Dialect.suite_eq_of_apply_eq (dialect : Dialect) {p q : Program}
    (hconfig : p.config = q.config) (htests : p.tests = q.tests)
    (happly : (Substitution.ofVariables p.declarations).apply =
      (Substitution.ofVariables q.declarations).apply) : dialect.suite p = dialect.suite q := by
  have hshared : p.shared = q.shared := by
    rw [Program.shared, Program.shared, Program.baseUrl?, Program.baseUrl?, Program.defaultHeaders,
      Program.defaultHeaders, hconfig]
  have hpieces : Test.pieces (.ofVariables p.declarations) =
      Test.pieces (.ofVariables q.declarations) := by
    funext t
    rw [Test.pieces, Test.pieces]
    simp only [Substitution.resolve_eq_of_apply_eq happly]
  rw [suite, suite, Program.pieces, Program.pieces, hshared, htests, hpieces]

/-- The rules of a program do not speak of its declarations. -/
theorem Program.violation?_eq {p q : Program} (htests : p.tests = q.tests) :
    p.violation? = q.violation? := by
  rw [violation?, violation?, htests]

/-- Sources with the same suites and the same broken rules are compiled to the same text, or fail
with the same error. -/
private theorem map_source_compile_eq {source source' : String} {p q : Program}
    (hp : Program.parse source = .ok p) (hq : Program.parse source' = .ok q)
    (hviolation : p.violation? = q.violation?) (hsuite : ∀ dialect : Dialect,
      dialect.suite p = dialect.suite q) (options : Options) :
    (compile source options).map Output.source = (compile source' options).map Output.source := by
  rw [compile, compile, hp, hq]
  cases options.problem? with
  | some problem => rfl
  | none =>
    simp only [Program.generate, Program.validate, hviolation, hsuite]
    cases q.violation? with
    | some e => rfl
    | none => rfl

/-- The order of declarations with different names makes no difference if those of one length that
change places are independent: every text is filled in the same way and every suite is the same.
For two declarations, this is also necessary. -/
theorem reordered_declarations {source source' : String} {p q : Program}
    (hp : Program.parse source = .ok p) (hq : Program.parse source' = .ok q)
    (hconfig : p.config = q.config) (htests : p.tests = q.tests)
    (hperm : p.declarations.Perm q.declarations)
    (hnodup : (p.declarations.map Variable.name).Nodup) :
    ((∀ v w, [v, w].Sublist p.declarations → [w, v].Sublist q.declarations →
        v.name.utf8ByteSize = w.name.utf8ByteSize → v.Independent w) →
      (∀ text, (Substitution.ofVariables p.declarations).apply text =
        (Substitution.ofVariables q.declarations).apply text) ∧
      ∀ options, (compile source options).map Output.source =
        (compile source' options).map Output.source) ∧
    (p.declarations.length = 2 →
      (∀ text, (Substitution.ofVariables p.declarations).apply text =
        (Substitution.ofVariables q.declarations).apply text) →
      ∀ v w, [v, w].Sublist p.declarations → [w, v].Sublist q.declarations →
        v.name.utf8ByteSize = w.name.utf8ByteSize → v.Independent w) := by
  have hnames := (Program.wellFormed_of_parse hp).variableName
  constructor
  · intro hindependent
    have happly (text : String) : (Substitution.ofVariables p.declarations).apply text =
        (Substitution.ofVariables q.declarations).apply text := by
      rw [Substitution.apply, Substitution.apply,
        Substitution.applyChars_eq_of_perm hnames hperm hnodup hindependent]
    refine ⟨happly, map_source_compile_eq hp hq (Program.violation?_eq htests) fun dialect => ?_⟩
    exact dialect.suite_eq_of_apply_eq hconfig htests (funext happly)
  · intro htwo happly v w hvw hwv hsize
    have hv : IsName v.name := hnames v (mem_of_pair_sublist hvw).1
    have hw : IsName w.name := hnames w (mem_of_pair_sublist hvw).2
    have hne : v.name ≠ w.name := ne_of_pair_sublist hnodup (hvw.map Variable.name)
    have hpair : p.declarations = [v, w] := (hvw.eq_of_length htwo.symm).symm
    have hpair' : q.declarations = [w, v] :=
      (hwv.eq_of_length (htwo.symm.trans hperm.length_eq)).symm
    rw [hpair, hpair'] at happly
    refine Substitution.independent_of_applyChars_eq hv hw hne hsize fun text => ?_
    have htext := happly (String.ofList text)
    rwa [Substitution.apply, Substitution.apply, String.ofList_inj, String.toList_ofList] at htext

/-- A program with the given declarations that asks for a path made of two placeholders. -/
def twoPlaceholders (declarations : List Variable) : Program where
  declarations
  tests := [⟨"t",
    [ .request { method := .get, url := "/$a$b" }
    , .assertion (.statusEquals 200)
    , .assertion (.bodyContains "$a") ]⟩]

theorem wellFormed_twoPlaceholders (x y : String) :
    (twoPlaceholders [⟨"a", .text x⟩, ⟨"b", .text y⟩]).WellFormed ∧
      (twoPlaceholders [⟨"b", .text y⟩, ⟨"a", .text x⟩]).WellFormed := by
  have hnames : IsName "t" ∧ IsName "a" ∧ IsName "b" := by decide
  simp [Program.wellFormed_iff, twoPlaceholders, Statement.Writable, Value.Writable, hnames]

/-- A variable that mentions itself is independent of one that is a number. -/
theorem reordered_declarations_selfMention :
    Variable.Independent ⟨"a", .text "$a/"⟩ ⟨"b", .text "7"⟩ ∧ ∀ options,
      (compile (twoPlaceholders [⟨"a", .text "$a/"⟩, ⟨"b", .text "7"⟩]).print options).map
          Output.source =
        (compile (twoPlaceholders [⟨"b", .text "7"⟩, ⟨"a", .text "$a/"⟩]).print options).map
          Output.source := by
  have hwellFormed := wellFormed_twoPlaceholders "$a/" "7"
  have hreordered := reordered_declarations (Program.parse_print hwellFormed.1)
    (Program.parse_print hwellFormed.2) rfl rfl (List.Perm.swap _ _ _)
    (by simp [twoPlaceholders])
  have hsame := hreordered.1 fun v w hvw _ _ => by
    cases hvw.eq_of_length rfl
    decide
  exact ⟨hreordered.2 rfl hsame.1 _ _ (List.Sublist.refl _) (List.Sublist.refl _) rfl, hsame.2⟩

/-- The placeholder of a variable whose value mentions the other one is filled with the value of
that one, or with its placeholder. -/
theorem apply_twoPlaceholders :
    (Substitution.ofVariables [⟨"a", .text "$b"⟩, ⟨"b", .text "x"⟩]).apply "$a" = "x" ∧
      (Substitution.ofVariables [⟨"b", .text "x"⟩, ⟨"a", .text "$b"⟩]).apply "$a" = "$b" := by
  cbv

theorem source_ne_twoPlaceholders (target : Target) :
    (compile (twoPlaceholders [⟨"a", .text "$b"⟩, ⟨"b", .text "x"⟩]).print { target }).map
        Output.source ≠
      (compile (twoPlaceholders [⟨"b", .text "x"⟩, ⟨"a", .text "$b"⟩]).print { target }).map
        Output.source := by
  have hname : Text.isIdentifier defaultClassName = true := by decide
  have hwellFormed := wellFormed_twoPlaceholders "$b" "x"
  rw [compile_print hwellFormed.1 { target } hname rfl,
    compile_print hwellFormed.2 { target } hname rfl]
  intro h
  have hrendering := target.rendering_eq_of_suite_eq hname hname hwellFormed.1 hwellFormed.2
    (Except.ok.inj h)
  cases target with
  | junit =>
    cbv at hrendering
    simp at hrendering
  | rust =>
    cbv at hrendering
    simp at hrendering

/-- Two programs that differ in the order of their declarations alone, with different names, and
that fill a text differently and are compiled to different suites. -/
theorem exists_reordered_declarations_ne :
    ∃ p q : Program, Program.parse p.print = .ok p ∧ Program.parse q.print = .ok q ∧
      p.config = q.config ∧ p.tests = q.tests ∧ p.declarations.Perm q.declarations ∧
      (p.declarations.map Variable.name).Nodup ∧
      (Substitution.ofVariables p.declarations).apply "$a" = "x" ∧
      (Substitution.ofVariables q.declarations).apply "$a" = "$b" ∧
      (compile p.print { target := .junit }).map Output.source ≠
        (compile q.print { target := .junit }).map Output.source ∧
      (compile p.print { target := .rust }).map Output.source ≠
        (compile q.print { target := .rust }).map Output.source := by
  have hwellFormed := wellFormed_twoPlaceholders "$b" "x"
  exact ⟨_, _, Program.parse_print hwellFormed.1, Program.parse_print hwellFormed.2, rfl, rfl,
    List.Perm.swap _ _ _, by simp [twoPlaceholders], apply_twoPlaceholders.1,
    apply_twoPlaceholders.2, source_ne_twoPlaceholders .junit, source_ne_twoPlaceholders .rust⟩

end HttpSuite
