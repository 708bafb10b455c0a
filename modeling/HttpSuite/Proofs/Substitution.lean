import HttpSuite.Proofs.Reordering

/-!
# What a table holds

A name may be declared more than once.  The table of a program has one entry for each declared name,
with the value of its last declaration, and longer names come first.

## Main definitions

* `Variable.IsLast`: the last declaration of a name.

## Main results

* `Substitution.mem_entries_iff`: the entries are those of the last declarations.
* `Substitution.pairwise_entries`: no name is shorter than those behind it.
-/

namespace HttpSuite

/-! ## Last declarations -/

/-- The variable is declared, and its name is not declared again behind it. -/
def Variable.IsLast (declared : List Variable) (v : Variable) : Prop :=
  ∃ before after, declared = before ++ v :: after ∧ ∀ w ∈ after, w.name ≠ v.name

namespace Variable

variable {declared : List Variable} {v w : Variable}

theorem not_isLast_nil : ¬ IsLast [] v := by
  rintro ⟨before, after, hnil, -⟩
  simp at hnil

/-- One more declaration takes the place of all earlier ones of its name. -/
theorem isLast_append_singleton :
    IsLast (declared ++ [w]) v ↔ v = w ∨ IsLast declared v ∧ v.name ≠ w.name := by
  constructor
  · rintro ⟨before, after, hsplit, hafter⟩
    rcases List.eq_nil_or_concat after with rfl | ⟨after, last, rfl⟩
    · exact .inl (List.append_singleton_inj.1 hsplit).2.symm
    · rw [List.concat_eq_append] at hsplit hafter
      rw [← List.cons_append, ← List.append_assoc, List.append_singleton_inj] at hsplit
      obtain ⟨rfl, rfl⟩ := hsplit
      rw [List.forall_mem_append, List.forall_mem_singleton] at hafter
      exact .inr ⟨⟨before, after, rfl, hafter.1⟩, hafter.2.symm⟩
  · rintro (rfl | ⟨⟨before, after, rfl, hafter⟩, hne⟩)
    · exact ⟨declared, [], rfl, List.forall_mem_nil _⟩
    · refine ⟨before, after ++ [w], by rw [List.append_assoc, List.cons_append], ?_⟩
      exact List.forall_mem_append.2 ⟨hafter, List.forall_mem_singleton.2 hne.symm⟩

theorem IsLast.mem (h : IsLast declared v) : v ∈ declared := by
  obtain ⟨before, after, rfl, -⟩ := h
  exact List.mem_append_right before List.mem_cons_self

/-- A name has one last declaration. -/
theorem IsLast.eq_of_name_eq (hv : IsLast declared v) (hw : IsLast declared w)
    (hname : v.name = w.name) : v = w := by
  induction declared using List.reverseRecOn with
  | nil => exact absurd hv not_isLast_nil
  | append_singleton declared last ih =>
    rw [isLast_append_singleton] at hv hw
    rcases hv with rfl | ⟨hv, hne⟩
    · rcases hw with rfl | ⟨-, hne⟩
      · rfl
      · exact absurd hname.symm hne
    · rcases hw with rfl | ⟨hw, -⟩
      · exact absurd hname hne
      · exact ih hv hw

/-- A declared name has a last declaration. -/
theorem exists_isLast (h : v ∈ declared) : ∃ w, IsLast declared w ∧ w.name = v.name := by
  induction declared using List.reverseRecOn with
  | nil => exact absurd h List.not_mem_nil
  | append_singleton declared last ih =>
    by_cases hlast : last.name = v.name
    · exact ⟨last, isLast_append_singleton.2 (.inl rfl), hlast⟩
    · have hmem : v ∈ declared := by
        rcases List.mem_append.1 h with hmem | hmem
        · exact hmem
        · exact absurd (congrArg Variable.name (List.mem_singleton.1 hmem)).symm hlast
      obtain ⟨w, hw, hname⟩ := ih hmem
      exact ⟨w, isLast_append_singleton.2 (.inr ⟨hw, fun h => hlast (h.symm.trans hname)⟩), hname⟩

end Variable

namespace Substitution

/-! ## Entries -/

/-- A declaration takes the place of the entry of its name. -/
theorem mem_put {entries : List (String × String)} {v : Variable} {entry : String × String} :
    entry ∈ put entries v ↔ entry = v.entry ∨ entry ∈ entries ∧ entry.1 ≠ v.name := by
  rw [put]
  split_ifs with hany
  · obtain ⟨old, hold, hname⟩ := List.any_eq_true.1 hany
    rw [beq_iff_eq] at hname
    rw [List.mem_map]
    constructor
    · rintro ⟨entry', hentry, rfl⟩
      split_ifs with heq
      · exact .inl (Prod.ext heq rfl)
      · exact .inr ⟨hentry, heq⟩
    · rintro (rfl | ⟨hentry, hne⟩)
      · exact ⟨old, hold, by rw [if_pos hname, hname, Variable.entry]⟩
      · exact ⟨entry, hentry, if_neg hne⟩
  · have hnew : entry ∈ entries → entry.1 ≠ v.name := fun hentry heq =>
      hany (List.any_eq_true.2 ⟨entry, hentry, beq_iff_eq.2 heq⟩)
    rw [List.mem_append, List.mem_singleton, or_comm, Variable.entry]
    exact or_congr_right (and_iff_left_of_imp hnew).symm

variable {declared : List Variable}

/-- Before they are sorted, the entries are those of the last declarations. -/
theorem mem_foldl_put {entry : String × String} :
    entry ∈ declared.foldl put [] ↔ ∃ v : Variable, v.IsLast declared ∧ entry = v.entry := by
  induction declared using List.reverseRecOn with
  | nil => simp [Variable.not_isLast_nil]
  | append_singleton declared last ih =>
    rw [List.foldl_append, List.foldl_cons, List.foldl_nil, mem_put, ih]
    simp only [Variable.isLast_append_singleton]
    constructor
    · rintro (rfl | ⟨⟨v, hv, rfl⟩, hne⟩)
      · exact ⟨last, .inl rfl, rfl⟩
      · exact ⟨v, .inr ⟨hv, hne⟩, rfl⟩
    · rintro ⟨v, rfl | ⟨hv, hne⟩, rfl⟩
      · exact .inl rfl
      · exact .inr ⟨⟨v, hv, rfl⟩, hne⟩

/-- A table holds the entries of the last declarations. -/
theorem mem_entries_iff {entry : String × String} :
    entry ∈ (ofVariables declared).entries ↔
      ∃ v : Variable, v.IsLast declared ∧ entry = v.entry := by
  rw [ofVariables, (List.mergeSort_perm _ _).mem_iff, mem_foldl_put]

/-- A table is sorted: no name is shorter than those behind it. -/
theorem pairwise_entries (declared : List Variable) :
    (ofVariables declared).entries.Pairwise fun a b => noShorter a b = true :=
  List.pairwise_mergeSort noShorter_trans noShorter_total _

end Substitution

end HttpSuite
