import HttpSuite.Proofs.Substitution.Unused

/-!
# The order of a table

A table is built declaration by declaration: a new name goes to the end, and a name that is there
keeps its place and gets the new value.  So before it is sorted, a table lists each name where it
was first declared, with the value of its last declaration.  Sorting puts longer names first and
leaves names of one length as they were, which makes the table a map with a fixed order: whoever
knows the declarations knows every entry and its place.

## Main definitions

* `Placeholder.ofName`: the placeholder of a name.
* `Variable.declaredOnce`: each name once, where it was first declared, with its last value.

## Main results

* `Substitution.foldl_put_eq_map_entry`: a table before it is sorted.
* `Substitution.ofVariables_declaredOnce`: repeated declarations can be merged.
* `Substitution.pairwise_declared`: the order of a table.
* `Substitution.table_of_declarations`: all that declarations say about a table.
-/

namespace HttpSuite

/-! ## First occurrences -/

section FirstOccurrences

variable {α β : Type} [DecidableEq α]

theorem eraseDups_append_singleton (as : List α) (a : α) :
    (as ++ [a]).eraseDups = if a ∈ as then as.eraseDups else as.eraseDups ++ [a] := by
  rw [List.eraseDups_append]
  split_ifs with h <;> simp [List.removeAll, h, List.eraseDups_cons]

/-- Without repetitions, elements stand in the order in which they occur first. -/
theorem pairwise_eraseDups (as : List α) :
    as.eraseDups.Pairwise fun a b => as.idxOf a < as.idxOf b := by
  induction as using List.reverseRecOn with
  | nil => exact List.Pairwise.nil
  | append_singleton as last ih =>
    -- What is found in the list is found at the same place in a longer one.
    have hfound {a : α} (ha : a ∈ as.eraseDups) : (as ++ [last]).idxOf a = as.idxOf a := by
      rw [List.idxOf_append, if_pos (List.mem_eraseDups.1 ha)]
    have hbefore : as.eraseDups.Pairwise fun a b =>
        (as ++ [last]).idxOf a < (as ++ [last]).idxOf b := by
      refine ih.imp_of_mem fun ha hb hlt => ?_
      rwa [hfound ha, hfound hb]
    rw [eraseDups_append_singleton]
    split_ifs with hmem
    · exact hbefore
    · refine List.pairwise_append.2 ⟨hbefore, List.pairwise_singleton _ _, fun a ha b hb => ?_⟩
      rw [List.mem_singleton.1 hb, hfound ha, List.idxOf_append, if_neg hmem]
      exact Nat.lt_of_lt_of_le (List.idxOf_lt_length_iff.2 (List.mem_eraseDups.1 ha))
        (Nat.le_add_left _ _)

private theorem nodup_eraseDups (as : List α) : as.eraseDups.Nodup := by
  refine (pairwise_eraseDups as).imp fun hlt heq => ?_
  rw [heq] at hlt
  exact Nat.lt_irrefl _ hlt

omit [DecidableEq α] in
/-- Two lists of entries are the same if they have the same names and agree on each of them. -/
private theorem eq_of_map_fst_eq {first second : List (α × β)}
    (hnames : first.map Prod.fst = second.map Prod.fst)
    (hagree : ∀ x ∈ first, ∀ y ∈ second, x.1 = y.1 → x = y) : first = second := by
  induction first generalizing second with
  | nil => exact (List.map_eq_nil_iff.1 hnames.symm).symm
  | cons x first ih =>
    cases second with
    | nil => cases hnames
    | cons y second =>
      obtain ⟨hname, hnames⟩ := List.cons.inj hnames
      rw [hagree x List.mem_cons_self y List.mem_cons_self hname, ih hnames fun x' hx y' hy =>
        hagree x' (List.mem_cons_of_mem _ hx) y' (List.mem_cons_of_mem _ hy)]

end FirstOccurrences

/-! ## Placeholders -/

namespace Placeholder

/-- The placeholder of a name. -/
def ofName (name : String) : String := "$" ++ name

theorem ofName_injective : Function.Injective ofName :=
  fun _ _ h => (String.append_right_inj "$").1 h

theorem toList_ofName (name : String) : (ofName name).toList = '$' :: name.toList := by
  rw [ofName, String.toList_append]
  rfl

theorem utf8ByteSize_ofName (name : String) :
    (ofName name).utf8ByteSize = name.utf8ByteSize + 1 := by
  rw [ofName, String.utf8ByteSize_append, Nat.add_comm]
  rfl

end Placeholder

/-! ## Merged declarations -/

namespace Variable

variable {declared : List Variable} {name : String} {v : Variable}

/-- The last declaration of a name. -/
def last? (declared : List Variable) (name : String) : Option Variable :=
  declared.reverse.find? (·.name == name)

/-- Each name declared once, where it was first declared, with its last value. -/
def declaredOnce (declared : List Variable) : List Variable :=
  (declared.map Variable.name).eraseDups.filterMap (last? declared)

theorem last?_eq_some_iff : last? declared name = some v ↔ v.IsLast declared ∧ v.name = name := by
  rw [last?, List.find?_eq_some_iff_append, beq_iff_eq, and_comm]
  refine and_congr_left fun hname => ⟨?_, ?_⟩
  · rintro ⟨behind, before, hsplit, hbehind⟩
    refine ⟨before.reverse, behind.reverse, ?_, ?_⟩
    · simpa using congrArg List.reverse hsplit
    · simpa [hname] using hbehind
  · rintro ⟨before, behind, rfl, hbehind⟩
    exact ⟨behind.reverse, before.reverse, by simp, by simpa [hname] using hbehind⟩

theorem isLast_of_mem_declaredOnce (h : v ∈ declaredOnce declared) : v.IsLast declared := by
  obtain ⟨name, -, hlast⟩ := List.mem_filterMap.1 h
  exact (last?_eq_some_iff.1 hlast).1

/-- The names are those that are declared, in the order of their first declarations. -/
theorem map_name_declaredOnce (declared : List Variable) :
    (declaredOnce declared).map Variable.name = (declared.map Variable.name).eraseDups := by
  have hlast : ∀ name ∈ (declared.map Variable.name).eraseDups,
      (last? declared name).map Variable.name = some name := by
    intro name hname
    obtain ⟨w, hw, rfl⟩ := List.mem_map.1 (List.mem_eraseDups.1 hname)
    obtain ⟨v, hv, hvw⟩ := exists_isLast hw
    rw [last?_eq_some_iff.2 ⟨hv, hvw⟩, Option.map_some, hvw]
  rw [declaredOnce, List.map_filterMap, List.filterMap_congr hlast, List.filterMap_some]

theorem nodup_declaredOnce (declared : List Variable) :
    ((declaredOnce declared).map Variable.name).Nodup := by
  rw [map_name_declaredOnce]
  exact nodup_eraseDups _

end Variable

namespace Substitution

open Variable

variable {declared : List Variable}

/-- Before it is sorted, a table lists each name where it was first declared. -/
private theorem map_fst_foldl_put (declared : List Variable) :
    (declared.foldl put []).map Prod.fst = (declared.map Variable.name).eraseDups := by
  induction declared using List.reverseRecOn with
  | nil => rfl
  | append_singleton declared last ih =>
    rw [List.foldl_append, List.foldl_cons, List.foldl_nil, map_fst_put, ih, List.map_append,
      List.map_singleton, eraseDups_append_singleton]
    simp only [List.mem_eraseDups]

/-- Before it is sorted, a table has the entries of the merged declarations. -/
theorem foldl_put_eq_map_entry (declared : List Variable) :
    declared.foldl put [] = (declaredOnce declared).map Variable.entry := by
  refine eq_of_map_fst_eq ?_ fun x hx y hy hname => ?_
  · rw [map_fst_foldl_put, ← map_name_declaredOnce, List.map_map]
    rfl
  · obtain ⟨v, hv, rfl⟩ := mem_foldl_put.1 hx
    obtain ⟨w, hw, rfl⟩ := List.mem_map.1 hy
    rw [hv.eq_of_name_eq (isLast_of_mem_declaredOnce hw) hname]

/-- Repeated declarations can be merged. -/
theorem ofVariables_declaredOnce (declared : List Variable) :
    ofVariables (declaredOnce declared) = ofVariables declared := by
  have hentries : (ofVariables (declaredOnce declared)).entries =
      (ofVariables declared).entries := by
    rw [entries_ofVariables (nodup_declaredOnce declared), ← foldl_put_eq_map_entry]
    rfl
  exact congrArg Substitution.mk hentries

/-! ## Sorted tables -/

/-- Longer names come first, and names of one length as they were first declared. -/
theorem pairwise_declared (declared : List Variable) :
    (ofVariables declared).entries.Pairwise fun a b => b.1.utf8ByteSize < a.1.utf8ByteSize ∨
      b.1.utf8ByteSize = a.1.utf8ByteSize ∧
        (declared.map Variable.name).idxOf a.1 < (declared.map Variable.name).idxOf b.1 := by
  refine List.pairwise_iff_forall_sublist.2 fun {a b} hpair => ?_
  have hle := noShorter_iff.1 (List.pairwise_iff_forall_sublist.1 (pairwise_entries declared) hpair)
  rcases Nat.lt_or_eq_of_le hle with hlt | heq
  · exact .inl hlt
  · rw [← ofVariables_declaredOnce] at hpair
    -- Sorting is stable, so the two were declared in this order.
    obtain ⟨v, w, rfl, rfl, hsublist⟩ := exists_declared_pair (nodup_declaredOnce declared) hpair
      (noShorter_iff.2 heq.ge)
    have hnames := hsublist.map Variable.name
    rw [map_name_declaredOnce] at hnames
    exact .inr ⟨heq, List.pairwise_iff_forall_sublist.1 (pairwise_eraseDups _) hnames⟩

/-- A name that begins another does not come before it. -/
private theorem pairwise_not_starts (declared : List Variable) :
    (ofVariables declared).entries.Pairwise fun a b => ¬ a.1.toList <+: b.1.toList := by
  have hdistinct := List.pairwise_map.1 (nodup_entries declared)
  refine (hdistinct.and (pairwise_entries declared)).imp fun {a b} h hpre => ?_
  exact h.1 (eq_of_prefix_of_size_le hpre (noShorter_iff.1 h.2))

/-- A table is a map with a fixed order.  Its placeholders are different, and are those of the
declared names; each stands for the text of the last declaration of its name.  Longer placeholders
come first, and those of one length in the order of their first declarations; so a placeholder that
begins another comes behind it.  The table is also that of the merged declarations, which name each
variable once, where it was first declared, with its last value. -/
theorem table_of_declarations (declared : List Variable) :
    let table := (ofVariables declared).entries
    let placeholders := table.map fun entry => Placeholder.ofName entry.1
    let names := declared.map Variable.name
    placeholders.Nodup ∧
    (∀ text, text ∈ placeholders ↔ ∃ name ∈ names, text = Placeholder.ofName name) ∧
    (∀ entry, entry ∈ table ↔
      ∃ v : Variable, v.IsLast declared ∧ entry = (v.name, v.value.asText)) ∧
    (table.Pairwise fun a b =>
      (Placeholder.ofName b.1).utf8ByteSize < (Placeholder.ofName a.1).utf8ByteSize ∨
      (Placeholder.ofName b.1).utf8ByteSize = (Placeholder.ofName a.1).utf8ByteSize ∧
        names.idxOf a.1 < names.idxOf b.1) ∧
    (placeholders.Pairwise fun a b => ¬ a.toList <+: b.toList) ∧
    ((declaredOnce declared).map Variable.name = names.eraseDups ∧
      (∀ v ∈ declaredOnce declared, v.IsLast declared) ∧
      ofVariables declared = ofVariables (declaredOnce declared)) := by
  intro table placeholders names
  refine ⟨?_, fun text => ?_, fun entry => mem_entries_iff, ?_, ?_, map_name_declaredOnce declared,
    fun v => isLast_of_mem_declaredOnce, (ofVariables_declaredOnce declared).symm⟩
  · have hnames : placeholders = (table.map Prod.fst).map Placeholder.ofName := by
      rw [List.map_map]
      rfl
    rw [hnames]
    exact (nodup_entries declared).map Placeholder.ofName_injective
  · constructor
    · intro htext
      obtain ⟨entry, hentry, rfl⟩ := List.mem_map.1 htext
      obtain ⟨v, hv, rfl⟩ := mem_entries_iff.1 hentry
      exact ⟨v.name, List.mem_map_of_mem hv.mem, rfl⟩
    · rintro ⟨name, hname, rfl⟩
      obtain ⟨w, hw, rfl⟩ := List.mem_map.1 hname
      obtain ⟨v, hv, hvw⟩ := exists_isLast hw
      exact List.mem_map.2 ⟨v.entry, mem_entries_iff.2 ⟨v, hv, rfl⟩, congrArg _ hvw⟩
  · refine (pairwise_declared declared).imp fun h => ?_
    rw [Placeholder.utf8ByteSize_ofName, Placeholder.utf8ByteSize_ofName]
    exact h.imp Nat.succ_lt_succ fun h => ⟨congrArg (· + 1) h.1, h.2⟩
  · refine List.pairwise_map.2 ((pairwise_not_starts declared).imp fun hnot hpre => hnot ?_)
    rw [Placeholder.toList_ofName, Placeholder.toList_ofName, List.cons_prefix_cons] at hpre
    exact hpre.2

end Substitution

end HttpSuite
