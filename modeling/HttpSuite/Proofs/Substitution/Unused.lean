import HttpSuite.Proofs.Substitution

/-!
# Unused variables

A variable is reported as unused if no request mentions it.  Requests are searched for mentions as
they are written, but variables are filled in one after the other, each in the text that the ones
before it left.  So a placeholder that stands in no request may still come into being: the value of
an earlier variable may hold it, or make it together with the text around.  A variable that is
reported has an effect on a request only through such placeholders.

Deleting the declarations of a name deletes its entry from the table and leaves the others in their
order.  If no placeholder of the name is left to fill when its turn comes, the entry does nothing.

## Main definitions

* `Program.without`: a program without the declarations of a name.
* `Substitution.before`: the part of a table that is filled before a name.
* `Request.Gains`: filling the part before a name brings its placeholder into the request.

## Main results

* `Substitution.entries_without`: deleting declarations deletes one entry.
* `Placeholder.Avoids.infix_of_infix_fill`: which values make no placeholder.
* `Request.resolve_eq_iff`: the texts on which a resolved request depends.
* `Program.resolve_without_unused`: when the declarations of an unused variable can be deleted.
-/

namespace HttpSuite

/-! ## Sorting what a filter keeps -/

section Sorting

variable {α : Type} {le : α → α → Bool}

/-- Sorting puts an element in front of those that it need not follow. -/
theorem mergeSort_cons_eq (htrans : ∀ a b c, le a b → le b c → le a c)
    (htotal : ∀ a b, le a b || le b a) (a : α) (as : List α) : (a :: as).mergeSort le =
      (as.mergeSort le).filter (fun b => !le a b) ++ a :: (as.mergeSort le).filter (le a) := by
  obtain ⟨first, second, hsort, hrest, hfirst⟩ := List.mergeSort_cons htrans htotal a as
  have hsorted := List.pairwise_mergeSort htrans htotal (a :: as)
  rw [hsort] at hsorted
  have hsecond : ∀ b ∈ second, le a b = true :=
    (List.pairwise_cons.1 (List.pairwise_append.1 hsorted).2.1).1
  have hbefore : (first ++ second).filter (fun b => !le a b) = first := by
    rw [List.filter_append, List.filter_eq_self.2 hfirst, List.filter_eq_nil_iff.2, List.append_nil]
    exact fun b hb => by simp [hsecond b hb]
  have hbehind : (first ++ second).filter (le a) = second := by
    rw [List.filter_append, List.filter_eq_self.2 hsecond, List.filter_eq_nil_iff.2,
      List.nil_append]
    exact fun b hb => by simpa using hfirst b hb
  rw [hsort, hrest, hbefore, hbehind]

/-- Sorting is stable, so it does not matter whether elements are left out before or after. -/
private theorem filter_mergeSort (htrans : ∀ a b c, le a b → le b c → le a c)
    (htotal : ∀ a b, le a b || le b a) (keep : α → Bool) (as : List α) :
    (as.mergeSort le).filter keep = (as.filter keep).mergeSort le := by
  induction as with
  | nil => simp
  | cons a as ih =>
    by_cases ha : keep a = true
    · have hswap (side : α → Bool) : ((as.mergeSort le).filter side).filter keep =
          ((as.filter keep).mergeSort le).filter side := by
        rw [← ih, List.filter_filter, List.filter_filter]
        simp only [Bool.and_comm]
      rw [List.filter_cons_of_pos ha, mergeSort_cons_eq htrans htotal,
        mergeSort_cons_eq htrans htotal, List.filter_append, List.filter_cons_of_pos ha, hswap,
        hswap]
    · obtain ⟨first, second, hsort, hrest, -⟩ := List.mergeSort_cons htrans htotal a as
      rw [List.filter_cons_of_neg ha, ← ih, hsort, hrest, List.filter_append, List.filter_append,
        List.filter_cons_of_neg ha]

end Sorting

/-! ## Placeholders that come into being -/

namespace Placeholder

variable {name value text : List Char}

theorem mentions_iff : mentions name text = true ↔ '$' :: name <:+: text := by
  induction text with
  | nil => simp [mentions]
  | cons c text ih =>
    rw [mentions, Bool.or_eq_true, ih, starts_eq_true_iff, List.infix_cons_iff]

/-- Filling a name that is not mentioned changes nothing. -/
theorem fill_of_unmentioned (h : ¬ '$' :: name <:+: text) : fill name value text = text := by
  have hfill : fill name value (text ++ []) = text ++ fill name value [] := by
    refine fill_append fun part _ hsuffix hpre => h ?_
    rw [List.append_nil] at hpre
    exact hpre.isInfix.trans hsuffix.isInfix
  rwa [List.append_nil, fill_nil, List.append_nil] at hfill

/-- Filling a name that is mentioned changes the text, unless the name stands for its own
placeholder. -/
theorem fill_eq_self_iff :
    fill name value text = text ↔ ¬ '$' :: name <:+: text ∨ value = '$' :: name := by
  constructor
  · intro h
    by_cases hmention : '$' :: name <:+: text
    · exact .inr (value_of_fill_eq hmention h)
    · exact .inl hmention
  · rintro (h | rfl)
    · exact fill_of_unmentioned h
    · exact fill_self text

/-- A value that avoids a name makes no placeholder of it. -/
theorem Avoids.infix_of_infix_fill {other : List Char} (h : Avoids value other)
    (hmention : '$' :: other <:+: fill name value text) : '$' :: other <:+: text := by
  induction text using fill_induction name with
  | nil => exact hmention
  | placeholder rest ih =>
    rw [fill_placeholder] at hmention
    -- The placeholder cannot begin in the value, so it stands behind it.
    have hbehind : '$' :: other <:+: fill name value rest := by
      rcases List.infix_append_iff.1 hmention with
        hvalue | hrest | ⟨part, more, hsplit, hpart, hmore⟩
      · obtain ⟨part, hpre, hpart⟩ := List.infix_iff_prefix_suffix.1 hvalue
        have hne : part ≠ [] := fun hnil => by simp [hnil] at hpre
        exact absurd (.inr hpre) (h.2 part ((List.mem_tails _ _).2 hpart) hne)
      · exact hrest
      · cases part with
        | nil => exact hsplit ▸ hmore.isInfix
        | cons c part =>
          have hpre : c :: part <+: '$' :: other := hsplit ▸ List.prefix_append _ _
          exact absurd (.inl hpre) (h.2 _ ((List.mem_tails _ _).2 hpart) (List.cons_ne_nil _ _))
    exact (ih hbehind).trans (List.suffix_append ('$' :: name) rest).isInfix
  | cons c rest hc ih =>
    rw [Placeholder.fill_cons hc, List.infix_cons_iff, List.cons_prefix_cons] at hmention
    rw [List.infix_cons_iff, List.cons_prefix_cons]
    rcases hmention with ⟨hsign, hpre⟩ | hrest
    · exact .inl ⟨hsign, prefix_of_prefix_fill h List.suffix_rfl hpre⟩
    · exact .inr (ih hrest)

end Placeholder

/-! ## Tables without a name -/

namespace Substitution

variable {entries : List (String × String)} {declared : List Variable} {name : String}

/-- A declaration adds its name to those of a table unless it is there. -/
theorem map_fst_put (entries : List (String × String)) (v : Variable) :
    (put entries v).map Prod.fst = if v.name ∈ entries.map Prod.fst then entries.map Prod.fst
      else entries.map Prod.fst ++ [v.name] := by
  have hany : (entries.any fun entry => entry.1 == v.name) = true ↔
      v.name ∈ entries.map Prod.fst := by
    rw [List.any_eq_true, List.mem_map]
    simp only [beq_iff_eq]
  rw [put]
  by_cases hmem : v.name ∈ entries.map Prod.fst
  · rw [if_pos (hany.2 hmem), if_pos hmem, List.map_map]
    refine List.map_congr_left fun entry _ => ?_
    show (if entry.1 = v.name then _ else entry).1 = entry.1
    split <;> rfl
  · rw [if_neg (mt hany.1 hmem), if_neg hmem, List.map_append, List.map_singleton]

private theorem nodup_put (h : (entries.map Prod.fst).Nodup) (v : Variable) :
    ((put entries v).map Prod.fst).Nodup := by
  rw [map_fst_put]
  split_ifs with hmem
  · exact h
  · exact List.nodup_append.2 ⟨h, List.nodup_singleton _, fun first hfirst second hsecond heq =>
      hmem ((List.mem_singleton.1 hsecond) ▸ heq ▸ hfirst)⟩

private theorem nodup_foldl_put (h : (entries.map Prod.fst).Nodup) :
    ((declared.foldl put entries).map Prod.fst).Nodup := by
  induction declared generalizing entries with
  | nil => exact h
  | cons v declared ih => exact ih (nodup_put h v)

/-- A table has one entry for a name. -/
theorem nodup_entries (declared : List Variable) :
    ((ofVariables declared).entries.map Prod.fst).Nodup :=
  ((List.mergeSort_perm _ _).map Prod.fst).nodup_iff.2 (nodup_foldl_put List.nodup_nil)

/-- A new value leaves the names of a table as they are. -/
theorem filter_map_value (entries : List (String × String)) (name : String) (v : Variable) :
    (entries.map fun entry => if entry.1 = v.name then (entry.1, v.value.asText) else entry).filter
        (fun entry => entry.1 ≠ name) =
      (entries.filter fun entry => entry.1 ≠ name).map fun entry =>
        if entry.1 = v.name then (entry.1, v.value.asText) else entry := by
  rw [List.filter_map]
  refine congrArg (List.map _) (List.filter_congr fun entry _ => ?_)
  simp only [Function.comp_apply]
  split <;> rfl

/-- A declaration of the name changes no entry of another. -/
private theorem filter_put_of_eq {v : Variable} (h : v.name = name) :
    (put entries v).filter (fun entry => entry.1 ≠ name) =
      entries.filter fun entry => entry.1 ≠ name := by
  rw [put]
  split
  · rw [filter_map_value]
    refine (List.map_congr_left fun entry hmem => ?_).trans (List.map_id _)
    have hne : entry.1 ≠ name := by simpa using (List.mem_filter.1 hmem).2
    exact if_neg fun heq => hne (heq.trans h)
  · rw [List.filter_append, List.filter_singleton]
    simp [h]

/-- A declaration of another name is made among the entries that are left. -/
private theorem filter_put_of_ne {v : Variable} (h : v.name ≠ name) :
    (put entries v).filter (fun entry => entry.1 ≠ name) =
      put (entries.filter fun entry => entry.1 ≠ name) v := by
  have hany : ((entries.filter fun entry => entry.1 ≠ name).any fun entry => entry.1 == v.name) =
      entries.any fun entry => entry.1 == v.name := by
    rw [Bool.eq_iff_iff, List.any_eq_true, List.any_eq_true]
    constructor
    · rintro ⟨entry, hmem, heq⟩
      exact ⟨entry, (List.mem_filter.1 hmem).1, heq⟩
    · rintro ⟨entry, hmem, heq⟩
      have hne : entry.1 ≠ name := beq_iff_eq.1 heq ▸ h
      exact ⟨entry, List.mem_filter.2 ⟨hmem, by simpa using hne⟩, heq⟩
  rw [put, put, hany]
  split
  · exact filter_map_value entries name v
  · rw [List.filter_append, List.filter_singleton]
    simp [h]

private theorem filter_foldl_put :
    (declared.foldl put entries).filter (fun entry => entry.1 ≠ name) =
      (declared.filter fun v => v.name ≠ name).foldl put
        (entries.filter fun entry => entry.1 ≠ name) := by
  induction declared generalizing entries with
  | nil => rfl
  | cons v declared ih =>
    rw [List.foldl_cons, ih]
    by_cases h : v.name = name
    · rw [filter_put_of_eq h, List.filter_cons_of_neg (by simpa using h)]
    · rw [filter_put_of_ne h, List.filter_cons_of_pos (by simpa using h), List.foldl_cons]

/-- Deleting the declarations of a name deletes its entry. -/
theorem entries_without (declared : List Variable) (name : String) :
    (ofVariables (declared.filter fun v => v.name ≠ name)).entries =
      (ofVariables declared).entries.filter fun entry => entry.1 ≠ name := by
  have hsort := filter_mergeSort noShorter_trans noShorter_total (fun entry => entry.1 ≠ name)
    (declared.foldl put [])
  rw [filter_foldl_put] at hsort
  exact hsort.symm

/-- The part of a table that is filled before a name. -/
def before (s : Substitution) (name : String) : Substitution where
  entries := s.entries.takeWhile fun entry => entry.1 ≠ name

/-- The entry of a declared name stands between the part before it and the part behind it, and only
these are left without its declarations. -/
private theorem exists_entries_eq (h : ∃ v ∈ declared, v.name = name) : ∃ value after,
    (ofVariables declared).entries =
      ((ofVariables declared).before name).entries ++ (name, value) :: after ∧
    (ofVariables (declared.filter fun v => v.name ≠ name)).entries =
      ((ofVariables declared).before name).entries ++ after := by
  obtain ⟨v, hv, rfl⟩ := h
  obtain ⟨w, hw, hname⟩ := Variable.exists_isLast hv
  have hentry : (v.name, w.value.asText) ∈ (ofVariables declared).entries :=
    mem_entries_iff.2 ⟨w, hw, by rw [Variable.entry, hname]⟩
  obtain ⟨first, after, hsplit⟩ := List.append_of_mem hentry
  have hnodup := nodup_entries declared
  rw [hsplit, List.map_append, List.map_cons, List.nodup_middle, List.nodup_cons,
    ← List.map_append, List.mem_map] at hnodup
  have hothers : ∀ entry ∈ first ++ after, decide (entry.1 ≠ v.name) = true := fun entry hmem =>
    decide_eq_true fun heq => hnodup.1 ⟨entry, hmem, heq⟩
  rw [List.forall_mem_append] at hothers
  have hbefore : ((ofVariables declared).before v.name).entries = first := by
    rw [before, hsplit, List.takeWhile_append_of_pos hothers.1, List.takeWhile_cons_of_neg,
      List.append_nil]
    simp
  refine ⟨_, after, by rw [hbefore, hsplit], ?_⟩
  rw [hbefore, entries_without, hsplit, List.filter_append, List.filter_cons_of_neg (by simp),
    List.filter_eq_self.2 hothers.1, List.filter_eq_self.2 hothers.2]

/-- With its entry, a name is filled in the text that the entries before it left; without it, that
text goes on to the entries behind. -/
theorem exists_applyChars_eq (h : ∃ v ∈ declared, v.name = name) : ∃ value after,
    (ofVariables declared).entries =
      ((ofVariables declared).before name).entries ++ (name, value) :: after ∧
    ∀ text, (ofVariables declared).applyChars text = applyChars ⟨after⟩ (Placeholder.fill
        name.toList value.toList (((ofVariables declared).before name).applyChars text)) ∧
      (ofVariables (declared.filter fun v => v.name ≠ name)).applyChars text =
        applyChars ⟨after⟩ (((ofVariables declared).before name).applyChars text) := by
  obtain ⟨value, after, htable, hrest⟩ := exists_entries_eq h
  refine ⟨value, after, htable, fun text => ⟨?_, ?_⟩⟩
  · rw [applyChars, htable, List.foldl_append]
    rfl
  · rw [applyChars, hrest, List.foldl_append]
    rfl

/-- Values that avoid a name make no placeholder of it. -/
private theorem not_infix_applyChars {s : Substitution} {other : List Char}
    (h : ∀ entry ∈ s.entries, Placeholder.Avoids entry.2.toList other) {text : List Char}
    (htext : ¬ '$' :: other <:+: text) : ¬ '$' :: other <:+: s.applyChars text := by
  obtain ⟨entries⟩ := s
  induction entries generalizing text with
  | nil => exact htext
  | cons entry entries ih =>
    rw [List.forall_mem_cons] at h
    exact ih (fun hmention => htext (h.1.infix_of_infix_fill hmention)) h.2

end Substitution

/-! ## Requests -/

theorem Substitution.url_eq_iff {s s' : Substitution} {u : String} :
    s.url u = s'.url u ↔ s.apply u = s'.apply u := by
  refine ⟨fun h => ?_, Substitution.url_eq⟩
  rw [Substitution.url, Substitution.url] at h
  split at h <;> split at h
  · exact Text.escape_injective (Resolved.Url.relative.inj h)
  · cases h
  · cases h
  · exact Text.escape_injective (Resolved.Url.absolute.inj h)

namespace Request

variable {s s' : Substitution} {r : Request} {name : String}

/-- The texts of a request in which placeholders are filled. -/
def filledTexts (r : Request) : List String := r.url :: r.sentBody?.toList

/-- A body that is sent belongs to a method that sends one, and is declared. -/
theorem of_sentBody?_eq_some {content : String} (h : r.sentBody? = some content) :
    r.method.carriesBody = true ∧ r.body = some content := by
  unfold sentBody? at h
  split at h
  · next hmethod => exact ⟨by rw [hmethod]; rfl, h⟩
  · next hmethod => exact ⟨by rw [hmethod]; rfl, h⟩
  · cases h
  · cases h

theorem body_eq_iff : s.body r.method r.body = s'.body r.method r.body ↔
    ∀ content, r.sentBody? = some content → s.apply content = s'.apply content := by
  rw [Substitution.body_eq, Substitution.body_eq]
  cases hsent : r.sentBody? with
  | none => simp
  | some content => simp [(of_sentBody?_eq_some hsent).1, Text.escape_injective.eq_iff]

/-- A resolved request depends on what becomes of its filled texts, and shows it. -/
theorem resolve_eq_iff :
    r.resolve s = r.resolve s' ↔ ∀ text ∈ r.filledTexts, s.apply text = s'.apply text := by
  have hbody : (∀ text ∈ r.sentBody?.toList, s.apply text = s'.apply text) ↔
      s.body r.method r.body = s'.body r.method r.body := by
    rw [body_eq_iff]
    simp only [Option.mem_toList]
  rw [filledTexts, List.forall_mem_cons, hbody, ← Substitution.url_eq_iff]
  simp [resolve]

/-- Filling the variables before a name brings a placeholder of it into the request. -/
def Gains (s : Substitution) (name : String) (r : Request) : Prop :=
  ∃ text ∈ r.filledTexts, '$' :: name.toList <:+: (s.before name).applyChars text.toList

/-- A request mentions a name if one of its filled texts does. -/
private theorem not_infix_of_mentions_eq_false (h : r.mentions name = false) :
    ∀ text ∈ r.filledTexts, ¬ '$' :: name.toList <:+: text.toList := by
  rw [mentions, Bool.or_eq_false_iff] at h
  intro text hmem hmention
  have hmentions := Placeholder.mentions_iff.2 hmention
  rcases List.mem_cons.1 hmem with rfl | hsent
  · rw [h.1] at hmentions
    cases hmentions
  · rw [(of_sentBody?_eq_some (Option.mem_toList.1 hsent)).2, Option.any_some, hmentions] at h
    cases h.2

/-- A request that mentions no placeholder of a name gains none by values that avoid it. -/
private theorem not_gains_of_avoids (hmentions : r.mentions name = false)
    (h : ∀ entry ∈ (s.before name).entries, Placeholder.Avoids entry.2.toList name.toList) :
    ¬ r.Gains s name := by
  rintro ⟨text, htext, hmention⟩
  exact Substitution.not_infix_applyChars h (not_infix_of_mentions_eq_false hmentions text htext)
    hmention

variable {declared : List Variable}

/-- A request that gains no placeholder of a name is resolved alike without its declarations. -/
private theorem resolve_without_of_not_gains (hdeclared : ∃ v ∈ declared, v.name = name)
    (h : ¬ r.Gains (.ofVariables declared) name) :
    r.resolve (.ofVariables (declared.filter fun v => v.name ≠ name)) =
      r.resolve (.ofVariables declared) := by
  obtain ⟨value, after, -, htexts⟩ := Substitution.exists_applyChars_eq hdeclared
  refine resolve_eq_iff.2 fun text htext => congrArg String.ofList ?_
  have hnone : ¬ '$' :: name.toList <:+:
      ((Substitution.ofVariables declared).before name).applyChars text.toList :=
    fun hmention => h ⟨text, htext, hmention⟩
  rw [(htexts text.toList).1, (htexts text.toList).2, Placeholder.fill_of_unmentioned hnone]

/-- A request that gains a placeholder of the name that is filled last is resolved differently. -/
private theorem resolve_without_of_gains {value : String}
    (hdeclared : ∃ v ∈ declared, v.name = name)
    (hlast : (Substitution.ofVariables declared).entries =
      ((Substitution.ofVariables declared).before name).entries ++ [(name, value)])
    (hvalue : value.toList ≠ '$' :: name.toList) (h : r.Gains (.ofVariables declared) name) :
    r.resolve (.ofVariables (declared.filter fun v => v.name ≠ name)) ≠
      r.resolve (.ofVariables declared) := by
  obtain ⟨found, after, hentries, htexts⟩ := Substitution.exists_applyChars_eq hdeclared
  rw [hlast, List.append_cancel_left_eq, List.cons.injEq, Prod.mk.injEq] at hentries
  obtain ⟨⟨-, rfl⟩, rfl⟩ := hentries
  obtain ⟨text, htext, hmention⟩ := h
  intro hresolve
  have hsame := String.ofList_inj.1 (resolve_eq_iff.1 hresolve text htext)
  rw [(htexts text.toList).1, (htexts text.toList).2] at hsame
  rcases Placeholder.fill_eq_self_iff.1 hsame.symm with hnone | hself
  · exact hnone hmention
  · exact hvalue hself

end Request

namespace Program

variable {p : Program} {name : String}

/-- The program without the declarations of a name. -/
def without (p : Program) (name : String) : Program :=
  { p with declarations := p.declarations.filter fun v => v.name ≠ name }

theorem mem_unusedVariables_iff : .unusedVariable name ∈ p.unusedVariables ↔
    (∃ v ∈ p.declarations, v.name = name) ∧ ∀ r ∈ p.requests, r.mentions name = false := by
  simp only [unusedVariables, List.mem_map, List.mem_filter, Bool.not_eq_true', List.any_eq_false,
    Diagnostic.unusedVariable.injEq, Bool.not_eq_true]
  constructor
  · rintro ⟨v, ⟨hv, hnone⟩, rfl⟩
    exact ⟨⟨v, hv, rfl⟩, hnone⟩
  · rintro ⟨⟨v, hv, rfl⟩, hnone⟩
    exact ⟨v, ⟨hv, hnone⟩, rfl⟩

/-- The declarations of a variable that is reported as unused can be deleted without an effect on a
request, provided that filling the variables before it brings no placeholder of it into the request.
No request gains one if the values of these variables cannot make one. Where no variable comes
behind it, a request that gains one does change, unless the variable stands for its own
placeholder. -/
theorem resolve_without_unused (p : Program) {name : String}
    (h : .unusedVariable name ∈ p.unusedVariables) :
    let table := Substitution.ofVariables p.declarations
    let rest := Substitution.ofVariables (p.without name).declarations
    (∀ r ∈ p.requests, ¬ r.Gains table name → r.resolve rest = r.resolve table) ∧
    ((∀ entry ∈ (table.before name).entries,
        Placeholder.Avoids entry.2.toList name.toList) →
      ∀ r ∈ p.requests, ¬ r.Gains table name) ∧
    ∀ value, table.entries = (table.before name).entries ++ [(name, value)] →
      value.toList ≠ '$' :: name.toList →
      ∀ r ∈ p.requests, r.Gains table name → r.resolve rest ≠ r.resolve table := by
  intro table rest
  obtain ⟨hdeclared, hunmentioned⟩ := mem_unusedVariables_iff.1 h
  exact ⟨fun r _ => Request.resolve_without_of_not_gains hdeclared,
    fun havoids r hr => Request.not_gains_of_avoids (hunmentioned r hr) havoids,
    fun value hlast hvalue r _ => Request.resolve_without_of_gains hdeclared hlast hvalue⟩

/-- A program of which two variables are reported as unused: one that the value of an earlier
variable mentions, and one that has no effect on its request. -/
def hiddenMention : Program where
  declarations := [⟨"a", .text "$b"⟩, ⟨"c", .integer 7⟩, ⟨"b", .text "x"⟩]
  tests := [⟨"t",
    [ .request { method := .get, url := "/$a" }
    , .assertion (.statusEquals 200)
    , .assertion (.bodyContains "$c") ]⟩]

theorem wellFormed_hiddenMention : hiddenMention.WellFormed := by decide

theorem requests_hiddenMention :
    hiddenMention.requests = [{ method := .get, url := "/$a" }] :=
  rfl

theorem unusedVariables_hiddenMention :
    hiddenMention.unusedVariables = [.unusedVariable "c", .unusedVariable "b"] := by
  cbv

theorem entries_hiddenMention :
    (Substitution.ofVariables hiddenMention.declarations).entries =
      [("a", "$b"), ("c", "7"), ("b", "x")] := by
  cbv

theorem resolve_without_unused_hiddenMention :
    let table := Substitution.ofVariables hiddenMention.declarations
    hiddenMention.unusedVariables = [.unusedVariable "c", .unusedVariable "b"] ∧
    hiddenMention.requests = [{ method := .get, url := "/$a" }] ∧
    (∀ r ∈ hiddenMention.requests,
      r.resolve (.ofVariables (hiddenMention.without "c").declarations) = r.resolve table) ∧
    ∀ r ∈ hiddenMention.requests,
      r.resolve (.ofVariables (hiddenMention.without "b").declarations) ≠ r.resolve table := by
  intro table
  have hbefore : table.before "c" = ⟨[("a", "$b")]⟩ := by
    rw [Substitution.before, entries_hiddenMention]
    rfl
  have hlast : table.before "b" = ⟨[("a", "$b"), ("c", "7")]⟩ := by
    rw [Substitution.before, entries_hiddenMention]
    rfl
  have hreported : .unusedVariable "c" ∈ hiddenMention.unusedVariables ∧
      .unusedVariable "b" ∈ hiddenMention.unusedVariables := by
    simp [unusedVariables_hiddenMention]
  obtain ⟨hsame, hnone, -⟩ := hiddenMention.resolve_without_unused hreported.1
  obtain ⟨-, -, hchange⟩ := hiddenMention.resolve_without_unused hreported.2
  refine ⟨unusedVariables_hiddenMention, requests_hiddenMention,
    fun r hr => hsame r hr (hnone ?_ r hr), fun r hr => hchange "x" ?_ (by decide) r hr ?_⟩
  · rw [hbefore]
    decide
  · rw [hlast, entries_hiddenMention]
    rfl
  · rw [requests_hiddenMention, List.mem_singleton] at hr
    refine ⟨"/$a", hr ▸ List.mem_cons_self, ?_⟩
    rw [hlast]
    decide

/-- A variable that is reported as unused, and a request on which it has an effect. -/
theorem exists_unused_with_effect :
    parse hiddenMention.print = .ok hiddenMention ∧
      .unusedVariable "b" ∈ hiddenMention.unusedVariables ∧
      ∃ r ∈ hiddenMention.requests,
        r.resolve (.ofVariables (hiddenMention.without "b").declarations) ≠
          r.resolve (.ofVariables hiddenMention.declarations) := by
  refine ⟨parse_print wellFormed_hiddenMention, ?_, { method := .get, url := "/$a" }, ?_, ?_⟩
  · simp [unusedVariables_hiddenMention]
  · simp [requests_hiddenMention]
  · intro hresolve
    have hurl : (Substitution.ofVariables (hiddenMention.without "b").declarations).apply "/$a" =
        (Substitution.ofVariables hiddenMention.declarations).apply "/$a" :=
      Substitution.url_eq_iff.1 (congrArg Resolved.Request.url hresolve)
    have hwithout :
        (Substitution.ofVariables (hiddenMention.without "b").declarations).apply "/$a" =
          "/$b" := by
      cbv
    have hwith : (Substitution.ofVariables hiddenMention.declarations).apply "/$a" = "/x" := by
      cbv
    rw [hwithout, hwith] at hurl
    exact absurd hurl (by decide)

end Program

end HttpSuite
