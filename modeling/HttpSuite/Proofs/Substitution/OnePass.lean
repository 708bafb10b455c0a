import HttpSuite.Proofs.Substitution
import Mathlib.Data.List.MinMax

/-!
# Filling in one pass

A table fills the names one after the other, each in the whole text that the names before it have
left.  A reader of a program thinks of one pass: at each dollar sign the longest declared name that
follows is replaced by its value, and what has been written is not looked at again.

The two differ where placeholders run into each other.  A value may start a placeholder, or end one
that was started before it: where `a` stands for `b`, the text `$$a` becomes `$b`, and a table that
has `b` behind `a` fills that too.  They agree if no value has a dollar sign and each dollar sign of
the text is parted from the next by a character that no name has.  Then the text falls into pieces
that are filled each on its own, a piece being a dollar sign and what follows up to the next; and in
a piece the table fills only the first of its names that fits, which is the longest.

## Main definitions

* `Placeholder.Spaced`: the dollar signs of a text are parted.
* `Placeholder.Seam`: no placeholder goes from a piece of text into the rest.
* `Variable.meant?`: the longest declared name that a text starts with, in its last declaration.
* `Substitution.onePass`: a text filled in one pass.

## Main results

* `Substitution.applyChars_append`: pieces are filled each on its own.
* `Substitution.find?_entries`: the first name of the table that fits is the longest.
* `Substitution.apply_eq_onePass`: filling name by name is filling in one pass.
-/

namespace HttpSuite

open Text

namespace Placeholder

variable {name value text rest : List Char}

/-! ## Texts with parted dollar signs -/

/-- Between a dollar sign and the next there is a character that no name has. -/
def Spaced (text : List Char) : Prop :=
  ∀ before between after, text = before ++ '$' :: (between ++ '$' :: after) → '$' ∉ between →
    ∃ c ∈ between, isWordPart c = false

theorem spaced_nil : Spaced [] := by
  intro before between after hsplit
  simp at hsplit

theorem Spaced.of_append (first : List Char) (h : Spaced (first ++ rest)) : Spaced rest := by
  intro before between after hsplit
  exact h (first ++ before) between after (by rw [hsplit, List.append_assoc])

theorem takeWhile_sign {between : List Char} (h : '$' ∉ between) (after : List Char) :
    (between ++ '$' :: after).takeWhile (· != '$') = between := by
  have hne : ∀ c ∈ between, (c != '$') = true := fun c hc =>
    bne_iff_ne.2 (ne_of_mem_of_not_mem hc h)
  rw [List.takeWhile_append_of_pos hne]
  simp

theorem spaced_cons_iff {c : Char} : Spaced (c :: text) ↔
    Spaced text ∧
      (c = '$' → '$' ∈ text → (text.takeWhile (· != '$')).all isWordPart = false) := by
  constructor
  · intro h
    refine ⟨Spaced.of_append [c] h, ?_⟩
    rintro rfl hmem
    obtain ⟨between, after, rfl, hbetween⟩ := List.eq_append_cons_of_mem hmem
    rw [takeWhile_sign hbetween, List.all_eq_false]
    simpa using h [] between after rfl hbetween
  · rintro ⟨htext, hsign⟩ before between after hsplit hbetween
    cases before with
    | cons b before => exact htext before between after (List.cons.inj hsplit).2 hbetween
    | nil =>
      obtain ⟨rfl, rfl⟩ := List.cons.inj hsplit
      have hall := hsign rfl (List.mem_append_right _ List.mem_cons_self)
      rw [takeWhile_sign hbetween, List.all_eq_false] at hall
      simpa using hall

instance Spaced.decidable : (text : List Char) → Decidable (Spaced text)
  | [] => .isTrue spaced_nil
  | _ :: text =>
    have := Spaced.decidable text
    decidable_of_iff _ spaced_cons_iff.symm

/-! ## Seams -/

/-- No placeholder goes from the first text into the rest: the first has no dollar sign, or it
begins with the only one and has a character that no name has, if there is a rest. -/
inductive Seam : List Char → List Char → Prop
  | plain {first rest : List Char} (hplain : '$' ∉ first) : Seam first rest
  | sign {text rest : List Char} (hplain : '$' ∉ text)
      (hend : rest = [] ∨ ∃ c ∈ text, isWordPart c = false) : Seam ('$' :: text) rest

/-- A text that falls into pieces with seams between them. -/
inductive Pieced : List Char → Prop
  | nil : Pieced []
  | piece {first rest : List Char} (hseam : Seam first rest) (hrest : Pieced rest) :
      Pieced (first ++ rest)

/-- A text with parted dollar signs falls into pieces: a dollar sign with what follows up to the
next is one, and so is each character before the first. -/
private theorem Spaced.pieced (h : Spaced text) : Pieced text := by
  induction hlength : text.length using Nat.strong_induction_on generalizing text with
  | _ n ih =>
    cases text with
    | nil => exact .nil
    | cons c text =>
      by_cases hc : c = '$'
      · subst hc
        by_cases hmem : '$' ∈ text
        · obtain ⟨between, after, rfl, hbetween⟩ := List.eq_append_cons_of_mem hmem
          have hrest : Spaced ('$' :: after) := Spaced.of_append ('$' :: between) h
          have hseam : Seam ('$' :: between) ('$' :: after) :=
            .sign hbetween (.inr (h [] between after rfl hbetween))
          refine .piece hseam (ih _ ?_ hrest rfl)
          simp only [← hlength, List.length_cons, List.length_append]
          omega
        · have hseam : Seam ('$' :: text) [] := .sign hmem (.inl rfl)
          rw [← List.append_nil ('$' :: text)]
          exact .piece hseam .nil
      · have hseam : Seam [c] text := .plain (by simpa using Ne.symm hc)
        refine .piece hseam (ih _ ?_ (Spaced.of_append [c] h) rfl)
        rw [← hlength, List.length_cons]
        exact Nat.lt_succ_self _

/-- A name does not go across a seam. -/
theorem prefix_append_iff (hname : ∀ c ∈ name, isWordPart c = true)
    (hend : rest = [] ∨ ∃ c ∈ text, isWordPart c = false) :
    name <+: text ++ rest ↔ name <+: text := by
  refine ⟨fun hpre => ?_, fun hpre => hpre.trans (List.prefix_append text rest)⟩
  rcases hend with rfl | ⟨c, hc, hstop⟩
  · rwa [List.append_nil] at hpre
  · refine (Meets.of_append hpre).resolve_right fun hlonger => ?_
    have hpart := hname c (hlonger.subset hc)
    rw [hstop] at hpart
    exact Bool.noConfusion hpart

theorem not_mem_append_drop (hvalue : '$' ∉ value) (hplain : '$' ∉ text) (n : Nat) :
    '$' ∉ value ++ text.drop n := by
  rw [List.mem_append, not_or]
  exact ⟨hvalue, fun hmem => hplain (List.mem_of_mem_drop hmem)⟩

/-- The piece behind a dollar sign loses the name if it starts with it, and then the dollar sign
becomes the value. -/
theorem fill_sign (hname : ∀ c ∈ name, isWordPart c = true) (hplain : '$' ∉ text)
    (hend : rest = [] ∨ ∃ c ∈ text, isWordPart c = false) :
    fill name value ('$' :: (text ++ rest)) =
      (if name <+: text then value ++ text.drop name.length else '$' :: text) ++
        fill name value rest := by
  split_ifs with hpre
  · obtain ⟨behind, rfl⟩ := hpre
    have hbehind : '$' ∉ behind := fun hmem => hplain (List.mem_append_right _ hmem)
    rw [List.append_assoc, fill_placeholder, fill_plain_append hbehind, List.drop_left,
      List.append_assoc]
  · have hnot : ¬ '$' :: name <+: '$' :: (text ++ rest) := by
      rw [List.cons_prefix_cons, prefix_append_iff hname hend]
      exact fun h => hpre h.2
    rw [fill_cons hnot, fill_plain_append hplain, List.cons_append]

/-- The same without a rest. -/
theorem fill_sign_nil (hname : ∀ c ∈ name, isWordPart c = true) (hplain : '$' ∉ text) :
    fill name value ('$' :: text) =
      if name <+: text then value ++ text.drop name.length else '$' :: text := by
  have hfill : fill name value ('$' :: (text ++ [])) = _ := fill_sign hname hplain (.inl rfl)
  rwa [List.append_nil, fill_nil, List.append_nil] at hfill

theorem Seam.fill_append {first : List Char} (h : Seam first rest)
    (hname : ∀ c ∈ name, isWordPart c = true) :
    fill name value (first ++ rest) = fill name value first ++ fill name value rest := by
  cases h with
  | plain hplain => rw [fill_plain_append hplain, fill_plain hplain]
  | sign hplain hend => rw [List.cons_append, fill_sign hname hplain hend, fill_sign_nil hname hplain]

/-- Filling with a value that has no dollar sign keeps a seam. -/
theorem Seam.fill {first : List Char} (h : Seam first rest)
    (hname : ∀ c ∈ name, isWordPart c = true) (hvalue : '$' ∉ value) :
    Seam (fill name value first) (fill name value rest) := by
  cases h with
  | plain hplain =>
    rw [fill_plain hplain]
    exact .plain hplain
  | sign hplain hend =>
    rw [fill_sign_nil hname hplain]
    split_ifs
    · exact .plain (not_mem_append_drop hvalue hplain _)
    · exact .sign hplain (hend.imp_left fun hnil => by rw [hnil, fill_nil])

end Placeholder

open Placeholder (Spaced Seam Pieced)

namespace Substitution

variable {s : Substitution} {text : List Char}

/-! ## Filling piece by piece -/

/-- The names of the table are made of the characters of words, and its values have no dollar
sign. -/
structure Plain (s : Substitution) : Prop where
  name : ∀ entry ∈ s.entries, ∀ c ∈ entry.1.toList, isWordPart c = true
  value : ∀ entry ∈ s.entries, '$' ∉ entry.2.toList

theorem applyChars_cons (entry : String × String) (entries : List (String × String)) :
    applyChars ⟨entry :: entries⟩ text =
      applyChars ⟨entries⟩ (Placeholder.fill entry.1.toList entry.2.toList text) := rfl

theorem Plain.of_cons {entry : String × String} {entries : List (String × String)}
    (h : Plain ⟨entry :: entries⟩) : Plain ⟨entries⟩ where
  name := (List.forall_mem_cons.1 h.name).2
  value := (List.forall_mem_cons.1 h.value).2

theorem applyChars_plain (h : '$' ∉ text) : s.applyChars text = text := by
  obtain ⟨entries⟩ := s
  induction entries with
  | nil => rfl
  | cons entry entries ih => rw [applyChars_cons, Placeholder.fill_plain h, ih]

/-- Two texts that meet in a seam are filled each on its own, and still meet in one. -/
theorem applyChars_append {first rest : List Char} (h : s.Plain) (hseam : Seam first rest) :
    s.applyChars (first ++ rest) = s.applyChars first ++ s.applyChars rest ∧
      Seam (s.applyChars first) (s.applyChars rest) := by
  obtain ⟨entries⟩ := s
  induction entries generalizing first rest with
  | nil => exact ⟨rfl, hseam⟩
  | cons entry entries ih =>
    have hname := h.name entry List.mem_cons_self
    have hvalue := h.value entry List.mem_cons_self
    rw [applyChars_cons, applyChars_cons, applyChars_cons, hseam.fill_append hname]
    exact ih (hseam.fill hname hvalue) h.of_cons

/-- Behind a single dollar sign, the first name of the table that fits is filled and no other. -/
theorem applyChars_sign (h : s.Plain) (hplain : '$' ∉ text) :
    s.applyChars ('$' :: text) =
      match s.entries.find? fun entry => entry.1.toList.isPrefixOf text with
      | some entry => entry.2.toList ++ text.drop entry.1.length
      | none => '$' :: text := by
  obtain ⟨entries⟩ := s
  induction entries with
  | nil => rfl
  | cons entry entries ih =>
    have hname := h.name entry List.mem_cons_self
    rw [applyChars_cons, Placeholder.fill_sign_nil hname hplain, List.find?_cons]
    split_ifs with hpre
    · have hvalue := h.value entry List.mem_cons_self
      rw [applyChars_plain (Placeholder.not_mem_append_drop hvalue hplain _),
        List.isPrefixOf_iff_prefix.2 hpre, String.length_toList]
    · rw [Bool.eq_false_iff.2 (mt List.isPrefixOf_iff_prefix.1 hpre)]
      exact ih h.of_cons

/-- A piece that has been filled holds nothing to fill. -/
private theorem fill_applyChars_piece {first rest : List Char} (h : s.Plain)
    (hseam : Seam first rest) {entry : String × String} (hmem : entry ∈ s.entries) :
    Placeholder.fill entry.1.toList entry.2.toList (s.applyChars first) = s.applyChars first := by
  cases hseam with
  | plain hplain => rw [applyChars_plain hplain, Placeholder.fill_plain hplain]
  | @sign text rest hplain hend =>
    rw [applyChars_sign h hplain]
    cases hfind : s.entries.find? fun entry => entry.1.toList.isPrefixOf text with
    | none =>
      have hnot : ¬ entry.1.toList <+: text := fun hpre =>
        List.find?_eq_none.1 hfind entry hmem (List.isPrefixOf_iff_prefix.2 hpre)
      rw [Placeholder.fill_sign_nil (h.name entry hmem) hplain, if_neg hnot]
    | some found =>
      have hvalue := h.value found (List.mem_of_find?_eq_some hfind)
      exact Placeholder.fill_plain (Placeholder.not_mem_append_drop hvalue hplain _)

theorem fill_applyChars (h : s.Plain) (htext : Pieced text) {entry : String × String}
    (hmem : entry ∈ s.entries) :
    Placeholder.fill entry.1.toList entry.2.toList (s.applyChars text) = s.applyChars text := by
  induction htext with
  | nil => rw [applyChars_plain List.not_mem_nil, Placeholder.fill_nil]
  | piece hseam _ ih =>
    obtain ⟨happend, hseam'⟩ := applyChars_append h hseam
    rw [happend, hseam'.fill_append (h.name entry hmem), fill_applyChars_piece h hseam hmem, ih]

private theorem applyChars_eq_self
    (h : ∀ entry ∈ s.entries, Placeholder.fill entry.1.toList entry.2.toList text = text) :
    s.applyChars text = text := by
  obtain ⟨entries⟩ := s
  induction entries with
  | nil => rfl
  | cons entry entries ih =>
    rw [List.forall_mem_cons] at h
    rw [applyChars_cons, h.1, ih h.2]

theorem not_placeholder_applyChars (h : s.Plain) (htext : Pieced text)
    {entry : String × String} (hmem : entry ∈ s.entries) :
    ¬ '$' :: entry.1.toList <:+: s.applyChars text := by
  intro hocc
  have hvalue := Placeholder.value_of_fill_eq hocc (fill_applyChars h htext hmem)
  exact h.value entry hmem (hvalue ▸ List.mem_cons_self)

end Substitution

/-! ## The name that is meant -/

/-- The declaration that a dollar sign in front of the text asks for: of the declared names that
the text starts with the longest, and of its declarations the last. -/
def Variable.meant? (declared : List Variable) (text : List Char) : Option Variable :=
  (declared.reverse.filter fun v => v.name.toList.isPrefixOf text).argmax fun v => v.name.length

namespace Variable

variable {declared : List Variable} {v w : Variable} {text rest : List Char}

theorem mem_filter_reverse :
    v ∈ declared.reverse.filter (fun v => v.name.toList.isPrefixOf text) ↔
      v ∈ declared ∧ v.name.toList <+: text := by
  rw [List.mem_filter, List.mem_reverse, List.isPrefixOf_iff_prefix]

theorem prefix_of_meant? (h : meant? declared text = some v) : v.name.toList <+: text :=
  (mem_filter_reverse.1 (List.argmax_mem h)).2

private theorem length_le_of_meant? (h : meant? declared text = some v) (hmem : w ∈ declared)
    (hpre : w.name.toList <+: text) : w.name.length ≤ v.name.length :=
  List.le_of_mem_argmax (f := fun v => v.name.length) (mem_filter_reverse.2 ⟨hmem, hpre⟩) h

private theorem not_prefix_of_meant? (h : meant? declared text = none) (hmem : v ∈ declared) :
    ¬ v.name.toList <+: text := by
  intro hpre
  have hfilter := mem_filter_reverse.2 ⟨hmem, hpre⟩
  rw [List.argmax_eq_none.1 h] at hfilter
  exact List.not_mem_nil hfilter

private theorem meant?_append_singleton :
    meant? (declared ++ [w]) text =
      if w.name.toList <+: text then
        match meant? declared text with
        | some v => if w.name.length < v.name.length then some v else some w
        | none => some w
      else meant? declared text := by
  rw [meant?, List.reverse_append, List.reverse_singleton, List.singleton_append, List.filter_cons]
  simp only [List.isPrefixOf_iff_prefix]
  split_ifs with hpre
  · rw [List.argmax_cons, ← meant?]
    cases meant? declared text <;> rfl
  · rfl

private theorem isLast_of_meant? (h : meant? declared text = some v) : v.IsLast declared := by
  induction declared using List.reverseRecOn with
  | nil => cases h
  | append_singleton declared last ih =>
    have hpre := prefix_of_meant? h
    rw [isLast_append_singleton]
    rw [meant?_append_singleton] at h
    split_ifs at h with hlast
    · split at h
      · next w hw =>
        split_ifs at h with hlt
        · obtain rfl := Option.some.inj h
          exact .inr ⟨ih hw, fun heq => Nat.lt_irrefl _ (heq ▸ hlt)⟩
        · exact .inl (Option.some.inj h).symm
      · exact .inl (Option.some.inj h).symm
    · exact .inr ⟨ih h, fun heq => hlast (heq ▸ hpre)⟩

/-- What lies behind a seam does not change the name that is meant. -/
private theorem meant?_append (hname : ∀ v ∈ declared, ∀ c ∈ v.name.toList, isWordPart c = true)
    (hend : rest = [] ∨ ∃ c ∈ text, isWordPart c = false) :
    meant? declared (text ++ rest) = meant? declared text := by
  rw [meant?, meant?]
  congr 1
  refine List.filter_congr fun v hv => ?_
  rw [Bool.eq_iff_iff, List.isPrefixOf_iff_prefix, List.isPrefixOf_iff_prefix]
  exact Placeholder.prefix_append_iff (hname v (List.mem_reverse.1 hv)) hend

end Variable

namespace Substitution

variable {declared : List Variable} {text rest : List Char}

/-- The first entry of a kind has a name no shorter than the others of that kind. -/
private theorem size_le_of_find? {kind : String × String → Bool} {found entry : String × String}
    (hfind : (ofVariables declared).entries.find? kind = some found)
    (hmem : entry ∈ (ofVariables declared).entries) (hkind : kind entry = true) :
    entry.1.utf8ByteSize ≤ found.1.utf8ByteSize := by
  obtain ⟨-, before, after, hsplit, hbefore⟩ := List.find?_eq_some_iff_append.1 hfind
  have hsorted := pairwise_entries declared
  rw [hsplit, List.pairwise_append, List.pairwise_cons] at hsorted
  rw [hsplit, List.mem_append, List.mem_cons] at hmem
  rcases hmem with hmem | rfl | hmem
  · exact absurd hkind (by simpa using hbefore entry hmem)
  · exact Nat.le_refl _
  · exact noShorter_iff.1 (hsorted.2.1.1 entry hmem)

/-- The first name of the table that a text starts with is the one that is meant. -/
theorem find?_entries (declared : List Variable) (text : List Char) :
    ((ofVariables declared).entries.find? fun entry => entry.1.toList.isPrefixOf text) =
      (Variable.meant? declared text).map Variable.entry := by
  cases hmeant : Variable.meant? declared text with
  | none =>
    rw [Option.map_none, List.find?_eq_none]
    intro entry hmem hpre
    obtain ⟨v, hv, rfl⟩ := mem_entries_iff.1 hmem
    exact Variable.not_prefix_of_meant? hmeant hv.mem (List.isPrefixOf_iff_prefix.1 hpre)
  | some v =>
    have hpre := Variable.prefix_of_meant? hmeant
    have hlast := Variable.isLast_of_meant? hmeant
    have hmem : v.entry ∈ (ofVariables declared).entries := mem_entries_iff.2 ⟨v, hlast, rfl⟩
    have hfits : v.entry.1.toList.isPrefixOf text = true := List.isPrefixOf_iff_prefix.2 hpre
    cases hfind : (ofVariables declared).entries.find? fun e => e.1.toList.isPrefixOf text with
    | none => exact absurd hfits (List.find?_eq_none.1 hfind _ hmem)
    | some entry =>
      obtain ⟨w, hw, rfl⟩ := mem_entries_iff.1 (List.mem_of_find?_eq_some hfind)
      have hfits' := List.find?_some hfind
      have hpre' : w.name.toList <+: text := List.isPrefixOf_iff_prefix.1 hfits'
      -- Of two starts of one text, the one that is shorter in characters is so in bytes.
      have hle : w.name.toList.length ≤ v.name.toList.length := by
        rw [String.length_toList, String.length_toList]
        exact Variable.length_le_of_meant? hmeant hw.mem hpre'
      have hname : w.name = v.name := eq_of_prefix_of_size_le
        (List.prefix_of_prefix_length_le hpre' hpre hle) (size_le_of_find? hfind hmem hfits)
      rw [Option.map_some, hw.eq_of_name_eq hlast hname]

/-! ## One pass -/

/-- Fills a text from left to right. At each dollar sign, the name that is meant is replaced by
the text of its value; a dollar sign that means no name is kept. -/
def onePass (declared : List Variable) : List Char → List Char
  | [] => []
  | c :: text =>
    if c = '$' then
      match Variable.meant? declared text with
      | some v => v.value.asText.toList ++ onePass declared (text.drop v.name.length)
      | none => '$' :: onePass declared text
    else c :: onePass declared text
termination_by text => text.length
decreasing_by all_goals simp only [List.length_cons, List.length_drop]; omega

theorem onePass_plain_append (h : '$' ∉ text) (rest : List Char) :
    onePass declared (text ++ rest) = text ++ onePass declared rest := by
  induction text with
  | nil => rfl
  | cons c text ih =>
    rw [List.mem_cons, not_or] at h
    rw [List.cons_append, onePass, if_neg (Ne.symm h.1), ih h.2, List.cons_append]

/-- A program whose names are identifiers and whose values have no dollar signs has a plain
table. -/
theorem plain_ofVariables (hnames : ∀ v ∈ declared, isIdentifier v.name = true)
    (hvalues : ∀ v ∈ declared, '$' ∉ v.value.asText.toList) : (ofVariables declared).Plain where
  name entry hmem := by
    obtain ⟨v, hv, rfl⟩ := mem_entries_iff.1 hmem
    exact isWordPart_of_isIdentifier (hnames v hv.mem)
  value entry hmem := by
    obtain ⟨v, hv, rfl⟩ := mem_entries_iff.1 hmem
    exact hvalues v hv.mem

/-- A piece is filled by the table as in one pass. -/
private theorem onePass_append {first : List Char}
    (hnames : ∀ v ∈ declared, isIdentifier v.name = true)
    (hvalues : ∀ v ∈ declared, '$' ∉ v.value.asText.toList) (hseam : Seam first rest) :
    onePass declared (first ++ rest) =
      (ofVariables declared).applyChars first ++ onePass declared rest := by
  cases hseam with
  | plain hplain => rw [onePass_plain_append hplain, applyChars_plain hplain]
  | @sign text rest hplain hend =>
    have hwords : ∀ v ∈ declared, ∀ c ∈ v.name.toList, isWordPart c = true := fun v hv =>
      isWordPart_of_isIdentifier (hnames v hv)
    rw [List.cons_append, onePass, if_pos rfl, Variable.meant?_append hwords hend,
      applyChars_sign (plain_ofVariables hnames hvalues) hplain, find?_entries]
    cases hmeant : Variable.meant? declared text with
    | none => simp only [Option.map_none, onePass_plain_append hplain, List.cons_append]
    | some v =>
      have hle : v.name.length ≤ text.length := by
        rw [← String.length_toList]
        exact (Variable.prefix_of_meant? hmeant).length_le
      have hdrop : '$' ∉ text.drop v.name.length := fun hmem => hplain (List.mem_of_mem_drop hmem)
      simp only [Option.map_some, List.drop_append_of_le_length hle, onePass_plain_append hdrop,
        Variable.entry, List.append_assoc]

/-- The table fills a text as it is filled in one pass. -/
theorem applyChars_eq_onePass (hnames : ∀ v ∈ declared, isIdentifier v.name = true)
    (hvalues : ∀ v ∈ declared, '$' ∉ v.value.asText.toList) (htext : Pieced text) :
    (ofVariables declared).applyChars text = onePass declared text := by
  have hplain := plain_ofVariables hnames hvalues
  induction htext with
  | nil => rw [applyChars_plain List.not_mem_nil, onePass]
  | piece hseam _ ih =>
    rw [(applyChars_append hplain hseam).1, onePass_append hnames hvalues hseam, ih]

/-- Where the names are identifiers, no value has a dollar sign and the dollar signs of the text
are parted, filling name by name is filling in one pass.  No placeholder of a declared name is
left, and filling again changes nothing. -/
theorem apply_eq_onePass {p : Program} {text : String}
    (hnames : ∀ v ∈ p.declarations, isIdentifier v.name = true)
    (hvalues : ∀ v ∈ p.declarations, '$' ∉ v.value.asText.toList) (htext : Spaced text.toList) :
    ((ofVariables p.declarations).apply text).toList = onePass p.declarations text.toList ∧
      (∀ v ∈ p.declarations,
        ¬ '$' :: v.name.toList <:+: ((ofVariables p.declarations).apply text).toList) ∧
      (ofVariables p.declarations).apply ((ofVariables p.declarations).apply text) =
        (ofVariables p.declarations).apply text := by
  have hplain := plain_ofVariables hnames hvalues
  have hpieced := htext.pieced
  simp only [apply, String.toList_ofList]
  refine ⟨applyChars_eq_onePass hnames hvalues hpieced, ?_, ?_⟩
  · intro v hv
    obtain ⟨w, hw, hname⟩ := Variable.exists_isLast hv
    rw [← hname]
    exact not_placeholder_applyChars hplain hpieced (mem_entries_iff.2 ⟨w, hw, rfl⟩)
  · rw [applyChars_eq_self fun entry hmem => fill_applyChars hplain hpieced hmem]

/-- Names of which one starts the other, a name declared twice, two names of one length, and a
value that is itself a name. -/
def pathVariables : List Variable :=
  [⟨"id", .text "7"⟩, ⟨"idx", .text "42"⟩, ⟨"id", .text "x9"⟩, ⟨"no", .text "id"⟩]

theorem apply_eq_onePass_paths :
    Program.parse (twoPlaceholders pathVariables).print = .ok (twoPlaceholders pathVariables) ∧
      onePass pathVariables "/$idx/$id-$idy?$q=$no".toList = "/42/x9-x9y?$q=id".toList ∧
      (∀ v ∈ pathVariables, ¬ '$' :: v.name.toList <:+: "/42/x9-x9y?$q=id".toList) ∧
      (ofVariables pathVariables).apply "/42/x9-x9y?$q=id" = "/42/x9-x9y?$q=id" := by
  have hwellFormed : (twoPlaceholders pathVariables).WellFormed := by decide
  have hparse := Program.parse_print hwellFormed
  have hnames := fun v hv => ((Program.wellFormed_of_parse hparse).variableName v hv).1
  have hspaced : Spaced "/$idx/$id-$idy?$q=$no".toList := by decide
  have honePass := apply_eq_onePass hnames (by decide) hspaced
  have happly : (ofVariables (twoPlaceholders pathVariables).declarations).apply
      "/$idx/$id-$idy?$q=$no" = "/42/x9-x9y?$q=id" := by
    cbv
  rw [happly] at honePass
  exact ⟨hparse, honePass.1.symm, honePass.2⟩

end Substitution

end HttpSuite
