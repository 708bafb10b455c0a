import Mathlib.Data.List.Forall2
import HttpSuite.Proofs.Layout

/-!
# What the text of a suite determines

Two suites with the same text say the same: they have the same base URL, the same shared headers,
and the same tests with the same resolved statements.  Nothing that stands in the texts of a program
can be taken for a line of another kind.

The text is cut into the lines before the first test and the functions of the tests, and a function
into its statements: a request ends at the first blank line, and an assertion is one line.  What
remains to be shown of a dialect is that each kind of line can be read back, which is what `Legible`
says.

Some dialects write the empty body and the body of no characters alike.  So what is read back is a
statement up to a `view`.

## Main definitions

* `Dialect.Legible`: statements can be read back from their lines, up to a view.
* `Dialect.renderedTests`: the names of the tests and their statements.

## Main results

* `Dialect.Legible.view_of_statementLines`: the lines of a test determine its statements.
* `Dialect.Legible.renderedTests_of_functions`: the functions determine the tests.
* `Dialect.Legible.testsLines_eq`: the tests determine their lines.
-/

namespace HttpSuite

open Text

namespace Text

/-- Two texts that start differently differ. -/
theorem ne_of_leads {lead lead' : List Char} {rest rest' : String}
    (h : ¬ lead <+: lead' ∧ ¬ lead' <+: lead) :
    String.ofList lead ++ rest ≠ String.ofList lead' ++ rest' := by
  intro heq
  have hlist : lead ++ rest.toList = lead' ++ rest'.toList := by
    simpa using congrArg String.toList heq
  have hlead : lead <+: lead' ++ rest'.toList := hlist ▸ List.prefix_append lead rest.toList
  exact (List.prefix_or_prefix_of_prefix hlead (List.prefix_append _ _)).elim h.1 h.2

end Text

theorem Literal.Holds.unique {text : String} {found found' : List String}
    (h : Literal.Holds text found) (h' : Literal.Holds text found') : found = found' :=
  Option.some.inj (h.scan_eq.symm.trans h'.scan_eq)

/-- Lists of blocks of one size are equal only if their blocks are. -/
theorem eq_of_flatMap_eq {α β : Type} {f : α → List β} (size : Nat) (hsize : 0 < size)
    (hlength : ∀ a, (f a).length = size) (hinj : Function.Injective f) {as bs : List α}
    (h : as.flatMap f = bs.flatMap f) : as = bs := by
  induction as generalizing bs with
  | nil =>
    cases bs with
    | nil => rfl
    | cons b bs =>
      have hlen := congrArg List.length h
      rw [List.flatMap_cons, List.length_append, hlength, List.flatMap_nil, List.length_nil] at hlen
      omega
  | cons a as ih =>
    cases bs with
    | nil =>
      have hlen := congrArg List.length h
      rw [List.flatMap_cons, List.length_append, hlength, List.flatMap_nil, List.length_nil] at hlen
      omega
    | cons b bs =>
      rw [List.flatMap_cons, List.flatMap_cons] at h
      obtain ⟨hhead, htail⟩ := List.append_inj h (by rw [hlength, hlength])
      rw [hinj hhead, ih htail]

/-! ## Assertions -/

/-- The literals in the line of an assertion. Where the response may lack a header, the line holds
literals of its own. -/
def Assertion.literals (own : List String) (s : Substitution) : Assertion → List String
  | .statusEquals _ => []
  | .headerEquals key value => s.apply value :: s.apply key :: own
  | .headerContains key value => s.apply key :: (own ++ [s.apply value])
  | .bodyContains value => [s.apply value]

section Line

variable {line : Resolved.Assertion → String} {s s' : Substitution} {a a' : Assertion}

/-- The line of an assertion shows its literals, and which of the kinds with two texts it is of. -/
theorem Assertion.resolve_of_line (own : List String)
    (hholds : ∀ s (a : Assertion), Literal.Holds (line (a.resolve s)) (a.literals own s))
    (hstatus : ∀ code code', line (.statusEquals code) = line (.statusEquals code') → code = code')
    (hheader : ∀ key value key' value',
      line (.headerEquals key value) ≠ line (.headerContains key' value'))
    (h : line (a.resolve s) = line (a'.resolve s')) : a.resolve s = a'.resolve s' := by
  have hliterals : a.literals own s = a'.literals own s' :=
    (hholds s a).unique (h ▸ hholds s' a')
  have hlength := congrArg List.length hliterals
  cases a with
  | statusEquals code =>
    cases a' with
    | statusEquals code' =>
      have hcode : code = code' := hstatus code code' h
      rw [hcode]
      rfl
    | headerEquals key value => simp [literals] at hlength
    | headerContains key value => simp [literals] at hlength
    | bodyContains value => simp [literals] at hlength
  | headerEquals key value =>
    cases a' with
    | statusEquals code => simp [literals] at hlength
    | headerEquals key' value' =>
      simp only [literals, List.cons.injEq, and_true] at hliterals
      simp only [resolve, Substitution.literal, hliterals.1, hliterals.2]
    | headerContains key' value' => exact absurd h (hheader _ _ _ _)
    | bodyContains value => simp [literals] at hlength
  | headerContains key value =>
    cases a' with
    | statusEquals code => simp [literals] at hlength
    | headerEquals key' value' => exact absurd h.symm (hheader _ _ _ _)
    | headerContains key' value' =>
      simp only [literals, List.cons.injEq, List.append_cancel_left_eq, and_true] at hliterals
      simp only [resolve, Substitution.literal, hliterals.1, hliterals.2]
    | bodyContains value => simp [literals] at hlength
  | bodyContains value =>
    cases a' with
    | statusEquals code => simp [literals] at hlength
    | headerEquals key value => simp [literals] at hlength
    | headerContains key value => simp [literals] at hlength
    | bodyContains value' =>
      simp only [literals, List.cons.injEq, and_true] at hliterals
      simp only [resolve, Substitution.literal, hliterals]

end Line

/-! ## Statements and tests -/

namespace Dialect

/-- The statements of a dialect can be read back from their lines, up to a view, and depend on
nothing else. -/
structure Legible (dialect : Dialect) (view : Resolved.Statement → Resolved.Statement) : Prop where
  opening {name name' : String} {rest rest' : List String} :
    (dialect.beginTest name).tail ++ rest = (dialect.beginTest name').tail ++ rest' →
      name = name' ∧ rest = rest'
  request {first : Bool} {s s' : Substitution} {r r' : Request} :
    dialect.request first (r.resolve s) = dialect.request first (r'.resolve s') →
      view (.request (r.resolve s)) = view (.request (r'.resolve s'))
  assertion {s s' : Substitution} {a a' : Assertion} :
    dialect.assertion (a.resolve s) = dialect.assertion (a'.resolve s') →
      view (.assertion (a.resolve s)) = view (.assertion (a'.resolve s'))
  /-- No request starts with the line of an assertion. -/
  apart (first : Bool) (s s' : Substitution) (r : Request) (a : Assertion) :
    (dialect.request first (r.resolve s)).head? ≠ some (dialect.assertion (a.resolve s'))
  statementLines_view (fresh : Bool) (statements : List Resolved.Statement) :
    dialect.statementLines fresh (statements.map view) = dialect.statementLines fresh statements

/-- The tests of a program: their names, and what is seen of their statements. -/
def renderedTests (view : Resolved.Statement → Resolved.Statement) (p : Program) :
    List (String × List Resolved.Statement) :=
  p.tests.map fun t =>
    (t.name, t.statements.map fun a => view (a.resolve (.ofVariables p.declarations)))

/-- A list that ends at the first blank line is cut off in one way only. -/
theorem eq_of_append_blank {front front' rest rest' : List String} (hfront : "" ∉ front)
    (hfront' : "" ∉ front') (h : front ++ "" :: rest = front' ++ "" :: rest') :
    front = front' ∧ rest = rest' := by
  have htake (front rest : List String) (hfront : "" ∉ front) :
      (front ++ "" :: rest).takeWhile (· != "") = front := by
    rw [List.takeWhile_append_of_pos]
    · simp
    · intro line hline
      have hne : line ≠ "" := fun heq => hfront (heq ▸ hline)
      simpa using hne
  have hfronts : front = front' := by
    rw [← htake front rest hfront, h, htake front' rest' hfront']
  rw [hfronts] at h
  exact ⟨hfronts, (List.cons.inj (List.append_cancel_left h)).2⟩

namespace Legible

variable {dialect : Dialect} {frame : Frame} {view : Resolved.Statement → Resolved.Statement}

/-- A request is cut off at its blank line, and read back. -/
theorem view_of_request (h : Legible dialect view) (hframed : Framed dialect frame) {first : Bool}
    {s s' : Substitution} {r r' : Request} {rest rest' : List String}
    (heq : dialect.request first (r.resolve s) ++ rest =
      dialect.request first (r'.resolve s') ++ rest') :
    view (.request (r.resolve s)) = view (.request (r'.resolve s')) ∧ rest = rest' := by
  obtain ⟨front, hrequest, hfront⟩ := hframed.request first s r
  obtain ⟨front', hrequest', hfront'⟩ := hframed.request first s' r'
  rw [hrequest, hrequest', List.append_assoc, List.append_assoc] at heq
  obtain ⟨hfronts, hrest⟩ := eq_of_append_blank (fun hmem => (hfront _ hmem).2 rfl)
    (fun hmem => (hfront' _ hmem).2 rfl) heq
  exact ⟨h.request (by rw [hrequest, hrequest', hfronts]), hrest⟩

theorem request_ne_nil (hframed : Framed dialect frame) (first : Bool) (s : Substitution)
    (r : Request) : dialect.request first (r.resolve s) ≠ [] := by
  obtain ⟨front, hrequest, -⟩ := hframed.request first s r
  rw [hrequest]
  exact List.append_ne_nil_of_right_ne_nil _ (List.cons_ne_nil _ _)

theorem request_append_ne (h : Legible dialect view) (hframed : Framed dialect frame) {first : Bool}
    {s s' : Substitution} {r : Request} {a : Assertion} {rest rest' : List String} :
    dialect.request first (r.resolve s) ++ rest ≠ dialect.assertion (a.resolve s') :: rest' := by
  intro heq
  have hhead := congrArg List.head? heq
  rw [List.head?_append_of_ne_nil _ (request_ne_nil hframed first s r), List.head?_cons] at hhead
  exact h.apart first s s' r a hhead

theorem statementLines_ne_nil (hframed : Framed dialect frame) (fresh : Bool) (s : Substitution)
    (a : Statement) (rest : List Resolved.Statement) :
    dialect.statementLines fresh (a.resolve s :: rest) ≠ [] := by
  cases a with
  | request r => exact List.append_ne_nil_of_left_ne_nil (request_ne_nil hframed fresh s r) _
  | assertion a => exact List.cons_ne_nil _ _

/-- The lines of a test determine its statements. -/
theorem view_of_statementLines (h : Legible dialect view) (hframed : Framed dialect frame)
    {s s' : Substitution} {statements statements' : List Statement} {fresh : Bool}
    (heq : dialect.statementLines fresh (statements.map fun a => a.resolve s) =
      dialect.statementLines fresh (statements'.map fun a => a.resolve s')) :
    (statements.map fun a => view (a.resolve s)) =
      statements'.map fun a => view (a.resolve s') := by
  induction statements generalizing statements' fresh with
  | nil =>
    cases statements' with
    | nil => rfl
    | cons a statements' => exact absurd heq.symm (statementLines_ne_nil hframed fresh s' a _)
  | cons a statements ih =>
    cases statements' with
    | nil => exact absurd heq (statementLines_ne_nil hframed fresh s a _)
    | cons a' statements' =>
      -- Both first statements are of one kind, because their first lines are equal.
      cases a with
      | request r =>
        cases a' with
        | request r' =>
          obtain ⟨hview, hrest⟩ := h.view_of_request hframed heq
          exact congrArg₂ List.cons hview (ih hrest)
        | assertion a' => exact absurd heq (h.request_append_ne hframed)
      | assertion a =>
        cases a' with
        | request r' => exact absurd heq.symm (h.request_append_ne hframed)
        | assertion a' =>
          obtain ⟨hline, hrest⟩ := List.cons.inj heq
          exact congrArg₂ List.cons (h.assertion hline) (ih hrest)

/-- The functions of a suite determine its tests. -/
theorem renderedTests_of_functions (h : Legible dialect view) (hframed : Framed dialect frame)
    {p q : Program}
    (heq : p.tests.map (dialect.functionLines (.ofVariables p.declarations)) =
      q.tests.map (dialect.functionLines (.ofVariables q.declarations))) :
    renderedTests view p = renderedTests view q := by
  unfold renderedTests
  rw [← List.forall₂_eq_eq_eq, List.forall₂_map_left_iff, List.forall₂_map_right_iff] at heq ⊢
  refine heq.imp fun t t' hlines => ?_
  obtain ⟨hname, hbody⟩ := h.opening hlines
  rw [String.append_right_inj] at hname
  rw [hname, h.view_of_statementLines hframed hbody]

/-- The tests determine their lines. -/
theorem testsLines_eq (h : Legible dialect view) (p : Program) :
    dialect.testsLines p = (renderedTests view p).flatMap fun t =>
      dialect.beginTest (testNameStart ++ t.1) ++ dialect.statementLines true t.2
        ++ dialect.endTest := by
  rw [testsLines, renderedTests, List.flatMap_map]
  congr 1
  funext t
  rw [testLines, bodyLines, ← h.statementLines_view, List.map_map]
  rfl

end Legible

end Dialect

end HttpSuite
