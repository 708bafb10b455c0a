import HttpSuite.Proofs.Layout.Frames
import HttpSuite.Proofs.Literals.Suite
import HttpSuite.Proofs.Recovery
import Mathlib

/-!
# Reading the two dialects back

Most of a line is read back from its literals, and what kind of line it is from how many there are.
Only where two kinds of lines have as many literals are their starts compared.

A JUnit suite tells all resolved statements apart.  A Rust suite writes the empty body as the body
of no characters, so there the two are the same.

## Main definitions

* `Resolved.Statement.merge`: a statement with the empty body as the body of no characters.

## Main results

* `Dialect.Junit.legible`, `Dialect.Rust.legible`: the statements of the two dialects.
* `Dialect.Junit.shared_of_sharedLines`, `Dialect.Rust.shared_of_sharedLines`: what the lines before
  the first test determine.
-/

namespace HttpSuite

open Literal Text

/-- Which body a request sends depends on its method and on the body that it declares. -/
theorem Substitution.body_eq (s : Substitution) (r : Request) :
    s.body r.method r.body =
      if r.method.carriesBody then
        (r.sentBody?.map s.apply).elim .empty fun content => .text (Text.escape content)
      else .none := by
  rcases s.body_cases r with
    ⟨hmethod, heq, -⟩ | ⟨hmethod, heq, hsent⟩ | ⟨content, hmethod, heq, hsent⟩
  · rw [heq, hmethod]
    rfl
  · rw [heq, hmethod, hsent]
    rfl
  · rw [heq, hmethod, hsent]
    rfl

theorem Substitution.url_eq {s s' : Substitution} {u u' : String} (h : s.apply u = s'.apply u') :
    s.url u = s'.url u' := by
  rw [Substitution.url, Substitution.url, h]

theorem Header.texts_injective : Function.Injective Header.texts := by
  intro h h' heq
  obtain ⟨hkey, hvalue⟩ := List.cons.inj heq
  cases h
  cases h'
  simp_all

/-- A line whose literals are the key and the value of a header shows the header. -/
theorem Header.injective_of_holds {line : Header → String}
    (hholds : ∀ h : Header, Holds (line h) h.texts) : Function.Injective line := by
  intro h h' heq
  have hline := hholds h'
  rw [← heq] at hline
  exact texts_injective ((hholds h).unique hline)

namespace Resolved

/-- A body that is empty is written like one of no characters. -/
def Body.merge : Body → Body
  | .empty => .text ""
  | body => body

def Request.merge (r : Request) : Request := { r with body := r.body.merge }

/-- The statement with the empty body as the body of no characters. -/
def Statement.merge : Statement → Statement
  | .request r => .request r.merge
  | .assertion a => .assertion a

end Resolved

namespace Dialect

/-! ## JUnit -/

namespace Junit

/-- A call shows its method. -/
private theorem method_of_methodCall {m m' : Method} {rest rest' : String}
    (h : "." ++ m.verb ++ "(" ++ rest = "." ++ m'.verb ++ "(" ++ rest') : m = m' := by
  simp only [String.append_assoc, String.append_right_inj] at h
  cases m <;> cases m' <;> first | rfl | exact absurd h (ne_of_leads (by decide))

theorem methodCall_eq (r : Resolved.Request) : ∃ argument,
    methodCall r = "." ++ r.method.verb ++ "(" ++ argument ++ ")" := ⟨_, rfl⟩

/-- A call shows its method and its body. -/
private theorem body_of_methodCall {s s' : Substitution} {r r' : Request}
    (h : methodCall (r.resolve s) = methodCall (r'.resolve s')) :
    r.method = r'.method ∧ s.body r.method r.body = s'.body r'.method r'.body := by
  have hliterals := (holds_methodCall s r).unique (h ▸ holds_methodCall s' r')
  have hsent : r.sentBody?.map s.apply = r'.sentBody?.map s'.apply := by
    cases hr : r.sentBody? <;> cases hr' : r'.sentBody? <;> simp_all
  obtain ⟨argument, hargument⟩ := methodCall_eq (r.resolve s)
  obtain ⟨argument', hargument'⟩ := methodCall_eq (r'.resolve s')
  have hmethod : r.method = r'.method := by
    rw [hargument, hargument', String.append_left_inj] at h
    exact method_of_methodCall h
  exact ⟨hmethod, by rw [s.body_eq, s'.body_eq, hmethod, hsent]⟩

theorem header_of_line : Function.Injective fun h : Header =>
    indent ++ "b.header(\"" ++ h.resolve.1 ++ "\", \"" ++ h.resolve.2 ++ "\");" :=
  Header.injective_of_holds fun _ => holds_two [] [] rfl rfl rfl

theorem request_of_lines {first : Bool} {s s' : Substitution} {r r' : Request}
    (h : request first (r.resolve s) = request first (r'.resolve s')) :
    r.resolve s = r'.resolve s' := by
  unfold request at h
  dsimp only [Request.resolve] at h
  simp only [List.map_map, List.append_left_inj, List.cons_append, List.nil_append,
    List.cons.injEq, String.append_left_inj, String.append_right_inj, true_and] at h
  obtain ⟨hurl, hcall, hheaders⟩ := h
  have hurl' : s.apply r.url = s'.apply r'.url :=
    List.cons.inj ((holds_url s r.url).unique (hurl ▸ holds_url s' r'.url)) |>.1
  obtain ⟨hmethod, hbody⟩ := body_of_methodCall hcall
  have hheaders' : r.headers = r'.headers := List.map_injective_iff.2 header_of_line hheaders
  rw [Request.resolve, Request.resolve, Substitution.url_eq hurl', hbody, hmethod, hheaders']

theorem assertion_of_line {s s' : Substitution} {a a' : Assertion}
    (h : assertion (a.resolve s) = assertion (a'.resolve s')) : a.resolve s = a'.resolve s' := by
  refine Assertion.resolve_of_line [""] ?holds ?status ?header h
  case holds =>
    intro s a
    have hholds := holds_assertion s a
    cases a <;> exact hholds
  case status =>
    intro code code' heq
    simp only [assertion, String.append_left_inj, String.append_right_inj] at heq
    exact Int64.toInt_inj.1 (Int.repr_inj.1 heq)
  case header =>
    intro key value key' value' heq
    simp only [assertion, String.append_assoc, String.append_right_inj] at heq
    exact absurd heq (ne_of_leads (by decide))

/-- The statements of a JUnit suite can be read back. -/
theorem legible (className : String) : Legible (.junit className) id where
  opening h := by
    obtain ⟨hline, hrest⟩ := List.cons.inj h
    rw [String.append_left_inj, String.append_right_inj] at hline
    exact ⟨hline, hrest⟩
  request h := congrArg Resolved.Statement.request (request_of_lines h)
  assertion h := congrArg Resolved.Statement.assertion (assertion_of_line h)
  apart first s s' r a h := by
    have hline : indent ++ (if first then "HttpRequest.Builder b" else "b")
        ++ " = HttpRequest.newBuilder(URI.create(" ++ url (s.url r.url) ++ "))" =
        assertion (a.resolve s') := Option.some.inj h
    simp only [assertion, String.append_assoc, String.append_right_inj] at hline
    cases first <;> cases a <;> exact absurd hline (ne_of_leads (by decide))
  statementLines_view fresh statements := by rw [List.map_id]

/-- The lines before the first test determine the class name, the base URL and the headers. -/
theorem shared_of_sharedLines {c c' : String} (hc : '"' ∉ c.toList) (hc' : '"' ∉ c'.toList)
    {p q : Program} (h : (junit c).sharedLines p = (junit c').sharedLines q) :
    c = c' ∧ p.baseUrl?.getD defaultBaseUrl = q.baseUrl?.getD defaultBaseUrl ∧
      p.defaultHeaders = q.defaultHeaders := by
  have hclass : some ("public class " ++ c ++ " \x7b") = some ("public class " ++ c' ++ " \x7b") :=
    congrArg (·[imports.length]?) h
  rw [Option.some.injEq, String.append_left_inj, String.append_right_inj] at hclass
  have hp : Holds (unlines ((junit c).sharedLines p)) _ := (follows hc).shared p
  have hq : Holds (unlines ((junit c').sharedLines q)) _ := (follows hc').shared q
  rw [h] at hp
  obtain ⟨hbase, hheaders⟩ := List.cons.inj (hp.unique hq)
  exact ⟨hclass, hbase,
    eq_of_flatMap_eq 2 (by decide) (fun _ => rfl) Header.texts_injective hheaders⟩

end Junit

/-! ## Rust -/

namespace Rust

/-- A call shows its method. -/
private theorem method_of_call {m m' : Method} {rest rest' : String}
    (h : continuation ++ "." ++ clientCall m ++ "(" ++ rest ++ ")" =
      continuation ++ "." ++ clientCall m' ++ "(" ++ rest' ++ ")") : m = m' := by
  simp only [String.append_assoc, String.append_right_inj] at h
  cases m <;> cases m' <;> first | rfl | exact absurd h (ne_of_leads (by decide))

/-- The expression for a URL shows it. -/
private theorem url_of_expression {s s' : Substitution} {u u' : String}
    (h : url (s.url u) = url (s'.url u')) : s.apply u = s'.apply u' := by
  have hliterals := (holds_url s u).unique (h ▸ holds_url s' u')
  unfold urlLiterals at hliterals
  split at hliterals <;> split at hliterals <;> simp_all

/-- Bodies that are written alike. -/
theorem merge_body (s : Substitution) (r : Request) :
    (s.body r.method r.body).merge =
      if r.method.carriesBody then .text (Text.escape ((r.sentBody?.map s.apply).getD ""))
      else .none := by
  have hempty : Text.escape "" = "" := by rw [← String.toList_inj, toList_escape]; rfl
  rw [s.body_eq]
  split
  · cases r.sentBody? with
    | none => exact congrArg Resolved.Body.text hempty.symm
    | some content => rfl
  · rfl

theorem length_limits (s : Substitution) (r : Request) :
    (limits (s.body r.method r.body)).length = if r.method.carriesBody then 2 else 1 := by
  rw [s.body_eq]
  split
  · cases r.sentBody? <;> rfl
  · rfl

private theorem body_of_limits {s s' : Substitution} {r r' : Request}
    (hmethod : r.method = r'.method)
    (h : limits (s.body r.method r.body) = limits (s'.body r'.method r'.body)) :
    (s.body r.method r.body).merge = (s'.body r'.method r'.body).merge := by
  have hliterals := (holds_limits s r).unique (h ▸ holds_limits s' r')
  rw [bodyLiterals, bodyLiterals, hmethod] at hliterals
  rw [merge_body, merge_body, hmethod]
  by_cases hcarries : r'.method.carriesBody = true
  · rw [if_pos hcarries, if_pos hcarries, List.cons.injEq] at hliterals
    rw [if_pos hcarries, if_pos hcarries, hliterals.1]
  · rw [if_neg hcarries, if_neg hcarries]

theorem header_of_line : Function.Injective fun h : Header =>
    indent ++ "b = b.header(\"" ++ h.resolve.1 ++ "\", \"" ++ h.resolve.2 ++ "\");" :=
  Header.injective_of_holds fun _ => holds_two [] [] rfl rfl rfl

theorem request_of_lines {s s' : Substitution} {r r' : Request}
    (h : request (r.resolve s) = request (r'.resolve s')) :
    (r.resolve s).merge = (r'.resolve s').merge := by
  unfold request at h
  dsimp only [Request.resolve] at h
  simp only [List.map_map, List.append_left_inj, List.cons_append, List.nil_append,
    List.cons.injEq, true_and] at h
  obtain ⟨hcall, hrest⟩ := h
  have hmethod : r.method = r'.method := method_of_call hcall
  have hurl : s.apply r.url = s'.apply r'.url := by
    rw [hmethod, String.append_left_inj, String.append_right_inj] at hcall
    exact url_of_expression hcall
  -- The method says how many lines the limits take.
  obtain ⟨hlimits, hheaders⟩ := List.append_inj hrest (by
    rw [length_limits, length_limits, hmethod])
  have hheaders' : r.headers = r'.headers := List.map_injective_iff.2 header_of_line hheaders
  simp only [Request.resolve, Resolved.Request.merge, body_of_limits hmethod hlimits, hheaders',
    Substitution.url_eq hurl]
  rw [hmethod]

theorem assertion_of_line {s s' : Substitution} {a a' : Assertion}
    (h : assertion (a.resolve s) = assertion (a'.resolve s')) : a.resolve s = a'.resolve s' := by
  refine Assertion.resolve_of_line [] ?holds ?status ?header h
  case holds =>
    intro s a
    have hholds := holds_assertion s a
    cases a <;> exact hholds
  case status =>
    intro code code' heq
    simp only [assertion, String.append_left_inj, String.append_right_inj] at heq
    exact Int64.toInt_inj.1 (Int.repr_inj.1 heq)
  case header =>
    intro key value key' value' heq
    simp only [assertion, String.append_assoc, String.append_right_inj] at heq
    exact absurd heq (ne_of_leads (by decide))

private theorem request_merge (r : Resolved.Request) : request r.merge = request r := by
  have hlimits : limits r.body.merge = limits r.body := by
    cases r.body with
    | none => rfl
    | empty =>
      have hempty : continuation ++ ".body(\"" ++ "" ++ "\");" =
          continuation ++ ".body(\"\");" := by
        decide
      exact congrArg (fun line => [_, line]) hempty
    | text content => rfl
  unfold request
  rw [← hlimits]
  rfl

private theorem statementLines_merge (fresh : Bool) (statements : List Resolved.Statement) :
    Dialect.rust.statementLines fresh (statements.map Resolved.Statement.merge) =
      Dialect.rust.statementLines fresh statements := by
  induction statements generalizing fresh with
  | nil => rfl
  | cons a statements ih =>
    cases a with
    | request r => exact congrArg₂ (· ++ ·) (request_merge r) (ih false)
    | assertion a => exact congrArg (_ :: ·) (ih fresh)

/-- The statements of a Rust suite can be read back, but for the empty body. -/
theorem legible : Legible .rust Resolved.Statement.merge where
  opening h := by
    obtain ⟨hline, hrest⟩ := List.cons.inj h
    rw [String.append_left_inj, String.append_right_inj] at hline
    exact ⟨hline, (List.cons.inj hrest).2⟩
  request h := congrArg Resolved.Statement.request (request_of_lines h)
  assertion h := congrArg Resolved.Statement.assertion (assertion_of_line h)
  apart first s s' r a h := by
    have hline : indent ++ "let mut b = suite" = assertion (a.resolve s') := Option.some.inj h
    unfold assertion at hline
    rw [String.append_right_inj, ← String.append_empty (s := "let mut b = suite")] at hline
    cases a <;> simp only [Assertion.resolve, String.append_assoc] at hline <;>
      exact absurd hline (ne_of_leads (by decide))
  statementLines_view := statementLines_merge

private theorem sharedHeaderLiterals_injective : Function.Injective sharedHeaderLiterals := by
  intro h h' heq
  simp only [sharedHeaderLiterals, List.cons.injEq] at heq
  exact Header.texts_injective (by simp [Header.texts, heq.1, heq.2.2.1])

/-- The lines before the first test determine the base URL and the headers. -/
theorem shared_of_sharedLines {p q : Program}
    (h : Dialect.rust.sharedLines p = Dialect.rust.sharedLines q) :
    p.baseUrl?.getD defaultBaseUrl = q.baseUrl?.getD defaultBaseUrl ∧
      p.defaultHeaders = q.defaultHeaders := by
  have hp : Holds (unlines (Dialect.rust.sharedLines p)) _ := follows.shared p
  have hq : Holds (unlines (Dialect.rust.sharedLines q)) _ := follows.shared q
  rw [h] at hp
  have hliterals := hp.unique hq
  simp only [LiteralTable.rust, List.cons_append, List.nil_append, List.cons.injEq,
    true_and] at hliterals
  exact ⟨hliterals.1, eq_of_flatMap_eq 4 (by decide) (fun _ => rfl) sharedHeaderLiterals_injective
    hliterals.2⟩

end Rust

end Dialect

end HttpSuite
