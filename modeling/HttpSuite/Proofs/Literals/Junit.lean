import HttpSuite.Proofs.Literals

/-!
# The literals of a JUnit suite

A JUnit suite writes each text of its program once, as a literal of its own, and an empty literal
where the response may lack a header.  What else is put between the fixed lines of the class are
names and numbers, which hold no quotes.

## Main results

* `Dialect.Junit.follows`: the suite holds the literals of `LiteralTable.junit`.
-/

namespace HttpSuite

open Literal

/-- The literals of a JUnit suite. -/
def LiteralTable.junit : LiteralTable where
  shared base headers := base :: headers.flatMap Header.texts
  request s r :=
    s.apply r.url :: (r.sentBody?.toList.map s.apply ++ r.headers.flatMap Header.texts)
  assertion s
    | .statusEquals _ => []
    | .headerEquals key value => [s.apply value, s.apply key, ""]
    | .headerContains key value => [s.apply key, "", s.apply value]
    | .bodyContains value => [s.apply value]

namespace Dialect.Junit

theorem holds_url (s : Substitution) (u : String) : Holds (url (s.url u)) [s.apply u] := by
  unfold Substitution.url
  dsimp only
  split
  · exact holds_one [] rfl rfl
  · exact holds_one [] rfl rfl

theorem holds_methodCall (s : Substitution) (r : Request) :
    Holds (methodCall (r.resolve s)) (r.sentBody?.toList.map s.apply) := by
  have hopen : Holds ("." ++ r.method.verb ++ "(") [] := by cases r.method <;> rfl
  have hbody : (r.resolve s).body = s.body r.method r.body := rfl
  rcases s.body_cases r with ⟨-, heq, hsent⟩ | ⟨-, heq, hsent⟩ | ⟨content, -, heq, hsent⟩
  · rw [methodCall, hbody, heq, hsent]
    exact holds_empty.around hopen rfl
  · rw [methodCall, hbody, heq, hsent]
    exact (holds_plain (by decide)).around hopen rfl
  · have hargument : Holds ("HttpRequest.BodyPublishers.ofString(\"" ++
        Text.escape (s.apply content) ++ "\")") [s.apply content] := holds_one [] rfl rfl
    rw [methodCall, hbody, heq, hsent]
    exact hargument.around hopen rfl

theorem holds_request (first : Bool) (s : Substitution) (r : Request) :
    Holds (unlines (request first (r.resolve s))) (LiteralTable.junit.request s r) := by
  have hheader (h : Header) : Holds (indent ++ "b.header(\"" ++ h.resolve.1 ++ "\", \""
      ++ h.resolve.2 ++ "\");") h.texts := holds_two [] [] rfl rfl rfl
  have hheaders := holds_unlines_map hheader r.headers
  show Holds _ ([s.apply r.url] ++ r.sentBody?.toList.map s.apply
    ++ r.headers.flatMap Header.texts)
  unfold request
  dsimp only [Request.resolve]
  rw [List.map_map]
  refine .plain_append (.plain_append (.lines_append
    (.lines_cons ?url (.plain_cons (.line ?call) ?timeout)) hheaders)
    (.plain_cons holds_unlines_nil ?loop))
    (.plain_cons (.plain_cons holds_unlines_nil ?blank) ?send)
  case url =>
    refine (holds_url s r.url).around ?_ rfl
    cases first <;> rfl
  case call => exact (holds_methodCall s r).around rfl rfl
  case send => cases first <;> decide +kernel
  all_goals decide +kernel

theorem holds_assertion (s : Substitution) (a : Assertion) :
    Holds (assertion (a.resolve s)) (LiteralTable.junit.assertion s a) := by
  have hindent : Holds indent [] := rfl
  cases a with
  | statusEquals code =>
    exact hindent.append ((holds_plain (quote_not_mem_toString code.toInt)).around rfl
      (holds_plain (by decide)))
  | headerEquals key value => exact hindent.append (holds_two [] [""] rfl rfl rfl)
  | headerContains key value => exact hindent.append (holds_two [""] [] rfl rfl rfl)
  | bodyContains value => exact hindent.append (holds_one [] rfl rfl)

/-- The fixed lines before the first test have no literals. -/
theorem quote_not_mem_fixed :
    ∀ line ∈ imports ++ fields ++ setupStart ++ methodEnd, '"' ∉ line.toList := by
  simp only [imports, fields, setupStart, methodEnd, List.cons_append, List.nil_append]
  repeat refine quote_not_mem_cons (by decide) ?_
  exact List.forall_mem_nil _

theorem holds_preamble {className : String} (hname : '"' ∉ className.toList) (p : Program) :
    Holds (unlines (preamble className p.shared)) [p.baseUrl?.getD defaultBaseUrl] := by
  have hclass : '"' ∉ ("public class " ++ className ++ " \x7b").toList := by
    simpa using hname
  have hbase : Holds ("    static String BASE = \"" ++ p.shared.baseUrl ++ "\";")
      [p.baseUrl?.getD defaultBaseUrl] := holds_one [] rfl rfl
  have hfixed := quote_not_mem_fixed
  simp only [List.forall_mem_append] at hfixed
  obtain ⟨⟨⟨himports, hfields⟩, -⟩, -⟩ := hfixed
  exact .plain_append (.lines_append (holds_unlines_plain himports)
    (.plain_cons (.plain_cons hbase.line (by decide)) hclass)) (holds_unlines_plain hfields)

theorem holds_setup (p : Program) :
    Holds (unlines (setup p.shared)) (p.defaultHeaders.flatMap Header.texts) := by
  have hheader (h : Header) : Holds (indent ++ "DEFAULT_HEADERS.put(\"" ++ h.resolve.1 ++ "\",\""
      ++ h.resolve.2 ++ "\");") h.texts := holds_two [] [] rfl rfl rfl
  have hclient : Holds (unlines [indent
      ++ "client = HttpClient.newBuilder().connectTimeout(Duration.ofSeconds("
      ++ toString connectTimeout ++ ")).build();"]) [] :=
    .plain_cons holds_unlines_nil (by decide +kernel)
  have hfixed := quote_not_mem_fixed
  simp only [List.forall_mem_append] at hfixed
  obtain ⟨⟨-, hstart⟩, hend⟩ := hfixed
  unfold setup
  dsimp only [Program.shared]
  rw [List.map_map]
  exact .plain_append (.lines_append (.lines_append (holds_unlines_plain hstart) hclient)
    (holds_unlines_map hheader p.defaultHeaders)) (holds_unlines_plain hend)

/-- The texts of a JUnit suite stand in it as literals, and there are no others. -/
theorem follows {className : String} (hname : '"' ∉ className.toList) :
    Follows (.junit className) .junit where
  shared p := (holds_preamble hname p).lines_append (holds_setup p)
  beginTest hfunction := by
    refine .plain_cons (.plain_cons holds_unlines_nil ?_) (by decide)
    simpa using hfunction
  request := holds_request
  assertion := holds_assertion
  endTest := holds_unlines_plain (List.forall_mem_append.1 quote_not_mem_fixed).2
  finish h := by
    have hbrace : Holds "\x7d\n" [] := rfl
    have hall := h.append hbrace
    rwa [List.append_nil] at hall

end Dialect.Junit

end HttpSuite
