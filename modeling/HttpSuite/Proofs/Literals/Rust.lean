import HttpSuite.Proofs.Literals

/-!
# The literals of a Rust suite

A Rust suite has literals of its own beside the texts of its program: what it says when a request
or the set-up fails, and the pattern by which a path is joined to the base URL.  The two messages
about a shared header quote its name, so these literals hold a text of the program between fixed
text.

## Main results

* `Dialect.Rust.follows`: the suite holds the literals of `LiteralTable.rust`.
-/

namespace HttpSuite

open Literal

namespace Dialect.Rust

/-- The literals of the statements that add a shared header. -/
def sharedHeaderLiterals (h : Header) : List String :=
  [ h.key, "invalid default header name '" ++ h.key ++ "'"
  , h.value, "invalid value for default header '" ++ h.key ++ "'" ]

/-- The literals of the expression for a URL: a path is joined to the base URL. -/
def urlLiterals (url : String) : List String :=
  if url.toList.head? = some '/' then ["\x7b\x7d\x7b\x7d", url] else [url]

/-- The literals of the call that sets a body: none if the method sends no body, an empty one if no
body is declared. -/
def bodyLiterals (s : Substitution) (r : Request) : List String :=
  if r.method.carriesBody then [(r.sentBody?.map s.apply).getD ""] else []

end Dialect.Rust

/-- The literals of a Rust suite. -/
def LiteralTable.rust : LiteralTable where
  shared base headers :=
    [base, "", "", "request failed", "response body is not text", "failed to build HTTP client"]
      ++ headers.flatMap Dialect.Rust.sharedHeaderLiterals
  request s r :=
    Dialect.Rust.urlLiterals (s.apply r.url) ++ Dialect.Rust.bodyLiterals s r
      ++ r.headers.flatMap Header.texts
  assertion s
    | .statusEquals _ => []
    | .headerEquals key value => [s.apply value, s.apply key]
    | .headerContains key value => [s.apply key, s.apply value]
    | .bodyContains value => [s.apply value]

namespace Dialect.Rust

theorem holds_url (s : Substitution) (u : String) :
    Holds (url (s.url u)) (urlLiterals (s.apply u)) := by
  unfold Substitution.url urlLiterals
  dsimp only
  split
  · have hpattern : Passes .code "format!(\"\x7b\x7d\x7b\x7d\", BASE, \""
        ["\x7b\x7d\x7b\x7d".toList] (.inside []) := rfl
    exact (hpattern.append (passes_escape [] (s.apply u))).append rfl
  · exact holds_one [] rfl rfl

theorem holds_limits (s : Substitution) (r : Request) :
    Holds (unlines (limits (s.body r.method r.body))) (bodyLiterals s r) := by
  unfold bodyLiterals
  rcases s.body_cases r with
    ⟨hmethod, heq, -⟩ | ⟨hmethod, heq, hsent⟩ | ⟨content, hmethod, heq, hsent⟩
  · rw [heq, hmethod]
    exact .plain_cons holds_unlines_nil (by decide +kernel)
  · rw [heq, hmethod, hsent]
    refine .plain_cons ?_ (by decide +kernel)
    exact .lines_cons (u := [""]) (by decide +kernel) holds_unlines_nil
  · have hcontent : Holds (continuation ++ ".body(\"" ++ Text.escape (s.apply content) ++ "\");")
        [s.apply content] := holds_one [] rfl rfl
    rw [heq, hmethod, hsent]
    exact hcontent.line.plain_cons (by decide +kernel)

theorem holds_request (s : Substitution) (r : Request) :
    Holds (unlines (request (r.resolve s))) (LiteralTable.rust.request s r) := by
  have hheader (h : Header) : Holds (indent ++ "b = b.header(\"" ++ h.resolve.1 ++ "\", \""
      ++ h.resolve.2 ++ "\");") h.texts := holds_two [] [] rfl rfl rfl
  have hheaders := holds_unlines_map hheader r.headers
  have hurl : Holds (continuation ++ "." ++ clientCall r.method ++ "(" ++ url (s.url r.url) ++ ")")
      (urlLiterals (s.apply r.url)) := by
    refine (holds_url s r.url).around ?_ rfl
    cases r.method <;> rfl
  show Holds _ (urlLiterals (s.apply r.url) ++ bodyLiterals s r
    ++ r.headers.flatMap Header.texts)
  unfold request
  dsimp only [Request.resolve]
  rw [List.map_map]
  refine .plain_append (.plain_append (.lines_append (.lines_append
    (.plain_cons (.plain_cons hurl.line ?client) ?builder) (holds_limits s r)) hheaders)
    (.plain_cons holds_unlines_nil ?shared))
    (.plain_cons (.plain_cons holds_unlines_nil ?blank) ?send)
  all_goals decide +kernel

theorem holds_assertion (s : Substitution) (a : Assertion) :
    Holds (assertion (a.resolve s)) (LiteralTable.rust.assertion s a) := by
  have hindent : Holds indent [] := rfl
  cases a with
  | statusEquals code =>
    exact hindent.append ((holds_plain (quote_not_mem_toString code.toInt)).around rfl rfl)
  | headerEquals key value => exact hindent.append (holds_two [] [] rfl rfl rfl)
  | headerContains key value => exact hindent.append (holds_two [] [] rfl rfl rfl)
  | bodyContains value => exact hindent.append (holds_one [] rfl rfl)

/-- A call whose failure is reported with the name of a header. -/
theorem holds_expect {lead between start first key : String}
    (hopen : Passes .code lead [] (.inside []))
    (hbetween : Passes (.inside first.toList) between [first.toList] (.inside start.toList)) :
    Holds (lead ++ Text.escape first ++ between ++ Text.escape key ++ "'\"),")
      [first, start ++ key ++ "'"] := by
  have hclose : Passes (.inside (start.toList ++ key.toList)) "'\"),"
      [(start ++ key ++ "'").toList] .code := by
    rw [String.toList_append, String.toList_append]
    rfl
  exact passes_two hopen hbetween hclose

theorem holds_sharedHeader (h : Header) :
    Holds (unlines (sharedHeader h.resolve)) (sharedHeaderLiterals h) := by
  have hname : Holds ("            HeaderName::try_from(\"" ++ h.resolve.1
      ++ "\").expect(\"invalid default header name '" ++ h.resolve.1 ++ "'\"),")
      [h.key, "invalid default header name '" ++ h.key ++ "'"] := holds_expect rfl rfl
  have hvalue : Holds ("            HeaderValue::from_str(\"" ++ h.resolve.2
      ++ "\").expect(\"invalid value for default header '" ++ h.resolve.1 ++ "'\"),")
      [h.value, "invalid value for default header '" ++ h.key ++ "'"] := holds_expect rfl rfl
  have hend : Holds (unlines ["        );"]) [] :=
    .plain_cons holds_unlines_nil (by decide +kernel)
  exact (hname.lines_cons (hvalue.lines_cons hend)).plain_cons (by decide +kernel)

theorem holds_sharedHeaders (headers : List Header) :
    Holds (unlines (sharedHeaders (headers.map Header.resolve)))
      (headers.flatMap sharedHeaderLiterals) := by
  cases headers with
  | nil => exact .plain_cons holds_unlines_nil (by decide +kernel)
  | cons h headers =>
    have hall := holds_unlines_flatMap holds_sharedHeader (h :: headers)
    rw [← List.flatMap_map] at hall
    exact hall.plain_cons (by decide +kernel)

/-- The fixed lines before the first test that have no literals. -/
theorem quote_not_mem_fixed :
    ∀ line ∈ imports ++ setupStart ++ setupEnd, '"' ∉ line.toList := by
  simp only [imports, setupStart, setupEnd, List.cons_append, List.nil_append]
  repeat refine quote_not_mem_cons (by decide) ?_
  exact List.forall_mem_nil _

theorem holds_helpers :
    Holds (unlines helpers) ["", "", "request failed", "response body is not text"] := by
  unfold helpers
  repeat refine .fixed_cons (by decide) ?_
  refine .lines_cons (u := [""]) (holds_ofList rfl) ?_
  repeat refine .fixed_cons (by decide) ?_
  refine .lines_cons (u := [""]) (holds_ofList rfl) ?_
  repeat refine .fixed_cons (by decide) ?_
  refine .lines_cons (u := ["request failed"]) (holds_ofList rfl) ?_
  repeat refine .fixed_cons (by decide) ?_
  refine .lines_cons (u := ["response body is not text"]) (holds_ofList rfl) ?_
  repeat refine .fixed_cons (by decide) ?_
  exact holds_unlines_nil

theorem holds_clientEnd : Holds (unlines clientEnd) ["failed to build HTTP client"] := by
  unfold clientEnd
  repeat refine .fixed_cons (by decide) ?_
  exact .lines_cons (u := ["failed to build HTTP client"]) (holds_ofList rfl) holds_unlines_nil

theorem holds_preamble (p : Program) : Holds (unlines (preamble p.shared))
    [p.baseUrl?.getD defaultBaseUrl, "", "", "request failed", "response body is not text"] := by
  have hbase : Holds ("const BASE: &str = \"" ++ p.shared.baseUrl ++ "\";")
      [p.baseUrl?.getD defaultBaseUrl] := holds_one [] rfl rfl
  have hfixed := quote_not_mem_fixed
  simp only [List.forall_mem_append] at hfixed
  obtain ⟨⟨himports, -⟩, -⟩ := hfixed
  exact ((holds_unlines_plain himports).lines_append hbase.line).lines_append holds_helpers

theorem holds_setup (p : Program) : Holds (unlines (setup p.shared))
    ("failed to build HTTP client" :: p.defaultHeaders.flatMap sharedHeaderLiterals) := by
  have htimeout : Holds (unlines ["            .connect_timeout(Duration::from_secs("
      ++ toString connectTimeout ++ "))"]) [] :=
    .plain_cons holds_unlines_nil (by decide +kernel)
  have hfixed := quote_not_mem_fixed
  simp only [List.forall_mem_append] at hfixed
  obtain ⟨⟨-, hstart⟩, hend⟩ := hfixed
  have hclient := ((holds_unlines_plain hstart).lines_append htimeout).lines_append holds_clientEnd
  exact .plain_append (hclient.lines_append (holds_sharedHeaders p.defaultHeaders))
    (holds_unlines_plain hend)

/-- A line end is outside of literals, so it can be dropped. -/
theorem holds_dropBlankEnd {text : String} {found : List String} (h : Holds text found) :
    Holds (dropBlankEnd text) found := by
  unfold dropBlankEnd
  split
  · next before hreverse =>
    have htext : text.toList = ('\n' :: before).reverse ++ ['\n'] := by
      rw [← List.reverse_reverse text.toList, hreverse, List.reverse_cons]
    unfold Holds Passes at h ⊢
    rw [htext, scanFrom_append] at h
    rw [String.toList_ofList]
    cases hscan : scanFrom .code ('\n' :: before).reverse with
    | none =>
      rw [hscan] at h
      cases h
    | some result =>
      obtain ⟨found', mode⟩ := result
      rw [hscan, Option.bind_some] at h
      cases mode with
      | code =>
        simp only [scanFrom, Char.reduceEq, if_false, Option.map_some, List.append_nil] at h
        exact h
      | inside content => cases h
      | escape content => cases h
  · exact h

/-- A Rust suite holds the texts of its program and the fixed literals of the table, and no
others. -/
theorem follows : Follows .rust .rust where
  shared p := (holds_preamble p).lines_append (holds_setup p)
  beginTest hfunction := by
    refine .plain_cons (.plain_cons (.plain_cons holds_unlines_nil (by decide +kernel)) ?_)
      (by decide)
    simpa using hfunction
  request _ := holds_request
  assertion := holds_assertion
  endTest := .fixed_cons (by decide) (.fixed_cons (by decide) holds_unlines_nil)
  finish := holds_dropBlankEnd

end Dialect.Rust

end HttpSuite
