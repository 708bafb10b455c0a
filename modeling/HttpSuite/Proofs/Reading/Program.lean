import HttpSuite.Proofs.Reading

/-!
# Every reader reads its line of the grammar

One statement for each reader: `reads_header` says that `Reader.header` reads what
`Header.Derives` allows, and so on up to `reads_program`.  Each follows the body of its reader
through the rules of `HttpSuite.Proofs.Reading`; what is left is that the words put together that
way are the ones of the grammar.

A reader that is started by the token its caller has looked at is stated for that token.  The
readers of a part of a line (`requestEnd`, `headerRelation`) are stated for the rest of a line of
which the words before were read already.

## Main results

* `reads_program`: reading a program, up to the end of the text.
-/

namespace HttpSuite

open Grammar

namespace Reader

open ReaderState

variable {α β : Type}

/-! ## Configuration -/

theorem reads_header : Reads (· = .keyword .header) header Header.Derives anyFollow := by
  refine .advance_bind (by simp)
    ((reads_string _).bind fun key =>
      (reads_mark (by simp) _).bind fun _ =>
      (reads_string _).bind fun value =>
      (reads_mark (by simp) _).bind fun _ => reads_pure anyToken (Header.mk key value))
    (fun h v => ?_) (fun _ h => by cases h)
  simp only [chain_mark, chain_string]
  constructor
  · intro hv
    obtain ⟨key, _, rfl, _, rfl, value, _, rfl, _, rfl, rfl, rfl⟩ := hv
    exact .mk key value
  · intro hv
    cases hv with
    | mk key value => exact ⟨key, _, rfl, _, rfl, value, _, rfl, _, rfl, rfl, rfl⟩

theorem leads_headers : Leads headers Header.Derives := by
  intro h w hw
  cases hw
  exact ⟨_, _, rfl, rfl⟩

theorem reads_headers : Reads anyToken (many headers) (Many Header.Derives)
    (fun _ kind => headers.starts kind = false) :=
  .many (reads_header.mono fun _ h => eq_of_beq h) leads_headers

/-- `base := 'base_url' '=' STRING ';'` -/
theorem reads_baseUrl : Reads (· = .keyword .baseUrl) baseUrl
    (fun url => ConfigLine.Derives (.baseUrl url)) anyFollow := by
  refine .advance_bind (by simp)
    ((reads_mark (by simp) _).bind fun _ =>
      (reads_string _).bind fun url =>
      (reads_mark (by simp) _).bind fun _ => reads_pure anyToken url)
    (fun h v => ?_) (fun _ h => by cases h)
  simp only [chain_mark, chain_string]
  constructor
  · intro hv
    obtain ⟨_, rfl, url, _, rfl, _, rfl, rfl, rfl⟩ := hv
    exact .baseUrl h
  · intro hv
    cases hv
    exact ⟨_, rfl, _, _, rfl, _, rfl, rfl, rfl⟩

theorem reads_configLine :
    Reads (configLines.starts · = true) configLine ConfigLine.Derives anyFollow := by
  refine .peek_bind ⟨_, _, .baseUrl ""⟩ fun kind hstarts => ?_
  split
  · next h =>
    subst h
    refine .alternative _ reads_baseUrl (fun _ _ h => h) (fun line v h => ?_) (fun line h => ?_)
    · cases h with
      | baseUrl url => exact ⟨url, rfl, .baseUrl url⟩
      | header h => cases h
    · cases h with
      | header h => cases h
  · next hne =>
    have hkind : kind = .keyword .header := by
      simpa [configLines, hne] using hstarts
    subst hkind
    refine .alternative _ reads_header (fun _ _ h => .header h) (fun line v h => ?_)
      (fun line h => ?_)
    · cases h with
      | header h => exact ⟨_, rfl, h⟩
    · cases h with
      | header h => cases h

theorem leads_configLines : Leads configLines ConfigLine.Derives := by
  intro line w hw
  cases hw with
  | baseUrl url => exact ⟨_, _, rfl, rfl⟩
  | header h =>
    cases h
    exact ⟨_, _, rfl, rfl⟩

theorem reads_configLines : Reads anyToken (many configLines) (Many ConfigLine.Derives)
    (fun _ kind => configLines.starts kind = false) :=
  .many reads_configLine leads_configLines

theorem reads_configEnd :
    Reads anyToken configEnd (fun _ w => w = [.rightBrace]) anyFollow :=
  reads_kind (by simp) _

theorem reads_config : Reads (· = .keyword .config) config Config.Derives anyFollow := by
  refine .advance_bind (by simp)
    ((reads_mark (by simp) _).bind fun _ =>
      reads_configLines.bind_of_opens
        (fun lines => reads_configEnd.bind fun _ => reads_pure anyToken (Config.ofLines lines))
        fun lines kind h => ?_) (fun c v => ?_) (fun _ h => by cases h)
  · rw [opens_mark h]
    rfl
  · simp only [chain_mark]
    constructor
    · intro hv
      obtain ⟨_, rfl, lines, w, _, hlines, ⟨_, _, _, rfl, ⟨rfl, rfl⟩, rfl⟩, rfl⟩ := hv
      exact .mk hlines (Config.madeOf_iff.2 rfl)
    · intro hv
      cases hv with
      | mk hlines hmade =>
        obtain rfl := Config.madeOf_iff.1 hmade
        exact ⟨_, rfl, _, _, _, hlines, ⟨(), _, _, rfl, ⟨rfl, rfl⟩, rfl⟩, rfl⟩

theorem reads_config? : Reads anyToken config? (Optional Config.Derives)
    (fun c next => c = none → next ≠ .keyword .config) := by
  refine reads_config.optional fun c w h => ?_
  cases h
  exact ⟨_, rfl⟩

/-! ## Variables -/

theorem reads_value : Reads anyToken value Value.Derives anyFollow := by
  refine .peek_bind ⟨_, _, .text ""⟩ fun kind _ => ?_
  split
  · refine .advance_bind (by simp) (reads_pure anyToken _) (fun a v => ?_) (fun _ h => by cases h)
    constructor
    · intro h
      obtain ⟨rfl, rfl⟩ := h
      exact .text _
    · intro h
      cases h
      exact ⟨rfl, rfl⟩
  · refine .advance_bind (by simp) (reads_pure anyToken _) (fun a v => ?_) (fun _ h => by cases h)
    constructor
    · intro h
      obtain ⟨rfl, rfl⟩ := h
      exact .integer _
    · intro h
      cases h
      exact ⟨rfl, rfl⟩
  · next hstring hnumber =>
    refine reads_refuse _ ⟨_, _, .text ""⟩ fun k hk => not_opens fun a w hw => ?_
    subst hk
    cases hw with
    | text content => exact ⟨_, _, rfl, fun h => hstring content h.symm⟩
    | integer n => exact ⟨_, _, rfl, fun h => hnumber n h.symm⟩

theorem reads_declaration :
    Reads (· = .keyword .declare) declaration Variable.Derives anyFollow := by
  refine .advance_bind (by simp)
    ((reads_name _).bind fun name =>
      (reads_mark (by simp) _).bind fun _ =>
      reads_value.bind fun value =>
      (reads_mark (by simp) _).bind fun _ => reads_pure anyToken (Variable.mk name value))
    (fun a v => ?_) (fun _ h => by cases h)
  simp only [chain_mark, chain_name]
  constructor
  · intro hv
    obtain ⟨name, _, rfl, _, rfl, value, w, _, hvalue, ⟨_, _, _, rfl, ⟨rfl, rfl⟩, rfl⟩, rfl⟩ := hv
    exact .mk name hvalue
  · intro hv
    cases hv with
    | mk name hvalue =>
      exact ⟨name, _, rfl, _, rfl, _, _, _, hvalue, ⟨(), _, _, rfl, ⟨rfl, rfl⟩, rfl⟩, rfl⟩

theorem leads_declarations : Leads declarations Variable.Derives := by
  intro v w hw
  cases hw
  exact ⟨_, _, rfl, rfl⟩

theorem reads_declarations : Reads anyToken (many declarations) (Many Variable.Derives)
    (fun _ kind => declarations.starts kind = false) :=
  .many (reads_declaration.mono fun _ h => eq_of_beq h) leads_declarations

/-! ## Requests -/

theorem reads_body? : Reads anyToken body? (Optional Body.Derives)
    (fun body next => body = none → next ≠ .keyword .body) := by
  have hline : Reads (· = .keyword .body)
      (advance >>= fun _ => mark .equals .afterBodyWord >>= fun _ =>
        string .requestBody >>= fun content =>
        mark .semicolon .afterRequestBody >>= fun _ => pure content)
      Body.Derives anyFollow := by
    refine .advance_bind (by simp)
      ((reads_mark (by simp) _).bind fun _ =>
        (reads_string _).bind fun content =>
        (reads_mark (by simp) _).bind fun _ => reads_pure anyToken content)
      (fun a v => ?_) (fun _ h => by cases h)
    simp only [chain_mark, chain_string]
    constructor
    · intro hv
      obtain ⟨_, rfl, content, _, rfl, _, rfl, rfl, rfl⟩ := hv
      exact .mk a
    · intro hv
      cases hv
      exact ⟨_, rfl, _, _, rfl, _, rfl, rfl, rfl⟩
  have hbody := hline.optional fun a w h => by
    cases h
    exact ⟨_, rfl⟩
  simpa only [body?, bind_assoc, pure_bind] using hbody

/-- The rest of a request line after its method and URL. -/
theorem reads_requestEnd (method : Method) (url : String) :
    Reads anyToken (requestEnd method url)
      (fun r w => r.Derives (.keyword (.method method) :: .string url :: w)) anyFollow := by
  refine .peek_bind ⟨_, _, .plain method url⟩ fun kind _ => ?_
  split
  · refine .advance_bind (by simp) (reads_pure anyToken _) (fun r v => ?_) (fun _ h => by cases h)
    constructor
    · intro hv
      obtain ⟨rfl, rfl⟩ := hv
      exact .plain method url
    · intro hv
      cases hv
      exact ⟨rfl, rfl⟩
  · refine .advance_bind (by simp)
      (reads_headers.bind_of_opens
        (fun headers => reads_body?.bind_of_opens
          (fun body => (reads_mark (by simp) _).bind fun _ =>
            (reads_mark (by simp) _).bind fun _ =>
            reads_pure anyToken (Request.mk method url headers body))
          fun body kind h => ?_)
        fun headers kind h => ?_) (fun r v => ?_) (fun _ h => by cases h)
    · rw [opens_mark h]
      simp
    · rcases opens_chain h with ⟨body, v, hbody⟩ | ⟨body, -, hend⟩
      · cases hbody with
        | some h =>
          cases h
          rfl
      · rw [opens_mark hend]
        rfl
    · constructor
      · intro hv
        obtain ⟨headers, u, _, hheaders, ⟨body, w, _, hbody, hend, rfl⟩, rfl⟩ := hv
        simp only [chain_mark] at hend
        obtain ⟨_, rfl, _, rfl, rfl, rfl⟩ := hend
        rw [← List.append_assoc]
        exact .block method url hheaders hbody
      · intro hv
        cases hv with
        | block _ _ hheaders hbody =>
          exact ⟨_, _, _, hheaders, ⟨_, _, _, hbody,
            chain_mark.2 ⟨_, rfl, chain_mark.2 ⟨_, rfl, rfl, rfl⟩⟩, rfl⟩,
            List.append_assoc _ _ _⟩
  · next hsemicolon hbrace =>
    refine reads_refuse _ ⟨_, _, .plain method url⟩ fun k hk => not_opens fun r w hw => ?_
    subst hk
    cases hw with
    | plain => exact ⟨_, _, rfl, fun h => hsemicolon h.symm⟩
    | block => exact ⟨_, _, rfl, fun h => hbrace h.symm⟩

theorem reads_request (method : Method) :
    Reads (· = .keyword (.method method)) (request method) Request.Derives anyFollow := by
  refine .advance_bind (by simp)
    ((reads_string _).bind fun url => reads_requestEnd method url)
    (fun r v => ?_) (fun _ h => by cases h)
  simp only [chain_string]
  constructor
  · intro hv
    obtain ⟨url, _, rfl, hr⟩ := hv
    exact hr
  · intro hv
    cases hv with
    | plain _ url => exact ⟨url, _, rfl, .plain method url⟩
    | block _ url hheaders hbody => exact ⟨url, _, rfl, .block method url hheaders hbody⟩

/-! ## Assertions -/

theorem reads_statusCode : Reads anyToken statusCode
    (fun code w => w = [.number code] ∧ 100 ≤ code.toInt ∧ code.toInt ≤ 599) anyFollow := by
  have hpart : ∃ code w, w = [TokenKind.number code] ∧ 100 ≤ code.toInt ∧ code.toInt ≤ 599 :=
    ⟨200, _, rfl, by decide⟩
  refine .peek_bind hpart fun kind hkind => ?_
  split
  · next code =>
    split
    · next hcode =>
      refine .advance_bind (by simp) (reads_pure anyToken code)
        (fun a v => ?_) (fun _ h => by cases h.1)
      constructor
      · intro hv
        obtain ⟨rfl, rfl⟩ := hv
        exact ⟨rfl, isStatusCode_iff.1 hcode⟩
      · intro hv
        obtain ⟨hv, -⟩ := hv
        cases hv
        exact ⟨rfl, rfl⟩
    · next hcode =>
      refine reads_refuse _ hpart fun k hk => not_opens fun a w hw => ?_
      subst hk
      refine ⟨_, _, hw.1, fun h => hcode ?_⟩
      cases h
      exact isStatusCode_iff.2 hw.2
  · next hnumber =>
    refine reads_refuse _ hpart fun k hk => not_opens fun a w hw => ?_
    subst hk
    exact ⟨_, _, hw.1, fun h => hnumber a h.symm⟩

/-- The rest of a header assertion after the name of the header. -/
theorem reads_headerRelation (key : String) : Reads anyToken (headerRelation key)
    (fun a w => a.Expects (.keyword .header :: .string key :: w)) anyFollow := by
  refine .peek_bind ⟨_, _, .headerEquals key ""⟩ fun kind _ => ?_
  split
  · refine .advance_bind (by simp)
      ((reads_string _).bind fun value => reads_pure anyToken (Assertion.headerEquals key value))
      (fun a v => ?_) (fun _ h => by cases h)
    simp only [chain_string]
    constructor
    · intro hv
      obtain ⟨value, _, rfl, rfl, rfl⟩ := hv
      exact .headerEquals key value
    · intro hv
      cases hv with
      | headerEquals _ value => exact ⟨value, _, rfl, rfl, rfl⟩
  · refine .advance_bind (by simp)
      ((reads_string _).bind fun value => reads_pure anyToken (Assertion.headerContains key value))
      (fun a v => ?_) (fun _ h => by cases h)
    simp only [chain_string]
    constructor
    · intro hv
      obtain ⟨value, _, rfl, rfl, rfl⟩ := hv
      exact .headerContains key value
    · intro hv
      cases hv with
      | headerContains _ value => exact ⟨value, _, rfl, rfl, rfl⟩
  · next hequals hcontains =>
    refine reads_refuse _ ⟨_, _, .headerEquals key ""⟩ fun k hk => not_opens fun a w hw => ?_
    subst hk
    cases hw with
    | headerEquals => exact ⟨_, _, rfl, fun h => hequals h.symm⟩
    | headerContains => exact ⟨_, _, rfl, fun h => hcontains h.symm⟩

theorem reads_expectation : Reads anyToken expectation Assertion.Expects anyFollow := by
  refine .peek_bind ⟨_, _, .bodyContains ""⟩ fun kind _ => ?_
  split
  · refine .advance_bind (by simp)
      ((reads_mark (by simp) _).bind fun _ =>
        reads_statusCode.bind fun code => reads_pure anyToken (Assertion.statusEquals code))
      (fun a v => ?_) (fun _ h => by cases h)
    simp only [chain_mark]
    constructor
    · intro hv
      obtain ⟨_, rfl, code, _, _, ⟨rfl, hmin, hmax⟩, ⟨rfl, rfl⟩, rfl⟩ := hv
      exact .statusEquals hmin hmax
    · intro hv
      cases hv with
      | statusEquals hmin hmax =>
        exact ⟨_, rfl, _, _, _, ⟨rfl, hmin, hmax⟩, ⟨rfl, rfl⟩, rfl⟩
  · refine .advance_bind (by simp)
      ((reads_string _).bind fun key => reads_headerRelation key)
      (fun a v => ?_) (fun _ h => by cases h)
    simp only [chain_string]
    constructor
    · intro hv
      obtain ⟨key, _, rfl, ha⟩ := hv
      exact ha
    · intro hv
      cases hv with
      | headerEquals key value => exact ⟨key, _, rfl, .headerEquals key value⟩
      | headerContains key value => exact ⟨key, _, rfl, .headerContains key value⟩
  · refine .advance_bind (by simp)
      ((reads_mark (by simp) _).bind fun _ =>
        (reads_string _).bind fun value => reads_pure anyToken (Assertion.bodyContains value))
      (fun a v => ?_) (fun _ h => by cases h)
    simp only [chain_mark, chain_string]
    constructor
    · intro hv
      obtain ⟨_, rfl, value, _, rfl, rfl, rfl⟩ := hv
      exact .bodyContains value
    · intro hv
      cases hv with
      | bodyContains value => exact ⟨_, rfl, value, _, rfl, rfl, rfl⟩
  · next hstatus hheader hbody =>
    refine reads_refuse _ ⟨_, _, .bodyContains ""⟩ fun k hk => not_opens fun a w hw => ?_
    subst hk
    cases hw with
    | statusEquals => exact ⟨_, _, rfl, fun h => hstatus h.symm⟩
    | headerEquals | headerContains => exact ⟨_, _, rfl, fun h => hheader h.symm⟩
    | bodyContains => exact ⟨_, _, rfl, fun h => hbody h.symm⟩

theorem reads_assertion :
    Reads (· = .keyword .expect) assertion Assertion.Derives anyFollow := by
  refine .advance_bind (by simp)
    (reads_expectation.bind fun a =>
      (reads_mark (by simp) _).bind fun _ => reads_pure anyToken a)
    (fun a v => ?_) (fun _ h => by cases h)
  constructor
  · intro hv
    obtain ⟨a, w, _, ha, hend, rfl⟩ := hv
    simp only [chain_mark] at hend
    obtain ⟨_, rfl, rfl, rfl⟩ := hend
    exact .mk ha
  · intro hv
    cases hv with
    | mk ha =>
      exact ⟨a, _, _, ha, chain_mark.2 ⟨_, rfl, rfl, rfl⟩, rfl⟩

/-! ## Tests -/

theorem reads_statement : Reads anyToken statement Statement.Derives anyFollow := by
  have hpart : ∃ a w, Statement.Derives a w := ⟨_, _, .request (.plain .get "")⟩
  have hnil : ∀ a, ¬ Statement.Derives a [] := by
    intro a h
    cases h with
    | request h => cases h
    | assertion h => cases h
  refine .peek_bind hpart fun kind hkind => ?_
  split
  · next m =>
    refine .alternative _ (reads_request m) (fun _ _ h => .request h) (fun a v h => ?_) hnil
    cases h with
    | request h => exact ⟨_, rfl, h⟩
    | assertion h => cases h
  · refine .alternative _ reads_assertion (fun _ _ h => .assertion h) (fun a v h => ?_) hnil
    cases h with
    | request h => cases h
    | assertion h => exact ⟨_, rfl, h⟩
  · next hmethod hexpect =>
    refine reads_refuse _ hpart fun k hk => not_opens fun a w hw => ?_
    subst hk
    cases hw with
    | request h => cases h <;> exact ⟨_, _, rfl, fun h => hmethod _ h.symm⟩
    | assertion h =>
      cases h
      exact ⟨_, _, rfl, fun h => hexpect h.symm⟩

theorem leads_statements : Leads statements Statement.Derives := by
  intro a w hw
  cases hw with
  | request h => cases h <;> exact ⟨_, _, rfl, rfl⟩
  | assertion h =>
    cases h
    exact ⟨_, _, rfl, rfl⟩

theorem reads_statements : Reads anyToken (many statements) (Many Statement.Derives)
    (fun _ kind => statements.starts kind = false) :=
  .many (reads_statement.mono fun _ _ => trivial) leads_statements

/-- The rest of a test after its opening brace. -/
theorem reads_testBlock (name : String) : Reads anyToken
    (many statements >>= fun all => someStatement all >>= fun _ =>
      mark .rightBrace .atTestEnd >>= fun _ => pure (Test.mk name all))
    (fun t w => t.Derives (.keyword .test :: .identifier name :: .leftBrace :: w)) anyFollow := by
  have hclose : ∀ all : List Statement, all ≠ [] → Reads anyToken
      (someStatement all >>= fun _ => mark .rightBrace .atTestEnd >>= fun _ =>
        pure (Test.mk name all))
      (Chain (fun (_ : Unit) w => w = [.rightBrace]) fun _ t w => t = Test.mk name all ∧ w = [])
      anyFollow := by
    intro all hne
    rw [someStatement, if_neg (by simpa using hne), pure_bind]
    exact (reads_mark (by simp) _).bind fun _ => reads_pure anyToken _
  have hempty : ∀ all : List Statement, ¬ all ≠ [] → Refuses
      (someStatement all >>= fun _ => mark .rightBrace .atTestEnd >>= fun _ =>
        pure (Test.mk name all)) := by
    intro all hall s
    rw [Classical.not_not.1 hall]
    exact ⟨.emptyTest, rfl⟩
  refine (reads_statements.bind_of_good (· ≠ [])
    (fun w h => h.many_ne_nil ⟨_, _, .request (.plain .get "")⟩) hclose hempty
    fun all kind _ h => ?_).congr fun t w => ?_
  · rw [opens_mark h]
    rfl
  · constructor
    · intro hw
      obtain ⟨all, u, _, ⟨hall, hne⟩, hend, rfl⟩ := hw
      obtain ⟨_, rfl, rfl, rfl⟩ := chain_mark.1 hend
      exact .mk name hall hne
    · intro hw
      cases hw with
      | mk _ hall hne => exact ⟨_, _, _, ⟨hall, hne⟩, chain_mark.2 ⟨_, rfl, rfl, rfl⟩, rfl⟩

theorem reads_test : Reads (· = .keyword .test) test Test.Derives anyFollow := by
  refine .advance_bind (by simp)
    ((reads_name _).bind fun name =>
      (reads_mark (by simp) _).bind fun _ => reads_testBlock name)
    (fun t v => ?_) (fun _ h => by cases h)
  simp only [chain_name, chain_mark]
  constructor
  · intro hv
    obtain ⟨name, _, rfl, _, rfl, ht⟩ := hv
    exact ht
  · intro hv
    cases hv with
    | mk name hall hne => exact ⟨name, _, rfl, _, rfl, .mk name hall hne⟩

theorem leads_tests : Leads tests Test.Derives := by
  intro t w hw
  cases hw
  exact ⟨_, _, rfl, rfl⟩

theorem reads_tests : Reads anyToken (many tests) (Many Test.Derives)
    (fun _ kind => tests.starts kind = false) :=
  .many (reads_test.mono fun _ h => eq_of_beq h) leads_tests

/-! ## Programs -/

/-- After some tests, the text must end. -/
theorem reads_finish {all : List Test} (hne : all ≠ []) :
    Reads anyToken (finish all) (fun _ w => w = []) (fun _ kind => kind = .endOfFile) := by
  have hopens : ∀ kind, kind ≠ .endOfFile →
      ¬ Opens (fun (_ : Unit) w => w = []) (fun _ kind => kind = .endOfFile) kind := by
    intro kind hkind h
    obtain ⟨-, w, next, rfl, hnext, hhead⟩ := h
    exact hkind ((Option.some.inj hhead).symm.trans hnext)
  have hrefuse : ∀ kind cause, kind ≠ .endOfFile →
      Reads (· = kind) (refuse cause) (fun (_ : Unit) w => w = [])
        (fun _ kind => kind = .endOfFile) := by
    intro kind cause hkind
    refine reads_refuse cause ⟨(), [], rfl⟩ fun k hk => ?_
    rw [hk]
    exact hopens kind hkind
  refine .peek_bind ⟨(), [], rfl⟩ fun kind _ => ?_
  split
  · rw [if_neg (by simpa using hne)]
    exact (reads_pure _ ()).congr fun _ w => ⟨fun h => h.2, fun h => ⟨rfl, h⟩⟩
  · exact hrefuse _ _ (by simp)
  · exact hrefuse _ _ (by simp)
  · next hend _ _ => exact hrefuse _ _ hend

/-- Without tests, every token is refused. -/
theorem refuses_finish : Refuses (finish []) := by
  refine .peek_bind fun kind => ?_
  split
  · exact refuses_refuse _
  · exact refuses_refuse _
  · exact refuses_refuse _
  · exact refuses_refuse _

/-- The tests of a program and the end of the text, after what stands before them. -/
theorem reads_blocks (config : Option Config) (declared : List Variable) : Reads anyToken
    (many tests >>= fun all => finish all >>= fun _ => pure (Program.mk config declared all))
    (fun p w => ∃ all, p = ⟨config, declared, all⟩ ∧ Many Test.Derives all w ∧ all ≠ [])
    (fun _ kind => kind = .endOfFile) := by
  have hend : ∀ all : List Test, all ≠ [] → Reads anyToken
      (finish all >>= fun _ => pure (Program.mk config declared all))
      (fun p w => p = ⟨config, declared, all⟩ ∧ w = []) (fun _ kind => kind = .endOfFile) := by
    intro all hne
    refine ((reads_finish hne).map _ _ fun _ _ => Iff.rfl).congr fun p w => ?_
    exact ⟨fun ⟨_, h⟩ => h, fun h => ⟨(), h⟩⟩
  have hempty : ∀ all : List Test, ¬ all ≠ [] → Refuses
      (finish all >>= fun _ => pure (Program.mk config declared all)) := by
    intro all hall
    rw [Classical.not_not.1 hall]
    exact refuses_finish.bind _
  refine (reads_tests.bind_of_good (· ≠ [])
    (fun w h => h.many_ne_nil reads_test.productive) hend hempty
    fun all kind _ h => ?_).congr fun p w => ?_
  · obtain ⟨_, w, next, ⟨-, rfl⟩, rfl, hhead⟩ := h
    rw [← Option.some.inj hhead]
    rfl
  · constructor
    · intro hw
      obtain ⟨all, u, _, hall, ⟨rfl, rfl⟩, rfl⟩ := hw
      exact ⟨all, rfl, by rwa [List.append_nil]⟩
    · intro hw
      obtain ⟨all, rfl, hall⟩ := hw
      exact ⟨all, w, [], hall, ⟨rfl, rfl⟩, (List.append_nil w).symm⟩

/-- What can stand where the tests of a program are expected to start. -/
private theorem opens_blocks {config : Option Config} {declared : List Variable} {kind : TokenKind}
    (h : Opens (fun p w => ∃ all, p = Program.mk config declared all ∧
      Many Test.Derives all w ∧ all ≠ []) (fun _ kind => kind = .endOfFile) kind) :
    kind = .keyword .test := by
  obtain ⟨_, w, next, ⟨all, -, hall, hne⟩, -, hhead⟩ := h
  cases hall with
  | nil => exact absurd rfl hne
  | cons ht _ =>
    cases ht
    exact (Option.some.inj hhead).symm

theorem reads_program : Reads anyToken program Program.Derives
    (fun _ kind => kind = .endOfFile) := by
  refine (reads_config?.bind_of_opens (fun config =>
    reads_declarations.bind_of_opens (fun declared => reads_blocks config declared)
      fun declared kind h => ?_) fun config kind h => ?_).congr fun p w => ?_
  · rw [opens_blocks h]
    rfl
  · intro _ hkind
    subst hkind
    rcases opens_chain h with ⟨declared, v, hv⟩ | ⟨declared, -, hblocks⟩
    · exact absurd (leads_declarations.many hv) (by decide)
    · exact absurd (opens_blocks hblocks) (by decide)
  · constructor
    · intro hw
      obtain ⟨config, u, _, hconfig,
        ⟨declared, v, w, hdeclared, ⟨all, rfl, hall, hne⟩, rfl⟩, rfl⟩ :=
        hw
      rw [← List.append_assoc]
      exact .mk hconfig hdeclared hall hne
    · intro hw
      cases hw with
      | mk hconfig hdeclared hall hne =>
        exact ⟨_, _, _, hconfig, ⟨_, _, _, hdeclared, ⟨_, rfl, hall, hne⟩, rfl⟩,
          List.append_assoc _ _ _⟩

end Reader

end HttpSuite
