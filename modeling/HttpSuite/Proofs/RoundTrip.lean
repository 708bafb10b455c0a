import HttpSuite.Program.Printer
import HttpSuite.Proofs.Lexing
import HttpSuite.Proofs.Parse

/-!
# Printing and parsing are inverse

The programs that parsing can return are those that can be printed and parsed again, and parsing
the printed text returns the same program.  What such a program must satisfy is what the tokens can
carry: names are words that are not reserved, numbers are not negative; and what the grammar asks
for: tests with statements, and status codes in their range.

Every part of a program is printed as text that is read as a derivation of that part, whatever is
printed behind it (`Prints`).  The canonical text of a program is therefore read as a derivation of
it, and parsing follows derivations.

## Main definitions

* `Program.WellFormed`: the programs that have a source text, which can be decided.
* `Program.roundTrip`: a source text in canonical form.
* `Prints`: a text is read as a derivation of a tree, whatever follows.

## Main results

* `Program.wellFormed_of_parse`: parsing returns well-formed programs only.
* `Program.parse_print`: a well-formed program is read back from its text.
* `Program.parse_print_exact`: printing and parsing are inverse on well-formed programs only.
-/

namespace HttpSuite

open Grammar

/-- The programs that have a source text. Strings, headers, bodies and the configuration can be
anything. -/
structure Program.WellFormed (p : Program) : Prop where
  hasTest : p.tests ≠ []
  hasStatement : ∀ t ∈ p.tests, t.statements ≠ []
  testName : ∀ t ∈ p.tests, IsName t.name
  variableName : ∀ v ∈ p.declarations, IsName v.name
  integer : ∀ v ∈ p.declarations, ∀ n, v.value = .integer n → 0 ≤ n.toInt
  statusCode : ∀ t ∈ p.tests, ∀ code, .assertion (.statusEquals code) ∈ t.statements →
    100 ≤ code.toInt ∧ code.toInt ≤ 599

/-- A number is written without a sign. -/
def Value.Writable : Value → Prop
  | text _ => True
  | integer n => 0 ≤ n.toInt

instance : (value : Value) → Decidable value.Writable
  | .text _ => .isTrue trivial
  | .integer n => inferInstanceAs (Decidable (0 ≤ n.toInt))

/-- A status is asked for by a code of HTTP. -/
def Statement.Writable : Statement → Prop
  | assertion (.statusEquals code) => 100 ≤ code.toInt ∧ code.toInt ≤ 599
  | _ => True

instance : (statement : Statement) → Decidable statement.Writable
  | .assertion (.statusEquals code) =>
    inferInstanceAs (Decidable (100 ≤ code.toInt ∧ code.toInt ≤ 599))
  | .assertion (.headerEquals _ _) => .isTrue trivial
  | .assertion (.headerContains _ _) => .isTrue trivial
  | .assertion (.bodyContains _) => .isTrue trivial
  | .request _ => .isTrue trivial

/-- Whether a program has a source text is seen test by test and variable by variable. -/
theorem Program.wellFormed_iff {p : Program} : p.WellFormed ↔ p.tests ≠ [] ∧
    (∀ t ∈ p.tests, IsName t.name ∧ t.statements ≠ [] ∧
      ∀ statement ∈ t.statements, statement.Writable) ∧
    ∀ v ∈ p.declarations, IsName v.name ∧ v.value.Writable := by
  constructor
  · rintro ⟨htest, hstatement, hname, hvariable, hinteger, hcode⟩
    refine ⟨htest, fun t ht => ⟨hname t ht, hstatement t ht, fun statement hmem => ?_⟩,
      fun v hv => ⟨hvariable v hv, ?_⟩⟩
    · unfold Statement.Writable
      split
      · exact hcode t ht _ hmem
      · trivial
    · cases hvalue : v.value with
      | text content => trivial
      | integer n => exact hinteger v hv n hvalue
  · rintro ⟨htest, htests, hvariables⟩
    exact
      { hasTest := htest
        hasStatement := fun t ht => (htests t ht).2.1
        testName := fun t ht => (htests t ht).1
        variableName := fun v hv => (hvariables v hv).1
        integer := fun v hv n hn => by
          have hwritable := (hvariables v hv).2
          rwa [hn] at hwritable
        statusCode := fun t ht code hmem => (htests t ht).2.2 _ hmem }

instance (p : Program) : Decidable p.WellFormed := decidable_of_iff _ p.wellFormed_iff.symm

/-- A source text in canonical form. -/
def Program.roundTrip (source : String) : Except SourceError String :=
  (Program.parse source).map Program.print

/-! ## Parsed programs -/

/-- Each of many trees has words of its own among those of all. -/
theorem Grammar.Many.exists_derives {α : Type} {part : Phrase α} {as : List α}
    {w : List TokenKind} (h : Many part as w) {a : α} (ha : a ∈ as) :
    ∃ v, part a v ∧ ∀ kind ∈ v, kind ∈ w := by
  induction h with
  | nil => cases ha
  | @cons first others v w hfirst _ ih =>
    rcases List.mem_cons.1 ha with rfl | hmem
    · exact ⟨v, hfirst, fun kind hk => List.mem_append_left _ hk⟩
    · obtain ⟨u, hu, hsub⟩ := ih hmem
      exact ⟨u, hu, fun kind hk => List.mem_append_right _ (hsub kind hk)⟩

/-- A program whose tokens characters can make is well formed. -/
theorem Program.Derives.wellFormed {p : Program} {w : List TokenKind} (h : p.Derives w)
    (hlexical : ∀ kind ∈ w, kind.Lexical) : p.WellFormed := by
  obtain ⟨-, hdeclared, htests, hne⟩ := h
  have hvariable (x : Variable) (hx : x ∈ _) := hdeclared.exists_derives hx
  have htest (t : Test) (ht : t ∈ _) := htests.exists_derives ht
  refine ⟨hne, ?_, ?_, ?_, ?_, ?_⟩
  · intro t ht
    obtain ⟨_, ⟨name, _, hstatements⟩, -⟩ := htest t ht
    exact hstatements
  · intro t ht
    obtain ⟨_, ⟨name, _, _⟩, hsub⟩ := htest t ht
    exact hlexical (.identifier name) (List.mem_append_right _ (hsub _ (by simp)))
  · intro x hx
    obtain ⟨_, ⟨name, _⟩, hsub⟩ := hvariable x hx
    exact hlexical (.identifier name) (by simp [hsub (.identifier name) (by simp)])
  · intro x hx n hn
    obtain ⟨_, ⟨name, hvalue⟩, hsub⟩ := hvariable x hx
    subst hn
    cases hvalue
    exact hlexical (.number n) (by simp [hsub (.number n) (by simp)])
  · intro t ht code hcode
    obtain ⟨_, ⟨name, hall, _⟩, -⟩ := htest t ht
    obtain ⟨_, hstatement, -⟩ := hall.exists_derives hcode
    cases hstatement with
    | assertion h =>
      cases h with
      | mk h =>
        cases h with
        | statusEquals hmin hmax => exact ⟨hmin, hmax⟩

/-- Parsing returns well-formed programs only. -/
theorem Program.wellFormed_of_parse {source : String} {p : Program}
    (h : parse source = .ok p) : p.WellFormed := by
  obtain ⟨w, hkinds, hp⟩ := parse_eq_ok_iff.1 h
  obtain ⟨tokens, _, _, _, hyields, _, _, rfl⟩ := Cursor.kinds_eq_ok_iff.1 hkinds
  exact hp.wellFormed hyields.lexical

/-! ## Printed texts -/

namespace Lexes

variable {text : List Char} {w : List TokenKind}

theorem name {name : String} (hname : IsName name)
    (hparted : text.head?.any Text.isWordPart = false) (h : Lexes text w) :
    Lexes (name.toList ++ text) (.identifier name :: w) :=
  hname.ofWord_eq ▸ h.word hname.1 hparted

theorem equals (h : Lexes text w) : Lexes (" = ".toList ++ text) (.equals :: w) :=
  .gap rfl (.token rfl (by simp) (.gap rfl h))

theorem semicolon (h : Lexes text w) : Lexes (";".toList ++ text) (.semicolon :: w) :=
  .token rfl (by simp) h

theorem semicolon_line (h : Lexes text w) : Lexes (";\n".toList ++ text) (.semicolon :: w) :=
  .token rfl (by simp) (.gap rfl h)

theorem method (m : Method) (hparted : text.head?.any Text.isWordPart = false)
    (h : Lexes text w) : Lexes (m.verb.toList ++ text) (.keyword (.method m) :: w) := by
  cases m <;> exact h.word (by decide) hparted

end Lexes

/-- The text is read as a derivation of the tree, whatever follows it. -/
def Prints {α : Type} (part : Phrase α) (a : α) (text : String) : Prop :=
  ∃ w, part a w ∧ ∀ {rest : List Char} {v : List TokenKind}, Lexes rest v →
    Lexes (text.toList ++ rest) (w ++ v)

theorem Header.prints (h : Header) : Prints Header.Derives h h.print := by
  refine ⟨_, .mk h.key h.value, fun hrest => ?_⟩
  simp only [Header.print, String.toList_append, List.append_assoc]
  refine .literal (v := [.keyword .header]) (.token rfl (by simp) (.gap rfl .done)) rfl ?_
  exact .quote (.equals (.quote (.semicolon hrest)))

theorem Variable.prints {v : Variable} (hname : IsName v.name)
    (hvalue : ∀ n, v.value = .integer n → 0 ≤ n.toInt) : Prints Variable.Derives v v.print := by
  obtain ⟨name, value⟩ := v
  cases value with
  | text content =>
    refine ⟨_, .mk name (.text content), fun hrest => ?_⟩
    simp only [Variable.print, Value.print, String.toList_append, List.append_assoc]
    refine .literal (v := [.keyword .declare]) (.token rfl (by simp) (.gap rfl .done)) rfl ?_
    exact .name hname rfl (.equals (.quote (.semicolon_line hrest)))
  | integer n =>
    refine ⟨_, .mk name (.integer n), fun hrest => ?_⟩
    simp only [Variable.print, Value.print, String.toList_append, List.append_assoc]
    refine .literal (v := [.keyword .declare]) (.token rfl (by simp) (.gap rfl .done)) rfl ?_
    exact .name hname rfl (.equals (.number (hvalue n rfl) rfl (.semicolon_line hrest)))

/-- Blanks before and after a printed part add nothing. -/
theorem Prints.line {α : Type} {part : Phrase α} {a : α} {text lead last : String}
    (h : Prints part a text) (hlead : Lexes lead.toList [])
    (hblank : lead.toList.getLast?.any Text.isWordPart = false) (hlast : Lexes last.toList [])
    (hblank' : last.toList.getLast?.any Text.isWordPart = false) :
    Prints part a (lead ++ text ++ last) := by
  obtain ⟨w, hw, hprints⟩ := h
  refine ⟨w, hw, fun hrest => ?_⟩
  simp only [String.toList_append, List.append_assoc]
  exact .literal (v := []) hlead hblank (hprints (.literal (v := []) hlast hblank' hrest))

/-- Parts printed one after the other. -/
theorem prints_map {α β : Type} {part : Phrase α} {f : β → α} {g : β → String} {bs : List β}
    (h : ∀ b ∈ bs, Prints part (f b) (g b)) :
    Prints (Many part) (bs.map f) (String.join (bs.map g)) := by
  induction bs with
  | nil => exact ⟨[], .nil, fun hrest => hrest⟩
  | cons b bs ih =>
    rw [List.forall_mem_cons] at h
    obtain ⟨u, hu, hfirst⟩ := h.1
    obtain ⟨w, hw, hothers⟩ := ih h.2
    refine ⟨u ++ w, .cons hu hw, fun hrest => ?_⟩
    rw [List.map_cons, String.join_cons, String.toList_append, List.append_assoc, List.append_assoc]
    exact hfirst (hothers hrest)

theorem prints_join {α : Type} {part : Phrase α} {g : α → String} {as : List α}
    (h : ∀ a ∈ as, Prints part a (g a)) : Prints (Many part) as (String.join (as.map g)) := by
  have hmap := prints_map (f := id) h
  rwa [List.map_id] at hmap

/-- The lines that a configuration is printed as. -/
def Config.lines (config : Config) : List ConfigLine :=
  config.baseUrl.toList.map .baseUrl ++ config.headers.map .header

private theorem Config.madeOf_lines (config : Config) : config.MadeOf config.lines := by
  have hnone : (config.headers.map ConfigLine.header).filterMap ConfigLine.baseUrl? = [] := by
    simp [ConfigLine.baseUrl?]
  have hsome : (config.headers.map ConfigLine.header).filterMap ConfigLine.header? =
      config.headers := by
    rw [List.filterMap_map]
    exact List.filterMap_some
  rw [madeOf_iff, lines, ofLines, List.filterMap_append, List.filterMap_append, hnone, hsome]
  obtain ⟨baseUrl, headers⟩ := config
  cases baseUrl <;> rfl

theorem Config.prints (config : Config) : Prints Config.Derives config config.print := by
  have hbase : ∃ base, Prints (Many ConfigLine.Derives) (config.baseUrl.toList.map .baseUrl) base ∧
      config.print = "config \x7b\n" ++ base
        ++ String.join (config.headers.map fun h => "  " ++ h.print ++ "\n") ++ "\x7d\n" := by
    obtain ⟨baseUrl, headers⟩ := config
    cases baseUrl with
    | none => exact ⟨"", ⟨[], .nil, fun hrest => hrest⟩, rfl⟩
    | some url =>
      refine ⟨_, ⟨_, .cons (.baseUrl url) .nil, fun hrest => ?_⟩, rfl⟩
      simp only [String.toList_append, List.append_assoc]
      refine .literal (v := [.keyword .baseUrl, .equals]) ?_ rfl (.quote (.semicolon_line hrest))
      exact .gap rfl (.gap rfl (.token rfl (by simp) (.gap rfl (.token rfl (by simp)
        (.gap rfl .done)))))
  have hheaders : Prints (Many ConfigLine.Derives) (config.headers.map .header)
      (String.join (config.headers.map fun h => "  " ++ h.print ++ "\n")) := by
    refine prints_map fun h _ => ?_
    obtain ⟨w, hw, hprints⟩ := h.prints
    have hline : Prints ConfigLine.Derives (.header h) h.print := ⟨w, .header hw, hprints⟩
    exact hline.line (.gap rfl (.gap rfl .done)) rfl (.gap rfl .done) rfl
  obtain ⟨base, ⟨u, hu, hprints⟩, htext⟩ := hbase
  obtain ⟨w, hw, hprints'⟩ := hheaders
  refine ⟨_, .mk (hu.append hw) config.madeOf_lines, fun hrest => ?_⟩
  simp only [htext, String.toList_append, List.append_assoc, List.cons_append, List.nil_append]
  refine .literal (v := [.keyword .config, .leftBrace]) ?_ rfl
    (hprints (hprints' (.literal (v := [.rightBrace]) ?_ rfl hrest)))
  · exact .token rfl (by simp) (.gap rfl (.token rfl (by simp) (.gap rfl .done)))
  · exact .token rfl (by simp) (.gap rfl .done)

theorem Body.prints (body : Option String) : Prints (Optional Body.Derives) body
    (match body with
      | some content => "    body = " ++ Text.quote content ++ ";\n"
      | none => "") := by
  cases body with
  | none => exact ⟨[], .none, fun hrest => hrest⟩
  | some content =>
    refine ⟨_, .some (.mk content), fun hrest => ?_⟩
    simp only [String.toList_append, List.append_assoc]
    refine .literal (v := [.keyword .body, .equals]) ?_ rfl (.quote (.semicolon_line hrest))
    exact .gap rfl (.gap rfl (.gap rfl (.gap rfl (.token rfl (by simp) (.gap rfl
      (.token rfl (by simp) (.gap rfl .done)))))))

theorem Request.prints (r : Request) : Prints Request.Derives r r.print := by
  obtain ⟨method, url, headers, body⟩ := r
  -- The line up to the end of the URL is the same with and without a block.
  have hhead {rest : List Char} {v : List TokenKind} (hrest : Lexes rest v) :
      Lexes ("  ".toList ++ (method.verb.toList ++ (" ".toList ++
        ((Text.quote url).toList ++ rest)))) (.keyword (.method method) :: .string url :: v) := by
    refine .literal (v := []) (.gap rfl (.gap rfl .done)) rfl (.method method rfl ?_)
    exact .literal (v := []) (.gap rfl .done) rfl (.quote hrest)
  by_cases hplain : (headers.isEmpty && body.isNone) = true
  · have hempty := hplain
    simp only [Bool.and_eq_true, List.isEmpty_iff, Option.isNone_iff_eq_none] at hempty
    obtain ⟨rfl, rfl⟩ := hempty
    refine ⟨_, .plain method url, fun hrest => ?_⟩
    simp only [Request.print, hplain, if_pos, String.toList_append, List.append_assoc]
    exact hhead (.semicolon_line hrest)
  · have hheaders : Prints (Many Header.Derives) headers
        (String.join (headers.map fun h => "    " ++ h.print ++ "\n")) :=
      prints_join fun h _ => h.prints.line (.gap rfl (.gap rfl (.gap rfl (.gap rfl .done)))) rfl
        (.gap rfl .done) rfl
    obtain ⟨u, hu, hprints⟩ := hheaders
    obtain ⟨w, hw, hprints'⟩ := Body.prints body
    refine ⟨_, .block method url hu hw, fun hrest => ?_⟩
    simp only [Request.print, hplain, Bool.false_eq_true, if_false, String.toList_append,
      List.append_assoc, List.cons_append, List.nil_append]
    refine hhead (.literal (v := [.leftBrace]) ?_ rfl (hprints (hprints'
      (.literal (v := [.rightBrace, .semicolon]) ?_ rfl hrest))))
    · exact .gap rfl (.token rfl (by simp) (.gap rfl .done))
    · exact .gap rfl (.gap rfl (.token rfl (by simp) (.token rfl (by simp) (.gap rfl .done))))

theorem Assertion.prints {a : Assertion}
    (hstatus : ∀ code, a = .statusEquals code → 100 ≤ code.toInt ∧ code.toInt ≤ 599) :
    Prints Assertion.Derives a a.print := by
  cases a with
  | statusEquals code =>
    obtain ⟨hmin, hmax⟩ := hstatus code rfl
    refine ⟨_, .mk (.statusEquals hmin hmax), fun hrest => ?_⟩
    show Lexes (("expect status = " ++ toString code.toInt ++ ";").toList ++ _) _
    simp only [String.toList_append, List.append_assoc]
    have hvalue : 0 ≤ code.toInt := Int.le_trans (by decide) hmin
    refine .literal (v := [.keyword .expect, .keyword .status, .equals]) ?_ rfl
      (.number hvalue rfl (.semicolon hrest))
    exact .token rfl (by simp) (.gap rfl (.token rfl (by simp) (.gap rfl
      (.token rfl (by simp) (.gap rfl .done)))))
  | headerEquals key value =>
    refine ⟨_, .mk (.headerEquals key value), fun hrest => ?_⟩
    show Lexes (("expect header " ++ Text.quote key ++ " = " ++ Text.quote value ++ ";").toList
      ++ _) _
    simp only [String.toList_append, List.append_assoc]
    refine .literal (v := [.keyword .expect, .keyword .header]) ?_ rfl
      (.quote (.equals (.quote (.semicolon hrest))))
    exact .token rfl (by simp) (.gap rfl (.token rfl (by simp) (.gap rfl .done)))
  | headerContains key value =>
    refine ⟨_, .mk (.headerContains key value), fun hrest => ?_⟩
    show Lexes (("expect header " ++ Text.quote key ++ " contains " ++ Text.quote value
      ++ ";").toList ++ _) _
    simp only [String.toList_append, List.append_assoc]
    refine .literal (v := [.keyword .expect, .keyword .header]) ?_ rfl
      (.quote (.literal (v := [.keyword .contains]) ?_ rfl (.quote (.semicolon hrest))))
    · exact .token rfl (by simp) (.gap rfl (.token rfl (by simp) (.gap rfl .done)))
    · exact .gap rfl (.token rfl (by simp) (.gap rfl .done))
  | bodyContains value =>
    refine ⟨_, .mk (.bodyContains value), fun hrest => ?_⟩
    show Lexes (("expect body contains " ++ Text.quote value ++ ";").toList ++ _) _
    simp only [String.toList_append, List.append_assoc]
    refine .literal (v := [.keyword .expect, .keyword .body, .keyword .contains]) ?_ rfl
      (.quote (.semicolon hrest))
    exact .token rfl (by simp) (.gap rfl (.token rfl (by simp) (.gap rfl
      (.token rfl (by simp) (.gap rfl .done)))))

theorem Statement.prints {statement : Statement}
    (hstatus : ∀ code, statement = .assertion (.statusEquals code) →
      100 ≤ code.toInt ∧ code.toInt ≤ 599) :
    Prints Statement.Derives statement statement.print := by
  cases statement with
  | request r =>
    obtain ⟨w, hw, hprints⟩ := r.prints
    exact ⟨w, .request hw, hprints⟩
  | assertion a =>
    obtain ⟨w, hw, hprints⟩ := Assertion.prints fun code ha => hstatus code (ha ▸ rfl)
    have hline : Prints Statement.Derives (.assertion a) a.print := ⟨w, .assertion hw, hprints⟩
    exact hline.line (.gap rfl (.gap rfl .done)) rfl (.gap rfl .done) rfl

theorem Test.prints {t : Test} (hname : IsName t.name) (hne : t.statements ≠ [])
    (hstatus : ∀ code, .assertion (.statusEquals code) ∈ t.statements →
      100 ≤ code.toInt ∧ code.toInt ≤ 599) : Prints Test.Derives t t.print := by
  obtain ⟨w, hw, hprints⟩ := prints_join fun (statement : Statement) hmem =>
    Statement.prints fun code hcode => hstatus code (hcode ▸ hmem)
  refine ⟨_, .mk t.name hw hne, fun hrest => ?_⟩
  simp only [Test.print, String.toList_append, List.append_assoc, List.cons_append,
    List.nil_append]
  refine .literal (v := [.keyword .test]) ?_ rfl (.name hname rfl
    (.literal (v := [.leftBrace]) ?_ rfl (hprints (.literal (v := [.rightBrace]) ?_ rfl hrest))))
  · exact .token rfl (by simp) (.gap rfl .done)
  · exact .gap rfl (.token rfl (by simp) (.gap rfl .done))
  · exact .token rfl (by simp) (.gap rfl .done)

/-- Parts printed with a blank line between each two. -/
private theorem prints_intercalate {α : Type} {part : Phrase α} {g : α → String} {as : List α}
    (h : ∀ a ∈ as, Prints part a (g a)) :
    Prints (Many part) as ("\n".intercalate (as.map g)) := by
  induction as with
  | nil => exact ⟨[], .nil, fun hrest => hrest⟩
  | cons a as ih =>
    rw [List.forall_mem_cons] at h
    obtain ⟨u, hu, hfirst⟩ := h.1
    obtain ⟨w, hw, hothers⟩ := ih h.2
    refine ⟨u ++ w, .cons hu hw, fun hrest => ?_⟩
    cases as with
    | nil =>
      cases hw
      rw [List.map_singleton, String.intercalate_singleton, List.append_nil]
      exact hfirst hrest
    | cons b as =>
      rw [List.map_cons, List.map_cons, String.intercalate_cons_cons]
      simp only [String.toList_append, List.append_assoc]
      exact hfirst (.literal (v := []) (.gap rfl .done) rfl (hothers hrest))

private theorem Variable.prints_all {declared : List Variable}
    (hname : ∀ v ∈ declared, IsName v.name)
    (hvalue : ∀ v ∈ declared, ∀ n, v.value = .integer n → 0 ≤ n.toInt) :
    Prints (Many Variable.Derives) declared (Variable.printAll declared) := by
  obtain ⟨w, hw, hprints⟩ := prints_join fun v hv => Variable.prints (hname v hv) (hvalue v hv)
  refine ⟨w, hw, fun hrest => ?_⟩
  unfold Variable.printAll
  split
  · next hempty =>
    obtain rfl := List.isEmpty_iff.1 hempty
    cases hw
    exact hrest
  · rw [String.toList_append, List.append_assoc]
    exact hprints (.literal (v := []) (.gap rfl .done) rfl hrest)

namespace Program

/-- The canonical text of a well-formed program is read as a derivation of it. -/
theorem WellFormed.prints {p : Program} (h : p.WellFormed) : Prints Program.Derives p p.print := by
  have hconfig : ∃ config, Prints (Optional Config.Derives) p.config config ∧
      p.print = config ++ Variable.printAll p.declarations
        ++ "\n".intercalate (p.tests.map Test.print) := by
    obtain ⟨config, declarations, tests⟩ := p
    cases config with
    | none => exact ⟨"", ⟨[], .none, fun hrest => hrest⟩, rfl⟩
    | some config =>
      obtain ⟨w, hw, hprints⟩ := config.prints
      refine ⟨_, ⟨w, .some hw, fun hrest => ?_⟩, rfl⟩
      rw [String.toList_append, List.append_assoc]
      exact hprints (.literal (v := []) (.gap rfl .done) rfl hrest)
  obtain ⟨config, ⟨u, hu, hprints⟩, htext⟩ := hconfig
  obtain ⟨v, hv, hprints'⟩ := Variable.prints_all h.variableName h.integer
  obtain ⟨w, hw, hprints''⟩ := prints_intercalate fun t ht =>
    Test.prints (h.testName t ht) (h.hasStatement t ht) (h.statusCode t ht)
  refine ⟨_, .mk hu hv hw h.hasTest, fun hrest => ?_⟩
  simp only [htext, String.toList_append, List.append_assoc]
  exact hprints (hprints' (hprints'' hrest))

/-- A well-formed program is read back from its text. -/
theorem parse_print {p : Program} (h : p.WellFormed) : parse p.print = .ok p := by
  obtain ⟨w, hw, hprints⟩ := h.prints
  have hlexes := hprints .done
  rw [List.append_nil, List.append_nil] at hlexes
  exact parse_eq_ok_iff.2 ⟨w, hlexes.kinds_eq, hw⟩

/-- Printing and parsing are inverse to each other on the well-formed programs, and these are all
that parsing returns; so the canonical form of a text is in canonical form. -/
theorem parse_print_exact :
    (∀ p : Program, parse p.print = .ok p ↔ p.WellFormed) ∧
    (∀ source p, parse source = .ok p →
      p.WellFormed ∧ roundTrip source = .ok p.print ∧ parse p.print = .ok p) ∧
    ∀ source, (roundTrip source).bind roundTrip = roundTrip source := by
  refine ⟨fun p => ⟨wellFormed_of_parse, parse_print⟩, ?_, ?_⟩
  · intro source p h
    have hp := wellFormed_of_parse h
    exact ⟨hp, by rw [roundTrip, h]; rfl, parse_print hp⟩
  · intro source
    cases h : parse source with
    | error e =>
      rw [roundTrip, h]
      rfl
    | ok p =>
      rw [roundTrip, h]
      show roundTrip p.print = .ok p.print
      rw [roundTrip, parse_print (wellFormed_of_parse h)]
      rfl

/-- A program whose strings need every escape, with numbers at the ends of their ranges. -/
theorem parse_print_exact_escapes :
    let p : Program :=
      { config := some { baseUrl := some "\\", headers := [⟨"\"", "\n\r\t//"⟩] }
        declarations := [⟨"limit", .integer 9223372036854775807⟩]
        tests := [⟨"t", [.assertion (.statusEquals 599)]⟩] }
    p.WellFormed ∧ parse p.print = .ok p ∧ roundTrip p.print = .ok p.print := by
  intro p
  have hp : p.WellFormed := by decide
  have hparse := (parse_print_exact.1 p).2 hp
  exact ⟨hp, hparse, (parse_print_exact.2.1 p.print p hparse).2.1⟩

end Program

end HttpSuite
