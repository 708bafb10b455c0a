import HttpSuite.Proofs.Pulls
import HttpSuite.Proofs.Reading.Program

/-!
# Parsing is the grammar

A source text parses if its tokens are derivable, and the program it parses to is the tree of the
derivation.  A source text that does not parse is refused at the first token with which no program
can go on, or at the first lexeme that is no token, whichever comes first.

Both follow from one run of the reader.  That it accepts every derivation, together with the fact
that it sees nothing behind the token under decision, also shows that a refused token was rightly
refused: if some program went on with it, the reader would have to accept that program, and yet it
cannot tell the two texts apart.

## Main definitions

* `Grammar.Inherited`: properties that words inherit from their parts.

## Main results

* `Grammar.Inherited.program`: the words of a program have all such properties.
* `Program.Derives.unique`: a derivation determines its tree.
* `Program.parse_eq_ok_iff`, `Program.parse_eq_lex_iff`,
  `Program.firstOffence_of_parse_eq_parse`: the three outcomes of parsing, in terms of the tokens of
  the text.
* `Program.parse_iff_derives`: parsing accepts the grammar and builds its trees.
* `Program.parse_refuses_first_offence`: parsing refuses the first token that cannot go on.
-/

namespace HttpSuite

open Grammar

/-! ## Derived words -/

namespace Grammar

variable {α : Type} {Q : List TokenKind → Prop}

/-- A property that words inherit from their parts: it holds of words without braces that do not
end, of words that are joined, and of blocks. -/
structure Inherited (Q : List TokenKind → Prop) : Prop where
  plain ⦃w : List TokenKind⦄ : TokenKind.leftBrace ∉ w → TokenKind.rightBrace ∉ w →
    TokenKind.endOfFile ∉ w → Q w
  append ⦃v w : List TokenKind⦄ : Q v → Q w → Q (v ++ w)
  block ⦃w : List TokenKind⦄ : Q w → Q (.leftBrace :: (w ++ [.rightBrace]))

/-- All words of the part have the property. -/
def Throughout (Q : List TokenKind → Prop) (part : Phrase α) : Prop := ∀ a w, part a w → Q w

namespace Inherited

variable (h : Inherited Q)

include h

theorem nil : Q [] := h.plain List.not_mem_nil List.not_mem_nil List.not_mem_nil

theorem many {part : Phrase α} (hpart : Throughout Q part) : Throughout Q (Many part) := by
  intro as w has
  induction has with
  | nil => exact h.nil
  | cons ha _ ih => exact h.append (hpart _ _ ha) ih

theorem optional {part : Phrase α} (hpart : Throughout Q part) : Throughout Q (Optional part) := by
  intro o w ho
  cases ho with
  | none => exact h.nil
  | some ha => exact hpart _ _ ha

theorem header : Throughout Q Header.Derives := by
  intro a w hw
  cases hw
  exact h.plain (by simp) (by simp) (by simp)

theorem configLine : Throughout Q ConfigLine.Derives := by
  intro line w hw
  cases hw with
  | baseUrl => exact h.plain (by simp) (by simp) (by simp)
  | header ha => exact h.header _ _ ha

theorem config : Throughout Q Config.Derives := by
  intro c w hw
  cases hw with
  | mk hlines _ =>
    have hword : Q [.keyword .config] := h.plain (by simp) (by simp) (by simp)
    exact h.append hword (h.block (h.many h.configLine _ _ hlines))

theorem declaration : Throughout Q Variable.Derives := by
  intro v w hw
  cases hw with
  | mk name hvalue => cases hvalue <;> exact h.plain (by simp) (by simp) (by simp)

theorem body : Throughout Q Body.Derives := by
  intro b w hw
  cases hw
  exact h.plain (by simp) (by simp) (by simp)

theorem request : Throughout Q Request.Derives := by
  intro r w hw
  cases hw with
  | plain => exact h.plain (by simp) (by simp) (by simp)
  | block method url hheaders hbody =>
    have hcall : Q [.keyword (.method method), .string url] :=
      h.plain (by simp) (by simp) (by simp)
    have hend : Q [.semicolon] := h.plain (by simp) (by simp) (by simp)
    have hinside := h.append (h.many h.header _ _ hheaders) (h.optional h.body _ _ hbody)
    simpa using h.append hcall (h.append (h.block hinside) hend)

theorem statement : Throughout Q Statement.Derives := by
  intro a w hw
  cases hw with
  | request hr => exact h.request _ _ hr
  | assertion ha =>
    cases ha with
    | mk ha => cases ha <;> exact h.plain (by simp) (by simp) (by simp)

theorem test : Throughout Q Test.Derives := by
  intro t w hw
  cases hw with
  | mk name hall _ =>
    have hhead : Q [.keyword .test, .identifier name] := h.plain (by simp) (by simp) (by simp)
    exact h.append hhead (h.block (h.many h.statement _ _ hall))

/-- The words of a program have every property that words inherit from their parts. -/
theorem program : Throughout Q Program.Derives := by
  intro p w hw
  cases hw with
  | mk hconfig hdeclared hall _ =>
    have hfront := h.append (h.optional h.config _ _ hconfig) (h.many h.declaration _ _ hdeclared)
    exact h.append hfront (h.many h.test _ _ hall)

end Inherited

/-- No words of a program contain the end of the text. -/
theorem endless_program : Throughout (TokenKind.endOfFile ∉ ·) Program.Derives := by
  refine Inherited.program ⟨fun w _ _ hw => hw, fun v w hv hw => ?_, fun w hw => ?_⟩
  · simpa using ⟨hv, hw⟩
  · simpa using hw

end Grammar

/-- Some text has these token kinds ahead and then ends. -/
theorem ReaderState.exists_steps {w : List TokenKind} (h : TokenKind.endOfFile ∉ w) :
    ∃ s after, Steps s w after ∧ after.current.kind = .endOfFile := by
  induction w with
  | nil => exact ⟨⟨⟨.endOfFile, {}⟩, .ended {}⟩, _, .refl _, rfl⟩
  | cons kind w ih =>
    rw [List.mem_cons, not_or] at h
    obtain ⟨s, after, hsteps, hend⟩ := ih h.2
    refine ⟨⟨⟨kind, {}⟩, .more (.ok s.current) s.ahead⟩, after, ?_, hend⟩
    exact steps_cons.2 ⟨rfl, Ne.symm h.1, s, rfl, hsteps⟩

namespace Program

/-- A derivation determines its tree. -/
theorem Derives.unique {p q : Program} {w : List TokenKind} (hp : p.Derives w)
    (hq : q.Derives w) : p = q := by
  obtain ⟨s, after, hsteps, hend⟩ := ReaderState.exists_steps (endless_program p w hp)
  have hreads (r : Program) (hr : r.Derives w) : Reader.program s = .ok r after :=
    (Reader.reads_program.ok_iff trivial).2 ⟨w, hsteps, hr, hend⟩
  have hsame := (hreads p hp).symm.trans (hreads q hq)
  cases hsame
  rfl

/-- A token that the reader refuses cannot stand there in any program. -/
theorem not_viable_of_fails {w : List TokenKind} {kind : TokenKind}
    (h : ∀ t last, ReaderState.Steps t w last → last.current.kind = kind →
      Reader.Fails Reader.program t) : ¬ Viable (w ++ [kind]) := by
  intro hviable
  obtain ⟨p, rest, hp⟩ := hviable
  obtain ⟨s, after, hsteps, hend⟩ := ReaderState.exists_steps (endless_program p _ hp)
  have hok := (Reader.reads_program.ok_iff trivial).2 ⟨_, hsteps, hp, hend⟩
  rw [List.append_assoc] at hsteps
  obtain ⟨middle, hw, hrest⟩ := ReaderState.steps_append.1 hsteps
  obtain ⟨e, last, hfails⟩ := h s middle hw (ReaderState.steps_cons.1 hrest).1
  rw [hok] at hfails
  cases hfails

/-! ## The outcomes of parsing -/

open Cursor

/-- Parsing a text that starts with a token is reading from that token. -/
theorem parse_of_faces {source : String} {s : ReaderState}
    (h : (Cursor.ofString source).Faces s) : parse source = s.read.1 := by
  rw [parse, ofString_eq_ok_iff.2 h]

/-- A text that parses was read from its first token. -/
theorem exists_read_of_parse_eq_ok {source : String} {p : Program} (h : parse source = .ok p) :
    ∃ s after, (Cursor.ofString source).Faces s ∧ Reader.program s = .ok p after := by
  cases hs : ReaderState.ofString source with
  | error e =>
    rw [parse, hs] at h
    cases h
  | ok s =>
    have hfaces := ofString_eq_ok_iff.1 hs
    rw [parse_of_faces hfaces, ReaderState.read] at h
    cases hread : Reader.program s with
    | error e after =>
      rw [hread] at h
      cases h
    | ok q after =>
      rw [hread] at h
      cases h
      exact ⟨s, after, hfaces, hread⟩

/-- A text that does not parse has no first token, or was read from it in vain. -/
theorem exists_read_of_parse_eq_error {source : String} {e : SourceError}
    (h : parse source = .error e) :
    (∃ slip, e = .lex slip ∧ (Cursor.ofString source).next.1 = .error slip) ∨
      ∃ s after, (Cursor.ofString source).Faces s ∧ Reader.program s = .error e after := by
  cases hs : ReaderState.ofString source with
  | error slip =>
    rw [parse, hs] at h
    cases h
    exact .inl ⟨slip, rfl, ofString_eq_error_iff.1 hs⟩
  | ok s =>
    have hfaces := ofString_eq_ok_iff.1 hs
    rw [parse_of_faces hfaces, ReaderState.read] at h
    cases hread : Reader.program s with
    | ok p after =>
      rw [hread] at h
      cases h
    | error e' after =>
      rw [hread] at h
      cases h
      exact .inr ⟨s, after, hfaces, hread⟩

/-- A text parses if its tokens are derivable, and to the tree of the derivation. -/
theorem parse_eq_ok_iff {source : String} {p : Program} : parse source = .ok p ↔
    ∃ w, (tokenize source).map (List.map Token.kind) = .ok (w ++ [.endOfFile]) ∧ p.Derives w := by
  constructor
  · intro h
    obtain ⟨s, after, hfaces, hread⟩ := exists_read_of_parse_eq_ok h
    obtain ⟨w, hsteps, hp, hend⟩ := (Reader.reads_program.ok_iff trivial).1 hread
    obtain ⟨tokens, last, hyields, rfl, final, after', hnext, rfl⟩ := hfaces.steps_iff.1 hsteps
    exact ⟨_, kinds_eq_ok_iff.2 ⟨tokens, last, final, after', hyields, hnext, hend, rfl⟩, hp⟩
  · intro h
    obtain ⟨w, hkinds, hp⟩ := h
    obtain ⟨tokens, last, final, after, hyields, hnext, hend, rfl⟩ := kinds_eq_ok_iff.1 hkinds
    have hlast := faces_of_next hnext
    obtain ⟨s, hfaces⟩ := hyields.exists_faces hlast
    have hsteps := hfaces.steps_iff.2 ⟨tokens, last, hyields, rfl, hlast⟩
    have hread := (Reader.reads_program.ok_iff trivial).2 ⟨_, hsteps, hp, hend⟩
    rw [parse_of_faces hfaces, ReaderState.read, hread]

/-- A text that a lexeme spoils is read as a program up to that lexeme. -/
theorem viable_of_parse_eq_lex {source : String} {e : LexError}
    (h : parse source = .error (.lex e)) : ∃ tokens last, Yields (.ofString source) tokens last ∧
      last.next.1 = .error e ∧ Viable (tokens.map Token.kind) := by
  rcases exists_read_of_parse_eq_error h with ⟨slip, hslip, hpull⟩ | ⟨s, after, hfaces, hread⟩
  · cases hslip
    exact ⟨[], _, .refl _, hpull, Begins.nil Reader.reads_program.productive⟩
  · obtain ⟨w, middle, hsteps, hadvance, hviable⟩ := Reader.reads_program.broken trivial hread
    obtain ⟨tokens, last, hyields, rfl, token, next, hnext, rfl⟩ := hfaces.steps_iff.1 hsteps
    -- The reader never goes on from the end of the text, since no program contains it.
    have hne : token.kind ≠ .endOfFile := by
      intro hend
      obtain ⟨p, rest, hp⟩ := hviable
      exact endless_program p _ hp (by simp [hend])
    refine ⟨tokens ++ [token], next, hyields.append_one hnext hne, ?_, ?_⟩
    · rw [advance_of_next] at hadvance
      split at hadvance
      · cases hadvance
      · next slip after' hnext' =>
        cases hadvance
        rw [hnext']
    · rw [List.map_append]
      exact hviable

/-- A refused token stands behind the beginning of a program, and whatever looks the same up to it
is refused as well. -/
theorem fails_of_parse_eq_parse {source : String} {e : ParseError}
    (h : parse source = .error (.parse e)) : ∃ tokens last after,
      Yields (.ofString source) tokens last ∧ last.next = (.ok e.found, after) ∧
        Viable (tokens.map Token.kind) ∧
        ∀ t final, ReaderState.Steps t (tokens.map Token.kind) final →
          final.current.kind = e.found.kind → Reader.Fails Reader.program t := by
  rcases exists_read_of_parse_eq_error h with ⟨slip, hslip, -⟩ | ⟨s, after, hfaces, hread⟩
  · cases hslip
  · obtain ⟨hfound, w, hsteps, hviable, hfails⟩ := Reader.reads_program.refused trivial hread
    obtain ⟨tokens, last, hyields, rfl, token, next, hnext, rfl⟩ := hfaces.steps_iff.1 hsteps
    rw [hfound]
    exact ⟨tokens, last, next, hyields, hnext, hviable, hfails⟩

/-- In the text, `found` is the first token with which no program can go on: the tokens before it
begin some program, and no program goes on with it, or, if it is the end, none ends there. -/
structure FirstOffence (source : String) (before : List Token) (found : Token) : Prop where
  stands : (before ++ [found]).map .ok <+: (Lexer.ofString source).collect
  viable : Viable (before.map Token.kind)
  offends : if found.kind = .endOfFile then ∀ p : Program, ¬ p.Derives (before.map Token.kind)
    else ¬ Viable ((before ++ [found]).map Token.kind)

/-- A refused token is the first offence. -/
theorem firstOffence_of_parse_eq_parse {source : String} {e : ParseError}
    (h : parse source = .error (.parse e)) : ∃ before, FirstOffence source before e.found := by
  obtain ⟨tokens, last, after, hyields, hnext, hviable, hfails⟩ := fails_of_parse_eq_parse h
  refine ⟨tokens, ?_, hviable, ?_⟩
  · refine ⟨Lexer.collect ⟨after, Lexer.isLast (.ok e.found)⟩, ?_⟩
    have hcollect : (Lexer.ofString source).collect = _ := hyields.collect_eq
    rw [hcollect, Cursor.collect_eq, hnext]
    simp
  · split
    · next hend =>
      -- A program that ended here would have been read.
      intro p hp
      have hkinds := kinds_eq_ok_iff.2 ⟨tokens, last, _, after, hyields, hnext, hend, rfl⟩
      have hok := parse_eq_ok_iff.2 ⟨_, hkinds, hp⟩
      rw [hok] at h
      cases h
    · rw [List.map_append]
      exact not_viable_of_fails hfails

/-- A refused token stands before every malformed lexeme. -/
theorem refused_before_error {source : String} {refusal : ParseError} {e : LexError}
    {tokens : List Token} {last : Cursor} (h : parse source = .error (.parse refusal))
    (hyields : Yields (.ofString source) tokens last) (hpull : last.next.1 = .error e) :
    ∃ before behind, tokens = before ++ refusal.found :: behind ∧
      ¬ Viable ((before ++ [refusal.found]).map Token.kind) := by
  obtain ⟨before, final, after, hbefore, hnext, -, hfails⟩ := fails_of_parse_eq_parse h
  have hne : refusal.found.kind ≠ .endOfFile := by
    intro hend
    have hall := tokenize_eq_ok_iff.2 ⟨before, final, _, after, hbefore, hnext, hend, rfl⟩
    rw [tokenize_eq_error_iff.2 ⟨tokens, last, hyields, hpull⟩] at hall
    cases hall
  obtain ⟨behind, rfl⟩ := (hbefore.append_one hnext hne).prefix_of_spent hyields
    (spent_of_error hpull)
  refine ⟨before, behind, List.append_assoc _ _ _, ?_⟩
  rw [List.map_append]
  exact not_viable_of_fails hfails

/-- A malformed lexeme spoils a text if the tokens before it begin a program. -/
theorem parse_eq_lex_iff {source : String} {e : LexError} : parse source = .error (.lex e) ↔
    ∃ tokens last, Yields (.ofString source) tokens last ∧ last.next.1 = .error e ∧
      Viable (tokens.map Token.kind) := by
  constructor
  · exact viable_of_parse_eq_lex
  · intro h
    obtain ⟨tokens, last, hyields, hpull, hviable⟩ := h
    have hslip := tokenize_eq_error_iff.2 ⟨tokens, last, hyields, hpull⟩
    cases hparse : parse source with
    | ok p =>
      obtain ⟨w, hkinds, -⟩ := parse_eq_ok_iff.1 hparse
      rw [hslip] at hkinds
      cases hkinds
    | error e' =>
      cases e' with
      | lex e' =>
        obtain ⟨tokens', last', hyields', hpull', -⟩ := viable_of_parse_eq_lex hparse
        have hslip' := tokenize_eq_error_iff.2 ⟨tokens', last', hyields', hpull'⟩
        rw [hslip] at hslip'
        cases hslip'
        rfl
      | parse e' =>
        -- The refused token would be one of those that begin a program.
        obtain ⟨before, behind, rfl, hnot⟩ := refused_before_error hparse hyields hpull
        rw [List.append_cons, List.map_append] at hviable
        exact absurd (Begins.of_append hviable) hnot

/-- Parsing accepts the texts whose tokens the grammar derives, and builds the tree of the
derivation, of which there is only one. -/
theorem parse_iff_derives :
    (∀ (source : String) (p : Program), parse source = .ok p ↔
      ∃ w, (tokenize source).map (List.map Token.kind) = .ok (w ++ [.endOfFile]) ∧ p.Derives w) ∧
    ∀ (w : List TokenKind) (p q : Program), p.Derives w → q.Derives w → p = q :=
  ⟨fun _ _ => parse_eq_ok_iff, fun _ _ _ => Derives.unique⟩

/-- The later of two base URLs counts, also with a header between them. -/
theorem parse_iff_derives_two_base_urls :
    let p : Program :=
      { config := some { baseUrl := some "b", headers := [⟨"k", "v"⟩] }
        declarations := []
        tests := [⟨"t", [.request ⟨.get, "/", [], none⟩]⟩] }
    parse ("config \x7b base_url = \"a\"; header \"k\" = \"v\"; base_url = \"b\"; \x7d " ++
      "test t \x7b GET \"/\"; \x7d") = .ok p ∧
      ∃ w, p.Derives w ∧ ∀ q : Program, q.Derives w → q = p := by
  intro p
  have hlines := Many.cons (ConfigLine.Derives.baseUrl "a")
    (.cons (.header (.mk "k" "v")) (.cons (.baseUrl "b") .nil))
  have hconfig : Config.Derives ⟨some "b", [⟨"k", "v"⟩]⟩ _ := .mk hlines (Config.madeOf_iff.2 rfl)
  have htest : Test.Derives ⟨"t", [.request ⟨.get, "/", [], none⟩]⟩ _ :=
    .mk "t" (.cons (.request (.plain .get "/")) .nil) (List.cons_ne_nil _ _)
  have hp : p.Derives _ := .mk (.some hconfig) .nil (.cons htest .nil) (List.cons_ne_nil _ _)
  refine ⟨(parse_iff_derives.1 _ p).2 ⟨_, ?_, hp⟩, _, hp, ?_⟩
  · with_unfolding_all rfl
  · intro q hq
    exact parse_iff_derives.2 _ q p hq hp

/-- A text that does not parse is refused at its first offending token, or at its first malformed
lexeme if the tokens before that begin a program. -/
theorem parse_refuses_first_offence (source : String) :
    (∀ e, parse source = .error e →
      (∃ slip, e = .lex slip) ∨
      ∃ refusal before found, e = .parse refusal ∧ FirstOffence source before found ∧
        refusal.line = found.span.line ∧ refusal.column = found.span.column ∧
        refusal.context = "found " ++ found.kind.display) ∧
    ∀ slip, parse source = .error (.lex slip) ↔ tokenize source = .error slip ∧
      ∃ before : List Token, (Lexer.ofString source).collect = before.map .ok ++ [.error slip] ∧
        Viable (before.map Token.kind) := by
  constructor
  · intro e h
    cases e with
    | lex slip => exact .inl ⟨slip, rfl⟩
    | parse refusal =>
      obtain ⟨before, hoffence⟩ := firstOffence_of_parse_eq_parse h
      exact .inr ⟨refusal, before, refusal.found, rfl, hoffence, rfl, rfl, rfl⟩
  · intro slip
    rw [parse_eq_lex_iff]
    constructor
    · intro h
      obtain ⟨tokens, last, hyields, hpull, hviable⟩ := h
      have hcollect := hyields.collect_ofString (spent_of_error hpull)
      rw [hpull] at hcollect
      exact ⟨tokenize_eq_error_iff.2 ⟨tokens, last, hyields, hpull⟩, tokens, hcollect, hviable⟩
    · intro h
      obtain ⟨hslip, before, hcollect, hviable⟩ := h
      obtain ⟨tokens, last, hyields, hpull⟩ := tokenize_eq_error_iff.1 hslip
      have hsame := hyields.collect_ofString (spent_of_error hpull)
      rw [hcollect, hpull] at hsame
      have hbefore : before = tokens :=
        (List.map_inj_right fun _ _ => Except.ok.inj).1 (List.append_cancel_right hsame)
      rw [hbefore] at hviable
      exact ⟨tokens, last, hyields, hpull, hviable⟩

/-- The brace is refused although a character behind it is no token. -/
theorem parse_refuses_first_offence_brace :
    let source := "test a \x7d @"
    let refusal : ParseError :=
      { cause := .missing .leftBrace .afterTestName
        found := ⟨.rightBrace, { start := 7, stop := 8, line := 1, column := 8 }⟩ }
    parse source = .error (.parse refusal) ∧
      ∃ before found, FirstOffence source before found ∧ refusal.line = found.span.line ∧
        refusal.column = found.span.column ∧ refusal.context = "found " ++ found.kind.display := by
  intro source refusal
  have hparse : parse source = .error (.parse refusal) := by
    simp only [source, refusal]
    set_option maxRecDepth 2000 in with_unfolding_all rfl
  refine ⟨hparse, ?_⟩
  rcases (parse_refuses_first_offence source).1 _ hparse with ⟨slip, hslip⟩ | hrefused
  · cases hslip
  · obtain ⟨refusal', before, found, hrefusal, hoffence, hplace⟩ := hrefused
    cases hrefusal
    exact ⟨before, found, hoffence, hplace⟩

end Program

end HttpSuite
