import HttpSuite.Proofs.Parse
import HttpSuite.Proofs.Places.Calls

/-!
# Reading sees kinds only

A reader asks of a text the kind of the token under decision and nothing else; where the token
stands shows only in the error that refuses it.  So if two states are related, and stay related when
both go on, no reader can tell them apart: it succeeds in both with the same tree, or fails in both
with errors that are related as the two refused tokens are.

This is said once, for any relation of states that going on keeps, and is then shown along the body
of each reader.  Its first use is for two texts with tokens of the same kinds.

## Main definitions

* `Reader.Matched`: the same outcome in related states.
* `Reader.Coupling`: a relation of states that going on keeps.
* `Reader.Uniform`: a reader that keeps every coupling.

## Main results

* `Reader.uniform_program`: reading a program keeps every coupling.
* `Program.parse_of_kinds_eq`: texts with tokens of the same kinds parse to the same program, or are
  refused for the same cause.
-/

namespace HttpSuite

namespace Reader

variable {α β : Type} {R : ReaderState → ReaderState → Prop} {E : SourceError → SourceError → Prop}

/-! ## Matched outcomes -/

/-- The same outcome: the same tree or related errors, and the states behind are related. -/
inductive Matched (R : ReaderState → ReaderState → Prop) (E : SourceError → SourceError → Prop) :
    EStateM.Result SourceError ReaderState α → EStateM.Result SourceError ReaderState α → Prop
  | ok (a : α) {s t : ReaderState} : R s t → Matched R E (.ok a s) (.ok a t)
  | error {e e' : SourceError} {s t : ReaderState} : E e e' → R s t →
    Matched R E (.error e s) (.error e' t)

/-- Related states have tokens of the same kind under decision, and they stay related when both go
on; the errors that refuse the two tokens are related. -/
structure Coupling (R : ReaderState → ReaderState → Prop)
    (E : SourceError → SourceError → Prop) : Prop where
  kind ⦃s t : ReaderState⦄ : R s t → s.current.kind = t.current.kind
  advance ⦃s t : ReaderState⦄ : R s t → Matched R E (advance s) (advance t)
  refuse ⦃s t : ReaderState⦄ : R s t → ∀ cause,
    E (.parse ⟨cause, s.current⟩) (.parse ⟨cause, t.current⟩)

/-- In related states the reader has the same outcome. -/
def Uniform (r : Reader α) : Prop :=
  ∀ ⦃R : ReaderState → ReaderState → Prop⦄ ⦃E : SourceError → SourceError → Prop⦄, Coupling R E →
    ∀ ⦃s t : ReaderState⦄, R s t → Matched R E (r s) (r t)

/-! ## Uniform readers -/

theorem uniform_pure (a : α) : Uniform (pure a : Reader α) := fun _ _ _ _ _ h => .ok a h

theorem uniform_advance : Uniform advance := fun _ _ hcoupling _ _ h => hcoupling.advance h

theorem uniform_refuse (cause : ParseError.Cause) : Uniform (refuse cause : Reader α) :=
  fun _ _ hcoupling _ _ h => .error (hcoupling.refuse h cause) h

theorem Matched.bind {r : Reader α} {f : α → Reader β} {s t : ReaderState}
    (h : Matched R E (r s) (r t)) (hf : ∀ a s' t', r s = .ok a s' → R s' t' →
      Matched R E (f a s') (f a t')) : Matched R E ((r >>= f) s) ((r >>= f) t) := by
  simp only [Bind.bind, EStateM.bind]
  generalize hs : r s = result at h
  generalize ht : r t = result' at h
  cases h with
  | ok a h => exact hf a _ _ hs h
  | error he h => exact .error he h

theorem Uniform.bind {r : Reader α} {f : α → Reader β} (hr : Uniform r)
    (hf : ∀ a, Uniform (f a)) : Uniform (r >>= f) :=
  fun _ _ hcoupling _ _ h => (hr hcoupling h).bind fun a _ _ _ h' => hf a hcoupling h'

/-- Deciding by the kind of the token under decision. -/
theorem Uniform.peek_bind {f : TokenKind → Reader β} (hf : ∀ kind, Uniform (f kind)) :
    Uniform (peek >>= f) := by
  intro R E hcoupling s t h
  have hmatched := hf s.current.kind hcoupling h
  have ht : (peek >>= f) t = f s.current.kind t := by
    rw [hcoupling.kind h]
    rfl
  rw [ht]
  exact hmatched

/-- Items are read for as long as one starts, in both texts. -/
theorem Uniform.many (item : Item α) (hitem : Uniform item.read) : Uniform (many item) := by
  intro R E hcoupling s
  induction hn : s.remaining using Nat.strong_induction_on generalizing s with
  | _ n ih =>
    intro t h
    have hkind := hcoupling.kind h
    cases hs : item.starts s.current.kind with
    | false =>
      rw [many_of_not_starts hs, many_of_not_starts (hkind ▸ hs)]
      exact .ok [] h
    | true =>
      rw [many_of_starts hs, many_of_starts (hkind ▸ hs)]
      refine (hitem hcoupling h).bind fun first s' t' hfirst h' => ?_
      -- An item was read, so less is left for the items behind it.
      have hlt : s'.remaining < n := hn ▸ item.shrinks hs hfirst
      exact (ih _ hlt rfl h').bind fun others _ _ _ h'' => .ok (first :: others) h''

/-! ## The readers of the grammar -/

theorem uniform_mark (kind : TokenKind) (place : ParseError.Place) : Uniform (mark kind place) := by
  refine .peek_bind fun found => ?_
  split
  · exact uniform_advance
  · exact uniform_refuse _

theorem uniform_string (role : ParseError.Role) : Uniform (string role) := by
  refine .peek_bind fun found => ?_
  split
  · exact uniform_advance.bind fun _ => uniform_pure _
  · exact uniform_refuse _

theorem uniform_name (role : ParseError.Role) : Uniform (name role) := by
  refine .peek_bind fun found => ?_
  split
  · exact uniform_advance.bind fun _ => uniform_pure _
  · exact uniform_refuse _

theorem uniform_header : Uniform header :=
  uniform_advance.bind fun _ =>
  (uniform_string _).bind fun _ =>
  (uniform_mark _ _).bind fun _ =>
  (uniform_string _).bind fun _ =>
  (uniform_mark _ _).bind fun _ => uniform_pure _

theorem uniform_baseUrl : Uniform baseUrl :=
  uniform_advance.bind fun _ =>
  (uniform_mark _ _).bind fun _ =>
  (uniform_string _).bind fun _ =>
  (uniform_mark _ _).bind fun _ => uniform_pure _

theorem uniform_configLine : Uniform configLine := by
  refine .peek_bind fun kind => ?_
  split
  · exact uniform_baseUrl.bind fun _ => uniform_pure _
  · exact uniform_header.bind fun _ => uniform_pure _

theorem uniform_configEnd : Uniform configEnd := by
  refine .peek_bind fun kind => ?_
  split
  · exact uniform_advance
  · exact uniform_refuse _

theorem uniform_config : Uniform config :=
  uniform_advance.bind fun _ =>
  (uniform_mark _ _).bind fun _ =>
  (Uniform.many configLines uniform_configLine).bind fun _ =>
  uniform_configEnd.bind fun _ => uniform_pure _

theorem uniform_config? : Uniform config? := by
  refine .peek_bind fun kind => ?_
  split
  · exact uniform_config.bind fun _ => uniform_pure _
  · exact uniform_pure _

theorem uniform_value : Uniform value := by
  refine .peek_bind fun kind => ?_
  split
  · exact uniform_advance.bind fun _ => uniform_pure _
  · exact uniform_advance.bind fun _ => uniform_pure _
  · exact uniform_refuse _

theorem uniform_declaration : Uniform declaration :=
  uniform_advance.bind fun _ =>
  (uniform_name _).bind fun _ =>
  (uniform_mark _ _).bind fun _ =>
  uniform_value.bind fun _ =>
  (uniform_mark _ _).bind fun _ => uniform_pure _

theorem uniform_body? : Uniform body? := by
  refine .peek_bind fun kind => ?_
  split
  · exact uniform_advance.bind fun _ =>
      (uniform_mark _ _).bind fun _ =>
      (uniform_string _).bind fun _ =>
      (uniform_mark _ _).bind fun _ => uniform_pure _
  · exact uniform_pure _

theorem uniform_requestEnd (method : Method) (url : String) : Uniform (requestEnd method url) := by
  refine .peek_bind fun kind => ?_
  split
  · exact uniform_advance.bind fun _ => uniform_pure _
  · exact uniform_advance.bind fun _ =>
      (Uniform.many headers uniform_header).bind fun _ =>
      uniform_body?.bind fun _ =>
      (uniform_mark _ _).bind fun _ =>
      (uniform_mark _ _).bind fun _ => uniform_pure _
  · exact uniform_refuse _

theorem uniform_request (method : Method) : Uniform (request method) :=
  uniform_advance.bind fun _ =>
  (uniform_string _).bind fun _ => uniform_requestEnd _ _

theorem uniform_statusCode : Uniform statusCode := by
  refine .peek_bind fun kind => ?_
  split
  · split
    · exact uniform_advance.bind fun _ => uniform_pure _
    · exact uniform_refuse _
  · exact uniform_refuse _

theorem uniform_headerRelation (key : String) : Uniform (headerRelation key) := by
  refine .peek_bind fun kind => ?_
  split
  · exact uniform_advance.bind fun _ => (uniform_string _).bind fun _ => uniform_pure _
  · exact uniform_advance.bind fun _ => (uniform_string _).bind fun _ => uniform_pure _
  · exact uniform_refuse _

theorem uniform_expectation : Uniform expectation := by
  refine .peek_bind fun kind => ?_
  split
  · exact uniform_advance.bind fun _ =>
      (uniform_mark _ _).bind fun _ =>
      uniform_statusCode.bind fun _ => uniform_pure _
  · exact uniform_advance.bind fun _ =>
      (uniform_string _).bind fun _ => uniform_headerRelation _
  · exact uniform_advance.bind fun _ =>
      (uniform_mark _ _).bind fun _ =>
      (uniform_string _).bind fun _ => uniform_pure _
  · exact uniform_refuse _

theorem uniform_assertion : Uniform assertion :=
  uniform_advance.bind fun _ =>
  uniform_expectation.bind fun _ =>
  (uniform_mark _ _).bind fun _ => uniform_pure _

theorem uniform_statement : Uniform statement := by
  refine .peek_bind fun kind => ?_
  split
  · exact (uniform_request _).bind fun _ => uniform_pure _
  · exact uniform_assertion.bind fun _ => uniform_pure _
  · exact uniform_refuse _

theorem uniform_someStatement (statements : List Statement) :
    Uniform (someStatement statements) := by
  unfold someStatement
  split
  · exact uniform_refuse _
  · exact uniform_pure _

theorem uniform_test : Uniform test :=
  uniform_advance.bind fun _ =>
  (uniform_name _).bind fun _ =>
  (uniform_mark _ _).bind fun _ =>
  (Uniform.many statements uniform_statement).bind fun _ =>
  (uniform_someStatement _).bind fun _ =>
  (uniform_mark _ _).bind fun _ => uniform_pure _

theorem uniform_finish (tests : List Test) : Uniform (finish tests) := by
  refine .peek_bind fun kind => ?_
  split
  · split
    · exact uniform_refuse _
    · exact uniform_pure _
  · exact uniform_refuse _
  · exact uniform_refuse _
  · exact uniform_refuse _

/-- Reading a program keeps every coupling. -/
theorem uniform_program : Uniform program :=
  uniform_config?.bind fun _ =>
  (Uniform.many declarations uniform_declaration).bind fun _ =>
  (Uniform.many tests uniform_test).bind fun _ =>
  (uniform_finish _).bind fun _ => uniform_pure _

end Reader

/-! ## Texts with tokens of the same kinds -/

namespace ReaderState

/-- The text has ended, and going on stays there. -/
def Ended (s : ReaderState) : Prop :=
  s.current.kind = .endOfFile ∧ Reader.advance s = .ok () s

/-- The tokens ahead have the same kinds, up to the end of the text. -/
def SameKinds (s t : ReaderState) : Prop :=
  ∃ w last last', Steps s w last ∧ Steps t w last' ∧ last.Ended ∧ last'.Ended

end ReaderState

/-- The two errors refuse tokens of one kind for the same cause. -/
inductive SourceError.SameRefusal : SourceError → SourceError → Prop
  | parse (cause : ParseError.Cause) {found found' : Token} : found.kind = found'.kind →
    SameRefusal (.parse ⟨cause, found⟩) (.parse ⟨cause, found'⟩)

open ReaderState

/-- What is the same up to the end of the text stays so when both readers go on. -/
theorem coupling_sameKinds : Reader.Coupling SameKinds SourceError.SameRefusal := by
  have hkind : ∀ ⦃s t⦄, SameKinds s t → s.current.kind = t.current.kind := by
    rintro s t ⟨w, last, last', hs, ht, hlast, hlast'⟩
    exact ht.kind_eq hs (hlast.1.trans hlast'.1.symm)
  refine ⟨hkind, fun s t h => ?_, fun s t h cause => .parse cause (hkind h)⟩
  obtain ⟨w, last, last', hs, ht, hlast, hlast'⟩ := h
  cases w with
  | nil =>
    obtain rfl := steps_nil.1 hs
    obtain rfl := steps_nil.1 ht
    rw [hlast.2, hlast'.2]
    exact .ok () ⟨[], _, _, hs, ht, hlast, hlast'⟩
  | cons kind w =>
    obtain ⟨-, -, middle, hadvance, hs⟩ := steps_cons.1 hs
    obtain ⟨-, -, middle', hadvance', ht⟩ := steps_cons.1 ht
    rw [hadvance, hadvance']
    exact .ok () ⟨w, last, last', hs, ht, hlast, hlast'⟩

/-- A text that is tokenized is faced by a reader that can go on to its end. -/
theorem exists_faces_of_tokenize {source : String} {tokens : List Token}
    (h : tokenize source = .ok tokens) : ∃ s w last, (Cursor.ofString source).Faces s ∧
      Steps s w last ∧ last.Ended ∧ tokens.map Token.kind = w ++ [.endOfFile] := by
  obtain ⟨tokens, cursor, final, after, hyields, hnext, hend, rfl⟩ := Cursor.tokenize_eq_ok_iff.1 h
  have hlast := Cursor.faces_of_next hnext
  obtain ⟨s, hs⟩ := hyields.exists_faces hlast
  have hsteps := hs.steps_iff.2 ⟨tokens, cursor, hyields, rfl, hlast⟩
  refine ⟨s, _, _, hs, hsteps, ⟨hend, ?_⟩, ?_⟩
  · rw [Cursor.advance_of_next, Cursor.next_behind_end hnext hend]
  · rw [List.map_append, List.map_singleton, hend]

/-- Texts with tokens of the same kinds parse to the same program, or are refused for the same
cause at tokens of the same kind. -/
theorem Program.parse_of_kinds_eq {source source' : String} {tokens tokens' : List Token}
    (h : tokenize source = .ok tokens) (h' : tokenize source' = .ok tokens')
    (hkinds : tokens'.map Token.kind = tokens.map Token.kind) :
    (∃ p, parse source = .ok p ∧ parse source' = .ok p) ∨
      ∃ e e' : ParseError, parse source = .error (.parse e) ∧ parse source' = .error (.parse e') ∧
        e'.cause = e.cause ∧ e'.found.kind = e.found.kind := by
  obtain ⟨s, w, last, hs, hsteps, hlast, hw⟩ := exists_faces_of_tokenize h
  obtain ⟨t, w', last', ht, hsteps', hlast', hw'⟩ := exists_faces_of_tokenize h'
  rw [hw, hw'] at hkinds
  obtain rfl := List.append_cancel_right hkinds
  have hmatched := Reader.uniform_program coupling_sameKinds
    ⟨w', last, last', hsteps, hsteps', hlast, hlast'⟩
  rw [parse_of_faces hs, parse_of_faces ht, ReaderState.read, ReaderState.read]
  generalize Reader.program s = result at hmatched
  generalize Reader.program t = result' at hmatched
  cases hmatched with
  | ok p _ => exact .inl ⟨p, rfl, rfl⟩
  | error he _ =>
    cases he with
    | parse cause hfound => exact .inr ⟨_, _, rfl, rfl, rfl, hfound.symm⟩

end HttpSuite
