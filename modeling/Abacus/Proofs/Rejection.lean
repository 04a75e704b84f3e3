import Abacus.Proofs.Verdict

/-!
# What a rejection points at

A text that is no expression is rejected with an error that has a span. The span is one of the text,
and the slice there is what the error is about: the character, the sign or the number that is not
allowed, the token that was not expected, or nothing at the end of the text if something is missing
there (`Calculator.rejection_points_at_fragment`).

The offsets come from different places. Validation was described by the characters of the text
(`IsVerdict`), and the parser blames a token or the end. Here all of them are brought to one form: the
text falls into what is before the slice, the slice, and what is behind it (`Span.Marks`). For tokens
it is enough that they are the lexemes of the text in their order, and for the parser that its errors
are those of the scan, which blames the token that it looks at.
-/

namespace Abacus

/-! ### Parts of a text -/

/-- The span is that of a piece of a text, with `before` and `behind` around the piece. -/
structure Span.Marks (span : Span) (before piece behind s : Text) : Prop where
  text_eq : s = before ++ piece ++ behind
  span_eq : span = ⟨Text.byteSize before, Text.byteSize before + Text.byteSize piece⟩

variable {s before piece behind : Text} {span : Span}

theorem Span.Marks.bounds (h : span.Marks before piece behind s) :
    span.start ≤ span.stop ∧ span.stop ≤ Text.byteSize s := by
  obtain ⟨rfl, rfl⟩ := h
  rw [Text.byteSize_append, Text.byteSize_append]
  exact ⟨Nat.le_add_right _ _, Nat.le_add_right _ _⟩

/-- The piece is what a text has between the two offsets, which do not cut a character. -/
theorem Span.Marks.slice? (h : span.Marks before piece behind s) :
    s.slice? span.start span.stop = some piece := by
  obtain ⟨rfl, rfl⟩ := h
  exact Text.slice?_append before piece behind

/-- The end of a text is behind all of it. -/
theorem Span.marks_empty (s : Text) : (Span.empty (Text.byteSize s)).Marks s [] [] s where
  text_eq := by rw [List.append_nil, List.append_nil]
  span_eq := rfl

theorem Span.Marks.eq_empty (h : span.Marks before [] [] s) : span = .empty (Text.byteSize s) := by
  obtain ⟨rfl, rfl⟩ := h
  simp [Span.empty]

/-! ### Tokens in their text -/

/-- **A token of a text stands in it**, and if it is a number it is a whole one. -/
theorem marks_of_mem_tokenize {token : Token} (h : token ∈ tokenize s) :
    ∃ before behind, token.span.Marks before token.lexeme behind s ∧
      ((∀ c ∈ token.lexeme, c.isDigit) → IsWholeNumber before token.lexeme behind) := by
  obtain ⟨ts, ts', hts⟩ := List.append_of_mem h
  obtain ⟨l, l', hl, -, htoken⟩ := Token.exists_lexemes_of_place_eq_append hts
  obtain ⟨rest, rfl, hoffset, -⟩ := Token.exists_lexemes_of_place_eq_cons htoken.symm
  refine ⟨l.flatten, rest.flatten, ⟨?_, ?_⟩, fun hd => isWholeNumber_of_lexemes hl hd⟩
  · rw [List.append_assoc, ← List.flatten_cons, ← List.flatten_append, ← hl, s.flatten_lexemes]
  · simp [Token.span, Token.stop, hoffset]

/-! ### Rejections before parsing -/

/-- What a rejection says of its fragment is true: it is a character that no expression contains, a
sign, or a whole number that is too large. -/
def ValidationError.IsTrueOf (before behind : Text) : ValidationError → Prop
  | illegalCharacter c _ => isExpressionChar c = false
  | signedOperand sign _ => sign = '+' ∨ sign = '-'
  | operandOutOfRange operand _ =>
    IsWholeNumber before operand behind ∧ 2147483647 < Text.toNat operand

/-- The rejected piece stands in the text at the span of the error. -/
def ValidationError.PointsInto (s : Text) (e : ValidationError) : Prop :=
  ∃ before behind, e.span.Marks before e.fragment behind s ∧ e.IsTrueOf before behind

/-- **Whatever rejects a text before it is parsed stands in it**, and what is said of it is true. -/
theorem pointsInto_of_validate {error : ValidationError} (h : validate s = .error error) :
    error.PointsInto s := by
  have hverdict := isVerdict_validate s
  rw [h] at hverdict
  cases hverdict with
  | illegal hfirst =>
    obtain ⟨c, hc, hillegal⟩ := hfirst.holds
    obtain rfl := (List.cons.inj hc).1
    refine ⟨_, _, ⟨hfirst.split, rfl⟩, ?_⟩
    rwa [← isExpressionChar_iff, Bool.not_eq_true] at hillegal
  | signed _ hfirst =>
    obtain ⟨sign, hc, hsign, -⟩ := hfirst.holds
    obtain rfl := (List.cons.inj hc).1
    exact ⟨_, _, ⟨hfirst.split, rfl⟩, hsign⟩
  | tooLarge _ _ hfirst => exact ⟨_, _, ⟨hfirst.split, rfl⟩, hfirst.holds⟩

/-! ### Rejections by the parser -/

namespace SyntaxFault

/-- The piece of the text that a fault is about; nothing if something is missing at the end. -/
def fragment : SyntaxFault → Text
  | missingOperand found | missingOperator found | unexpectedToken found => found
  | unexpectedClosingParenthesis => [')']
  | nestingTooDeep _ => ['(']
  | emptyExpression | danglingOperator | unclosedParenthesis => []

/-- What a fault says of its fragment is true: where an operand is missing there is an operator or
a closing parenthesis, where an operator is missing there is a whole number or an opening one, an
unexpected token is a character that no expression contains, and behind what ends too early there is
nothing. -/
def IsTrueOf (before behind : Text) : SyntaxFault → Prop
  | missingOperand found => found = [')'] ∨ ∃ op : Operator, found = [op.symbol]
  | missingOperator found => found = ['('] ∨ IsWholeNumber before found behind
  | unexpectedToken found => ∃ c, found = [c] ∧ isExpressionChar c = false
  | emptyExpression => before = [] ∧ behind = []
  | danglingOperator | unclosedParenthesis => behind = []
  | unexpectedClosingParenthesis | nestingTooDeep _ => True

end SyntaxFault

/-- The piece that an error is about stands in the text at the span of the error. -/
def SyntaxError.PointsInto (s : Text) (e : SyntaxError) : Prop :=
  ∃ before behind, e.span.Marks before e.fault.fragment behind s ∧ e.fault.IsTrueOf before behind

/-- An error that has nothing to point at stands where the text ends. -/
theorem SyntaxError.PointsInto.span_eq_empty {e : SyntaxError} (h : e.PointsInto s)
    (hf : e.fault.fragment = []) : e.span = .empty (Text.byteSize s) := by
  obtain ⟨before, behind, hmarks, htrue⟩ := h
  rw [hf] at hmarks
  cases hk : e.fault with
  | missingOperand found =>
    rw [hk] at hf htrue
    obtain rfl : found = [] := hf
    rcases htrue with h | ⟨op, h⟩ <;> cases h
  | missingOperator found =>
    rw [hk] at hf htrue
    obtain rfl : found = [] := hf
    rcases htrue with h | h
    · cases h
    · exact absurd rfl h.ne_nil
  | unexpectedToken found =>
    rw [hk] at hf htrue
    obtain ⟨c, rfl, -⟩ := htrue
    cases hf
  | unexpectedClosingParenthesis | nestingTooDeep limit =>
    rw [hk] at hf
    cases hf
  | emptyExpression =>
    rw [hk] at htrue
    obtain ⟨-, rfl⟩ := htrue
    exact hmarks.eq_empty
  | danglingOperator | unclosedParenthesis =>
    rw [hk] at htrue
    obtain rfl := htrue
    exact hmarks.eq_empty

namespace Scan

/-- A step that fails blames the lexeme of its token. -/
theorem fault_of_step {limit : Nat} {scan : Scan} {token : Token} {fault : SyntaxFault}
    (h : scan.step limit token = .error fault) (hl : token.kind.IsWrittenAs token.lexeme)
    (hw : (∀ c ∈ token.lexeme, c.isDigit) → IsWholeNumber before token.lexeme behind) :
    fault.fragment = token.lexeme ∧ fault.IsTrueOf before behind := by
  rw [step] at h
  cases hdue : scan.due with
  | true =>
    cases hk : token.kind <;> simp only [hk, hdue, if_true, reduceCtorEq] at h hl
    case leftParen =>
      split at h
      · obtain rfl := Except.error.inj h
        exact ⟨hl.symm, trivial⟩
      · cases h
    case operator op =>
      obtain rfl := Except.error.inj h
      exact ⟨rfl, .inr ⟨op, hl⟩⟩
    case rightParen =>
      obtain rfl := Except.error.inj h
      exact ⟨rfl, .inl hl⟩
    case invalid =>
      obtain rfl := Except.error.inj h
      exact ⟨rfl, hl⟩
  | false =>
    cases hk : token.kind <;> simp only [hk, hdue, Bool.false_eq_true, if_false, reduceCtorEq] at h hl
    case integer value =>
      obtain rfl := Except.error.inj h
      exact ⟨rfl, .inr (hw hl)⟩
    case leftParen =>
      obtain rfl := Except.error.inj h
      exact ⟨rfl, .inl hl⟩
    case rightParen =>
      split at h
      · obtain rfl := Except.error.inj h
        exact ⟨hl.symm, trivial⟩
      · cases h
    case invalid =>
      obtain rfl := Except.error.inj h
      exact ⟨rfl, hl⟩

/-- A scan fails at a token, or where the tokens end. -/
theorem run_eq_error {limit stop : Nat} {scan : Scan} {tokens : List Token} {error : SyntaxError}
    (h : run limit stop scan tokens = .error error) :
    (∃ token ∈ tokens, ∃ scan' : Scan, scan'.step limit token = .error error.fault ∧
      error.span = token.span) ∨
      (error.fault = .danglingOperator ∨ error.fault = .unclosedParenthesis) ∧
        error.span = .empty stop := by
  induction tokens generalizing scan with
  | nil =>
    refine .inr ?_
    rw [run, finish] at h
    split at h
    · obtain rfl := Except.error.inj h
      exact ⟨.inl rfl, rfl⟩
    · split at h
      · cases h
      · obtain rfl := Except.error.inj h
        exact ⟨.inr rfl, rfl⟩
  | cons token rest ih =>
    rw [run] at h
    cases hstep : scan.step limit token with
    | error fault =>
      rw [hstep] at h
      obtain rfl := Except.error.inj h
      exact .inl ⟨token, List.mem_cons_self, scan, hstep, rfl⟩
    | ok next =>
      rw [hstep] at h
      rcases ih h with ⟨token', hm, hfails⟩ | hend
      · exact .inl ⟨token', List.mem_cons_of_mem _ hm, hfails⟩
      · exact .inr hend

end Scan

/-- The tokens of a text end where it ends. -/
theorem endOf_tokenize (s : Text) : Expr.endOf (tokenize s) = Text.byteSize s := by
  have htile := tile_tokenize s
  rcases List.eq_nil_or_concat (tokenize s) with h | ⟨tokens, token, h⟩
  · rw [h] at htile ⊢
    exact htile
  · rw [List.concat_eq_append] at h
    rw [h, Token.tile_append] at htile
    obtain ⟨middle, -, -, -, hstop⟩ := htile
    simp only [h, Expr.endOf, List.getLast?_concat, Option.map_some, Option.getD_some]
    exact hstop

/-- **A syntax error points at what it names.** -/
theorem SyntaxError.pointsInto_of_parse {maxDepth : Nat} {error : SyntaxError}
    (h : Expr.parse maxDepth (tokenize s) = .error error) : error.PointsInto s := by
  have hscan : Scan.tokens maxDepth (tokenize s) = .error error := by
    rw [← Expr.map_parse, h]
    rfl
  rw [Scan.tokens, endOf_tokenize] at hscan
  split at hscan
  next hempty =>
    obtain rfl := Except.error.inj hscan
    have htile := tile_tokenize s
    rw [List.isEmpty_iff.mp hempty] at htile
    obtain rfl := (Text.byteSize_eq_zero_iff s).mp htile.symm
    exact ⟨[], [], Span.marks_empty [], rfl, rfl⟩
  next =>
    rcases Scan.run_eq_error hscan with ⟨token, hm, scan, hstep, hspan⟩ | ⟨hfault, hspan⟩
    · obtain ⟨before, behind, hmarks, hwhole⟩ := marks_of_mem_tokenize hm
      obtain ⟨hfragment, htrue⟩ := Scan.fault_of_step hstep (isWrittenAs_of_mem_tokenize hm) hwhole
      refine ⟨before, behind, ?_, htrue⟩
      rwa [hspan, hfragment]
    · refine ⟨s, [], ?_, ?_⟩
      · rw [hspan]
        rcases hfault with hfault | hfault
        · rw [hfault]
          exact Span.marks_empty s
        · rw [hfault]
          exact Span.marks_empty s
      · rcases hfault with hfault | hfault <;> rw [hfault] <;> rfl

/-! ### All rejections -/

namespace EvalError

/-- The piece of the text that an error is about; for an operation that is the operation itself. -/
def fragment : EvalError → Text
  | invalid e => e.fragment
  | malformed e => e.fault.fragment
  | nestingTooDeep limit _ => (SyntaxFault.nestingTooDeep limit).fragment
  | overflow expression _ | undefined expression _ => expression

/-- What an error says of its fragment is true. No operation is rejected before it is computed. -/
def IsTrueOf (before behind : Text) : EvalError → Prop
  | invalid e => e.IsTrueOf before behind
  | malformed e => e.fault.IsTrueOf before behind
  | nestingTooDeep limit _ => (SyntaxFault.nestingTooDeep limit).IsTrueOf before behind
  | overflow .. | undefined .. => False

/-- The piece that an error is about stands in the text at the span of the error. -/
def PointsInto (s : Text) (e : EvalError) : Prop :=
  ∃ before behind, e.span.Marks before e.fragment behind s ∧ e.IsTrueOf before behind

theorem PointsInto.span_eq_empty {e : EvalError} (h : e.PointsInto s) (hf : e.fragment = []) :
    e.span = .empty (Text.byteSize s) := by
  cases e with
  | invalid e =>
    obtain ⟨before, behind, -, htrue⟩ := h
    cases e with
    | illegalCharacter | signedOperand => cases hf
    | operandOutOfRange operand position => exact absurd hf htrue.1.ne_nil
  | malformed e => exact SyntaxError.PointsInto.span_eq_empty h hf
  | overflow | undefined => exact h.elim fun _ h => h.elim fun _ h => h.2.elim
  | nestingTooDeep limit span => cases hf

theorem pointsInto_ofSyntaxError {e : SyntaxError} (h : e.PointsInto s) :
    (ofSyntaxError e).PointsInto s := by
  obtain ⟨fault, span⟩ := e
  cases fault <;> exact h

end EvalError

namespace Calculator

theorem pointsInto_of_parse {calculator : Calculator} {error : EvalError}
    (h : (calculator.parse s).outcome = .error error) : error.PointsInto s := by
  rw [calculator.outcome_parse] at h
  cases hv : validate s with
  | error e =>
    rw [hv] at h
    obtain rfl := Except.error.inj h
    exact pointsInto_of_validate hv
  | ok =>
    cases hp : Expr.parse calculator.maxDepth (tokenize s) with
    | ok => rw [hv, hp] at h; cases h
    | error e =>
      rw [hv, hp] at h
      obtain rfl := Except.error.inj h
      exact EvalError.pointsInto_ofSyntaxError (SyntaxError.pointsInto_of_parse hp)

/-- **A rejection points at what it names.** If a text is rejected, before it is parsed or by the
parser, the span of the error is one of the text: its bounds are in order and cut no character. The
slice there is the fragment of the error, and what the error says of it is true; an error without a
fragment stands at the end of the text. The same goes for the syntax errors of a text that was not
validated. -/
theorem rejection_points_at_fragment (calculator : Calculator) (s : Text) :
    (∀ error, (calculator.parse s).outcome = .error error →
      error.span.start ≤ error.span.stop ∧ error.span.stop ≤ Text.byteSize s ∧
      s.slice? error.span.start error.span.stop = some error.fragment ∧
      (error.fragment = [] → error.span = .empty (Text.byteSize s)) ∧ error.PointsInto s) ∧
    ∀ maxDepth error, Expr.parse maxDepth (tokenize s) = .error error →
      error.span.start ≤ error.span.stop ∧ error.span.stop ≤ Text.byteSize s ∧
      s.slice? error.span.start error.span.stop = some error.fault.fragment ∧
      (error.fault.fragment = [] → error.span = .empty (Text.byteSize s)) ∧
      error.PointsInto s := by
  constructor
  · intro error h
    have hpoints := pointsInto_of_parse h
    have ⟨before, behind, hmarks, _⟩ := hpoints
    exact ⟨hmarks.bounds.1, hmarks.bounds.2, hmarks.slice?, hpoints.span_eq_empty, hpoints⟩
  · intro maxDepth error h
    have hpoints := SyntaxError.pointsInto_of_parse h
    have ⟨before, behind, hmarks, _⟩ := hpoints
    exact ⟨hmarks.bounds.1, hmarks.bounds.2, hmarks.slice?, hpoints.span_eq_empty, hpoints⟩

/-- In `2é+1` the character of two bytes is blamed; `é` without validation is an unexpected token;
and `(1+2` ends too early. -/
theorem rejection_points_at_fragment_of_short_texts :
    (((standard 1).parse "2é+1".toList).outcome =
        .error (.invalid (.illegalCharacter 'é' 1)) ∧
      Text.slice? "2é+1".toList 1 3 = some ['é']) ∧
    (Expr.parse 1 (tokenize "é".toList) = .error ⟨.unexpectedToken ['é'], ⟨0, 2⟩⟩ ∧
      Text.slice? "é".toList 0 2 = some ['é']) ∧
    ((standard 1).parse "(1+2".toList).outcome =
        .error (.malformed ⟨.unclosedParenthesis, ⟨4, 4⟩⟩) ∧
      Span.mk 4 4 = .empty (Text.byteSize "(1+2".toList) := by
  have hillegal : ((standard 1).parse "2é+1".toList).outcome =
      .error (.invalid (.illegalCharacter 'é' 1)) := rfl
  have hunexpected : Expr.parse 1 (tokenize "é".toList) =
      .error ⟨.unexpectedToken ['é'], ⟨0, 2⟩⟩ := rfl
  have hunclosed : ((standard 1).parse "(1+2".toList).outcome =
      .error (.malformed ⟨.unclosedParenthesis, ⟨4, 4⟩⟩) := rfl
  exact ⟨⟨hillegal, ((rejection_points_at_fragment (standard 1) _).1 _ hillegal).2.2.1⟩,
    ⟨hunexpected, ((rejection_points_at_fragment (standard 1) _).2 1 _ hunexpected).2.2.1⟩,
    hunclosed, ((rejection_points_at_fragment (standard 1) _).1 _ hunclosed).2.2.2.1 rfl⟩

end Calculator

end Abacus
