import Abacus.Calculator
import Abacus.Proofs.Recognition
import Abacus.Proofs.Spelling

/-!
# Validation and parsing

Of the three checks that are made before a text is parsed, only the one of the size of its
numbers rejects a text that would be parsed. The other two name a fault better than the parser
does, which would reject the text too: a character that no expression contains is no token that
can be read, and a sign stands where an operand is due.

So a calculator reads the texts that the parser accepts and whose numbers are small enough
(`Calculator.outcome_parse_eq_ok_iff`).

In a text that passes the checks every token is of a known kind. The parser then never calls a
token just unexpected (`fault_ne_unexpectedToken_of_validate`): it says which operand or operator
is missing, or which parenthesis.
-/

namespace Abacus

/-! ### Lexemes -/

theorem forall_isDigit_of_isChain {c : Char} {rest : Text} (hc : c.isDigit)
    (h : (c :: rest).IsChain fun a b => a.isDigit && b.isDigit) :
    ∀ b ∈ c :: rest, b.isDigit := by
  induction rest generalizing c with
  | nil => simpa using hc
  | cons b rest ih =>
    rw [List.isChain_cons_cons, Bool.and_eq_true] at h
    rw [List.forall_mem_cons]
    exact ⟨hc, ih h.1.2 h.2⟩

/-- A lexeme is a run of digits, or one character that is no digit. -/
theorem Text.lexeme_cases {s lexeme : Text} (h : lexeme ∈ s.lexemes) :
    (lexeme ≠ [] ∧ ∀ c ∈ lexeme, c.isDigit) ∨ ∃ c : Char, c.isDigit = false ∧ lexeme = [c] := by
  have hne : lexeme ≠ [] := List.ne_nil_of_mem_splitBy h
  have hchain := List.isChain_of_mem_splitBy h
  obtain ⟨c, rest, rfl⟩ := List.exists_cons_of_ne_nil hne
  by_cases hc : c.isDigit
  · exact .inl ⟨hne, forall_isDigit_of_isChain hc hchain⟩
  · rw [Bool.not_eq_true] at hc
    cases rest with
    | nil => exact .inr ⟨c, hc, rfl⟩
    | cons b rest =>
      rw [List.isChain_cons_cons, hc] at hchain
      exact absurd hchain.1 (by simp)

/-- A lexeme of a known kind has only characters of which expressions are made. -/
theorem isExpressionChar_of_mem_lexeme {s lexeme : Text} (h : lexeme ∈ s.lexemes)
    (hk : TokenKind.ofLexeme lexeme ≠ .invalid) : ∀ c ∈ lexeme, isExpressionChar c := by
  rcases Text.lexeme_cases h with ⟨-, hdigits⟩ | ⟨c, hc, rfl⟩
  · intro c hm
    simp [isExpressionChar, hdigits c hm]
  · rw [List.forall_mem_singleton]
    rw [TokenKind.ofLexeme, hc, if_neg (by simp), TokenKind.ofChar] at hk
    unfold isExpressionChar
    cases hop : Operator.ofSymbol? c with
    | some op => simp
    | none =>
      rw [hop] at hk
      by_cases hl : c = '('
      · simp [hl]
      · by_cases hr : c = ')'
        · simp [hr]
        · simp [hl, hr] at hk

/-! ### What the scan rules out -/

theorem TokenKind.isSign_of_isOperator {kind : TokenKind} (h : kind.isOperator = false) :
    kind.isSign = false := by
  cases kind with
  | operator op => cases h
  | integer | leftParen | rightParen | invalid => rfl

namespace Scan

/-- A step goes past no invalid token and past no operator where an operand is due, and after an
operator an operand is due. -/
theorem of_step_eq_ok {limit : Nat} {s next : Scan} {token : Token}
    (h : s.step limit token = .ok next) :
    token.kind ≠ .invalid ∧ (s.due → token.kind.isOperator = false) ∧
      (next.due = false → token.kind.isOperator = false) := by
  rw [step] at h
  cases hk : token.kind with
  | invalid => cases hdue : s.due <;> simp [hk, hdue] at h
  | operator op =>
    cases hdue : s.due with
    | true => simp [hk, hdue] at h
    | false =>
      rw [hk, hdue] at h
      obtain rfl := Except.ok.inj h
      simp
  | integer value | leftParen | rightParen => simp [TokenKind.isOperator]

theorem ne_invalid_of_run {limit stop : Nat} {s : Scan} {tokens : List Token}
    (h : run limit stop s tokens = .ok ()) : ∀ token ∈ tokens, token.kind ≠ .invalid := by
  induction tokens generalizing s with
  | nil => simp
  | cons token rest ih =>
    rw [run] at h
    cases hstep : s.step limit token with
    | error fault => simp [hstep] at h
    | ok next =>
      rw [hstep] at h
      rw [List.forall_mem_cons]
      exact ⟨(of_step_eq_ok hstep).1, ih h⟩

/-- In tokens that the scan gets through no sign stands before an operand. -/
theorem signedOperand?_of_run {limit stop : Nat} {s : Scan} {tokens : List Token}
    {previous : Option Token} (hp : s.due = false → ∃ p, previous = some p ∧ p.kind.isOperator = false)
    (h : run limit stop s tokens = .ok ()) : Validation.signedOperand? previous tokens = none := by
  induction tokens generalizing s previous with
  | nil => rfl
  | cons token rest ih =>
    rw [run] at h
    cases hstep : s.step limit token with
    | error fault => simp [hstep] at h
    | ok next =>
      rw [hstep] at h
      obtain ⟨-, hdue, hnext⟩ := of_step_eq_ok hstep
      have hsign : (token.kind.isSign && previous.all (·.kind.isOperator)) = false := by
        cases hd : s.due with
        | true => rw [TokenKind.isSign_of_isOperator (hdue hd), Bool.false_and]
        | false =>
          obtain ⟨p, rfl, hoperand⟩ := hp hd
          rw [Option.all_some, hoperand, Bool.and_false]
      rw [Validation.signedOperand?, hsign, Bool.false_and, if_neg Bool.false_ne_true]
      exact ih (fun hd => ⟨token, rfl, hnext hd⟩) h

end Scan

/-! ### The three checks -/

namespace Validation

theorem illegalCharacter?_eq_none_iff (offset : Nat) (s : Text) :
    illegalCharacter? offset s = none ↔ ∀ c ∈ s, isExpressionChar c := by
  induction s generalizing offset with
  | nil => simp [illegalCharacter?]
  | cons c rest ih =>
    rw [illegalCharacter?, List.forall_mem_cons]
    by_cases hc : isExpressionChar c
    · rw [if_pos hc, ih]
      simp [hc]
    · rw [if_neg hc]
      simp [hc]

theorem operandOutOfRange?_eq_none_iff (tokens : List Token) :
    operandOutOfRange? tokens = none ↔
      ∀ token ∈ tokens, ∀ value, token.kind = .integer value → 0 ≤ value ∧ value ≤ maxOperand := by
  induction tokens with
  | nil => simp [operandOutOfRange?]
  | cons token rest ih =>
    rw [operandOutOfRange?, List.forall_mem_cons]
    cases hk : token.kind with
    | integer value =>
      by_cases hv : 0 ≤ value ∧ value ≤ maxOperand
      · simp [hv, ih]
      · simp only [Bool.and_eq_true, decide_eq_true_eq, if_neg hv]
        simp [hv]
    | operator | leftParen | rightParen | invalid => simp [ih]

theorem exists_of_operandOutOfRange? {tokens : List Token} {error : ValidationError}
    (h : operandOutOfRange? tokens = some error) :
    ∃ operand position, error = .operandOutOfRange operand position := by
  induction tokens with
  | nil => cases h
  | cons token rest ih =>
    rw [operandOutOfRange?] at h
    split at h
    · split at h
      · exact ih h
      · exact ⟨_, _, (Option.some.inj h).symm⟩
    · exact ih h

theorem validate_eq_ok_iff (s : Text) :
    validate s = .ok () ↔ illegalCharacter? 0 s = none ∧ signedOperand? none (tokenize s) = none ∧
      operandOutOfRange? (tokenize s) = none := by
  unfold validate
  cases illegalCharacter? 0 s with
  | some e => simp
  | none =>
    cases signedOperand? none (tokenize s) with
    | some e => simp
    | none => cases operandOutOfRange? (tokenize s) <;> simp

end Validation

open Validation

/-- In a text that is parsed every character is legal, and no sign stands before an operand. -/
theorem legal_and_unsigned_of_parse {maxDepth : Nat} {s : Text} {e : Expr}
    (h : Expr.parse maxDepth (tokenize s) = .ok e) :
    illegalCharacter? 0 s = none ∧ signedOperand? none (tokenize s) = none := by
  have hscan : Scan.tokens maxDepth (tokenize s) = .ok () :=
    (Expr.exists_parse_eq_ok_iff maxDepth (tokenize s)).mp ⟨e, h⟩
  rw [Scan.tokens] at hscan
  split at hscan
  · cases hscan
  constructor
  · rw [illegalCharacter?_eq_none_iff]
    intro c hc
    rw [← s.flatten_lexemes] at hc
    obtain ⟨lexeme, hm, hc⟩ := List.mem_flatten.mp hc
    refine isExpressionChar_of_mem_lexeme hm ?_ c hc
    have hkind : TokenKind.ofLexeme lexeme ∈ (tokenize s).map Token.kind := by
      rw [map_kind_tokenize]
      exact List.mem_map_of_mem hm
    obtain ⟨token, htoken, hk⟩ := List.mem_map.mp hkind
    rw [← hk]
    exact Scan.ne_invalid_of_run hscan token htoken
  · exact Scan.signedOperand?_of_run (by simp) hscan

/-- Among texts that are parsed, the valid ones are those with small numbers. -/
theorem validate_eq_ok_iff_of_parse {maxDepth : Nat} {s : Text} {e : Expr}
    (h : Expr.parse maxDepth (tokenize s) = .ok e) :
    validate s = .ok () ↔
      ∀ token ∈ tokenize s, ∀ value, token.kind = .integer value → value ≤ maxOperand := by
  obtain ⟨hlegal, hsigned⟩ := legal_and_unsigned_of_parse h
  rw [validate_eq_ok_iff, operandOutOfRange?_eq_none_iff]
  constructor
  · rintro ⟨-, -, hrange⟩ token hm value hk
    exact (hrange token hm value hk).2
  · intro hrange
    refine ⟨hlegal, hsigned, fun token hm value hk => ⟨?_, hrange token hm value hk⟩⟩
    rw [Int64.le_iff_toInt_le, Int64.toInt_zero]
    exact toInt_nonneg_of_mem_tokenize hm hk

/-- A text that is parsed can be invalid for the size of a number only. -/
theorem eq_operandOutOfRange_of_parse {maxDepth : Nat} {s : Text} {e : Expr}
    (h : Expr.parse maxDepth (tokenize s) = .ok e) {error : ValidationError}
    (hv : validate s = .error error) :
    ∃ operand position, error = .operandOutOfRange operand position := by
  obtain ⟨hlegal, hsigned⟩ := legal_and_unsigned_of_parse h
  rw [validate, hlegal, hsigned] at hv
  cases hrange : operandOutOfRange? (tokenize s) with
  | none => simp [hrange] at hv
  | some found =>
    obtain rfl : found = error := by simpa [hrange] using hv
    exact exists_of_operandOutOfRange? hrange

/-- A calculator validates a text, and then parses it. -/
theorem Calculator.outcome_parse (calculator : Calculator) (s : Text) :
    (calculator.parse s).outcome = (validate s).mapError .invalid >>= fun _ =>
      (Expr.parse calculator.maxDepth (tokenize s)).mapError .ofSyntaxError := by
  unfold parse parseTraced
  cases validate s with
  | error e => rfl
  | ok =>
    cases Expr.parse calculator.maxDepth (tokenize s) <;> rfl

/-- **What a calculator reads**: the texts that are parsed and whose numbers are small enough. -/
theorem Calculator.outcome_parse_eq_ok_iff (calculator : Calculator) (s : Text) (e : Expr) :
    (calculator.parse s).outcome = .ok e ↔
      Expr.parse calculator.maxDepth (tokenize s) = .ok e ∧
        ∀ token ∈ tokenize s, ∀ value, token.kind = .integer value → value ≤ maxOperand := by
  rw [outcome_parse]
  constructor
  · intro h
    cases hvalid : validate s with
    | error error =>
      rw [hvalid] at h
      cases h
    | ok =>
      cases hparse : Expr.parse calculator.maxDepth (tokenize s) with
      | error error =>
        rw [hvalid, hparse] at h
        cases h
      | ok e' =>
        rw [hvalid, hparse] at h
        obtain rfl : e' = e := Except.ok.inj h
        exact ⟨rfl, (validate_eq_ok_iff_of_parse hparse).mp hvalid⟩
  · rintro ⟨hparse, hrange⟩
    rw [(validate_eq_ok_iff_of_parse hparse).mpr hrange, hparse]
    rfl

/-! ### Syntax errors of validated texts -/

/-- A lexeme made of characters of expressions is of a known kind. -/
theorem TokenKind.ofLexeme_ne_invalid {s lexeme : Text} (h : lexeme ∈ s.lexemes)
    (hc : ∀ c ∈ lexeme, isExpressionChar c) : ofLexeme lexeme ≠ .invalid := by
  rcases Text.lexeme_cases h with ⟨hne, hdigits⟩ | ⟨c, hdigit, rfl⟩
  · obtain ⟨c, rest, rfl⟩ := List.exists_cons_of_ne_nil hne
    rw [ofLexeme, if_pos (hdigits c (by simp))]
    exact TokenKind.noConfusion
  · rw [List.forall_mem_singleton] at hc
    rw [ofLexeme, hdigit, if_neg Bool.false_ne_true, ofChar]
    cases hop : Operator.ofSymbol? c with
    | some op => exact TokenKind.noConfusion
    | none =>
      have hparen : c = '(' ∨ c = ')' := by simpa [isExpressionChar, hdigit, hop] using hc
      rcases hparen with rfl | rfl <;> decide

theorem kind_ne_invalid_of_validate {s : Text} (h : validate s = .ok ()) :
    ∀ token ∈ tokenize s, token.kind ≠ .invalid := by
  intro token hm
  obtain ⟨hlegal, -, -⟩ := (Validation.validate_eq_ok_iff s).mp h
  rw [Validation.illegalCharacter?_eq_none_iff] at hlegal
  obtain ⟨hlexeme, hkind⟩ := Token.kind_eq_of_mem_place hm
  rw [hkind]
  refine TokenKind.ofLexeme_ne_invalid hlexeme fun c hc => hlegal c ?_
  rw [← s.flatten_lexemes]
  exact List.mem_flatten_of_mem hlexeme hc

namespace Scan

/-- A token of a known kind is never just unexpected: it stands where an operand or an operator
is missing, or a parenthesis too many. -/
theorem step_ne_unexpectedToken {token : Token} (hk : token.kind ≠ .invalid) (limit : Nat)
    (s : Scan) (found : Text) : s.step limit token ≠ .error (.unexpectedToken found) := by
  rw [step]
  split
  · cases h : token.kind with
    | invalid => exact absurd h hk
    | leftParen => simp only; split <;> simp
    | integer | operator | rightParen => simp
  · cases h : token.kind with
    | invalid => exact absurd h hk
    | rightParen => simp only; split <;> simp
    | integer | operator | leftParen => simp

theorem fault_ne_unexpectedToken_of_run {limit stop : Nat} {s : Scan} {tokens : List Token}
    (hk : ∀ token ∈ tokens, token.kind ≠ .invalid) {error : SyntaxError}
    (h : run limit stop s tokens = .error error) (found : Text) :
    error.fault ≠ .unexpectedToken found := by
  induction tokens generalizing s with
  | nil =>
    rw [run, finish] at h
    split at h
    · obtain rfl := Except.error.inj h
      simp
    · split at h
      · cases h
      · obtain rfl := Except.error.inj h
        simp
  | cons token rest ih =>
    rw [List.forall_mem_cons] at hk
    rw [run] at h
    cases hstep : s.step limit token with
    | error fault =>
      rw [hstep] at h
      obtain rfl := Except.error.inj h
      rintro rfl
      exact step_ne_unexpectedToken hk.1 limit s found hstep
    | ok next =>
      rw [hstep] at h
      exact ih hk.2 h

end Scan

/-- The syntax errors of a validated text name what is missing, or what is too much. -/
theorem fault_ne_unexpectedToken_of_validate {s : Text} (hv : validate s = .ok ()) {maxDepth : Nat}
    {error : SyntaxError} (h : Expr.parse maxDepth (tokenize s) = .error error) (found : Text) :
    error.fault ≠ .unexpectedToken found := by
  have hscan : Scan.tokens maxDepth (tokenize s) = .error error := by
    rw [← Expr.map_parse, h]
    rfl
  rw [Scan.tokens] at hscan
  split at hscan
  · obtain rfl := Except.error.inj hscan
    simp
  · exact Scan.fault_ne_unexpectedToken_of_run (kind_ne_invalid_of_validate hv) hscan found

/-- What bounds the values of the tokens bounds the numbers in the text, however many digits
they have. -/
theorem le_maxOperand_iff_of_mem_tokenize {s : Text} {token : Token} (hm : token ∈ tokenize s)
    {value : Int64} (hk : token.kind = .integer value) :
    value ≤ maxOperand ↔ Text.toNat token.lexeme ≤ 2147483647 := by
  have hvalue := toInt_eq_of_mem_tokenize hm hk
  have hbound : maxOperand.toInt = 2147483647 := rfl
  rw [Int64.le_iff_toInt_le, hvalue, hbound]
  unfold TokenKind.maxInteger
  omega

/-- **Validating first changes what is read only for large numbers**: a calculator reads a text
as an expression exactly if the parser does and no number in the text is above 2147483647. A text
that the parser accepts is rejected for its numbers only, never for a character or a sign. In a
text that passes validation the calculator finds the errors that the parser finds, and none of
them is an unexpected token. -/
theorem Calculator.parse_agrees_with_parser (calculator : Calculator) (s : Text) :
    (∀ e, (calculator.parse s).outcome = .ok e ↔
      Expr.parse calculator.maxDepth (tokenize s) = .ok e ∧
        ∀ token ∈ tokenize s, ∀ value, token.kind = .integer value → value ≤ maxOperand) ∧
    (∀ token ∈ tokenize s, ∀ value, token.kind = .integer value →
      (value ≤ maxOperand ↔ Text.toNat token.lexeme ≤ 2147483647)) ∧
    (∀ e, Expr.parse calculator.maxDepth (tokenize s) = .ok e →
      ∀ error, validate s = .error error →
        ∃ operand position, error = .operandOutOfRange operand position) ∧
    (validate s = .ok () →
      (calculator.parse s).outcome =
          (Expr.parse calculator.maxDepth (tokenize s)).mapError .ofSyntaxError ∧
        ∀ error, Expr.parse calculator.maxDepth (tokenize s) = .error error →
          ∀ found, error.fault ≠ .unexpectedToken found) := by
  refine ⟨calculator.outcome_parse_eq_ok_iff s, ?_, ?_, fun hv => ⟨?_, ?_⟩⟩
  · intro token hm value hk
    exact le_maxOperand_iff_of_mem_tokenize hm hk
  · intro e h error hv
    exact eq_operandOutOfRange_of_parse h hv
  · rw [calculator.outcome_parse, hv]
    rfl
  · intro error h found
    exact fault_ne_unexpectedToken_of_validate hv h found

/-- `1+(2-3)` is read; `4294967296` is rejected though it is an expression; `1+` is valid and no
expression. -/
theorem parse_agrees_with_parser_on_short_texts :
    (∃ e, Expr.parse 1 (tokenize "1+(2-3)".toList) = .ok e) ∧
    (∀ error, validate "4294967296".toList = .error error →
      ∃ operand position, error = .operandOutOfRange operand position) ∧
    ((Calculator.standard 1).parse "1+".toList).outcome =
      .error (.malformed ⟨.danglingOperator, ⟨2, 2⟩⟩) :=
  have hagree := Calculator.parse_agrees_with_parser (.standard 1)
  ⟨⟨_, (((hagree "1+(2-3)".toList).1 _).mp rfl).1⟩,
    (hagree "4294967296".toList).2.2.1 _ rfl,
    ((hagree "1+".toList).2.2.2 rfl).1⟩

end Abacus
