import Abacus.Expr.Parser
import Abacus.Token.Lexer

/-!
# Syntax errors by one scan

The parser keeps chains that wait and parentheses that are open. None of it is needed to find
the error of a list of tokens: it is enough to go through the tokens once, from left to right,
with a flag that says whether an operand is due and the number of open parentheses
(`Scan.run`). The parser fails exactly where this scan does, with the same fault and span, and
succeeds where the scan gets through (`parse_eq_error_iff_scan`).

The parser and the scan are related state by state: what the parser keeps is forgotten but for
the number of its groups (`leftover_readOperand_and_readOperator`).
-/

namespace Abacus

/-- Where a scan stands. -/
structure Scan where
  /-- Whether an operand is due; if not, one has just been read. -/
  due : Bool
  /-- How many parentheses are open. -/
  opened : Nat

namespace Scan

/-- Go past a token, where at most `limit` parentheses may be open at once. -/
def step (limit : Nat) (s : Scan) (token : Token) : Except SyntaxFault Scan :=
  if s.due then
    match token.kind with
    | .integer _ => .ok ⟨false, s.opened⟩
    | .leftParen =>
      if s.opened = limit then .error (.nestingTooDeep limit) else .ok ⟨true, s.opened + 1⟩
    | .invalid => .error (.unexpectedToken token.lexeme)
    | .operator _ | .rightParen => .error (.missingOperand token.lexeme)
  else
    match token.kind with
    | .operator _ => .ok ⟨true, s.opened⟩
    | .rightParen =>
      if s.opened = 0 then .error .unexpectedClosingParenthesis else .ok ⟨false, s.opened - 1⟩
    | .integer _ | .leftParen => .error (.missingOperator token.lexeme)
    | .invalid => .error (.unexpectedToken token.lexeme)

/-- End where no token is left. -/
def finish (s : Scan) : Except SyntaxFault Unit :=
  if s.due then .error .danglingOperator
  else if s.opened = 0 then .ok ()
  else .error .unclosedParenthesis

/-- Go past tokens up to the first that is at fault, and blame its span; a fault at the end is
blamed on the empty span at `stop`. -/
def run (limit stop : Nat) (s : Scan) : List Token → Except SyntaxError Unit
  | [] => s.finish.mapError fun fault => ⟨fault, .empty stop⟩
  | token :: rest =>
    match s.step limit token with
    | .error fault => .error ⟨fault, token.span⟩
    | .ok next => run limit stop next rest

/-- Scan a whole list of tokens. -/
def tokens (limit : Nat) (tokens : List Token) : Except SyntaxError Unit :=
  if tokens.isEmpty then .error ⟨.emptyExpression, .empty (Expr.endOf tokens)⟩
  else run limit (Expr.endOf tokens) ⟨true, 0⟩ tokens

end Scan

/-- The fault of a token after an operand, kind by kind. -/
theorem SyntaxFault.afterOperand_eq_match (token : Token) :
    afterOperand token = match token.kind with
      | .integer _ | .leftParen => .missingOperator token.lexeme
      | .operator _ | .rightParen | .invalid => .unexpectedToken token.lexeme := by
  rw [afterOperand]
  cases token.kind <;> rfl

namespace Expr

/-- What is wrong with a reading of the front of some tokens, as one of all of them. -/
def leftover : Except SyntaxError (Expr × List Token) → Except SyntaxError Unit
  | .error e => .error e
  | .ok (_, []) => .ok ()
  | .ok (_, token :: _) =>
    .error ⟨if token.kind = .rightParen then .unexpectedClosingParenthesis
      else .afterOperand token, token.span⟩

/-- The parser and the scan, state by state: of what the parser keeps, only the number of open
parentheses matters for the error. -/
theorem leftover_readOperand_and_readOperator {limit stop : Nat} (tokens : List Token)
    (groups : List Group) (p : Pending) (hg : groups.length ≤ limit) :
    leftover (readOperand ⟨limit, 0, 0, stop⟩ groups p tokens) =
        Scan.run limit stop ⟨true, groups.length⟩ tokens ∧
      ∀ e, leftover (readOperator ⟨limit, 0, 0, stop⟩ groups p e tokens) =
        Scan.run limit stop ⟨false, groups.length⟩ tokens := by
  induction tokens generalizing groups p with
  | nil =>
    constructor
    · rfl
    · intro e
      cases groups <;> rfl
  | cons token rest ih =>
    constructor
    · rw [readOperand, Scan.run, Scan.step]
      cases hk : token.kind with
      | integer value => exact (ih groups p hg).2 _
      | leftParen =>
        by_cases hl : groups.length = limit
        · simp [hl, leftover]
        · have hlt : ¬ limit ≤ groups.length := by omega
          simp only [Nat.zero_add, hl, hlt, if_false, if_true]
          exact (ih (⟨p, token.span⟩ :: groups) .empty (by rw [List.length_cons]; omega)).1
      | operator op | rightParen | invalid => rfl
    · intro e
      rw [Scan.run, Scan.step]
      cases groups with
      | nil =>
        cases hk : token.kind with
        | operator op =>
          simp only [readOperator, hk, Nat.not_lt_zero, if_false, Bool.false_eq_true]
          exact (ih [] (p.push e op) hg).1
        | rightParen =>
          simp only [readOperator, hk, leftover, List.length_nil, if_true, Bool.false_eq_true,
            if_false]
        | integer value | leftParen | invalid =>
          simp only [readOperator, hk, leftover, SyntaxFault.afterOperand_eq_match, reduceCtorEq,
            Bool.false_eq_true, if_false]
      | cons group outer =>
        cases hk : token.kind with
        | operator op =>
          simp only [readOperator, hk, if_false, Bool.false_eq_true]
          exact (ih (group :: outer) (p.push e op) hg).1
        | rightParen =>
          have ho : outer.length ≤ limit := by rw [List.length_cons] at hg; omega
          have hne : ¬ outer.length + 1 = 0 := Nat.succ_ne_zero _
          simp only [readOperator, hk, if_false, Bool.false_eq_true, List.length_cons, hne,
            Nat.add_sub_cancel]
          exact (ih outer group.before ho).2 _
        | integer value | leftParen | invalid =>
          simp only [readOperator, hk, leftover, SyntaxFault.afterOperand_eq_match,
            Bool.false_eq_true, if_false]

/-- The parser and the scan succeed and fail alike. -/
theorem map_parse (maxDepth : Nat) (tokens : List Token) :
    (parse maxDepth tokens).map (fun _ => ()) = Scan.tokens maxDepth tokens := by
  rw [parse, Scan.tokens]
  split
  · rfl
  · have h := (@leftover_readOperand_and_readOperator maxDepth (endOf tokens) tokens [] .empty
      (Nat.zero_le maxDepth)).1
    rw [List.length_nil] at h
    rw [← h, ← parseLeading]
    split <;> next heq => rw [heq]; rfl

theorem exists_parse_eq_ok_iff (maxDepth : Nat) (tokens : List Token) :
    (∃ e, parse maxDepth tokens = .ok e) ↔ Scan.tokens maxDepth tokens = .ok () := by
  rw [← map_parse]
  cases parse maxDepth tokens <;> simp [Except.map]

/-- **Syntax errors by one scan**: the parser fails with the error that the scan finds, the same
in kind, text and span, and succeeds if the scan finds none. -/
theorem parse_eq_error_iff_scan (maxDepth : Nat) (tokens : List Token) :
    (∀ error, parse maxDepth tokens = .error error ↔
      Scan.tokens maxDepth tokens = .error error) ∧
    ((∃ e, parse maxDepth tokens = .ok e) ↔ Scan.tokens maxDepth tokens = .ok ()) := by
  refine ⟨fun error => ?_, exists_parse_eq_ok_iff maxDepth tokens⟩
  rw [← map_parse]
  cases parse maxDepth tokens <;> simp [Except.map]

example : Scan.tokens 1 (tokenize "(1+(2".toList) = .error ⟨.nestingTooDeep 1, ⟨3, 4⟩⟩ := rfl

end Expr

end Abacus
