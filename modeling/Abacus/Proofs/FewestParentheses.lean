import Abacus.Proofs.Replacement
import Abacus.Proofs.RoundTrip
import Abacus.Proofs.Tokenization

/-!
# No parentheses are printed in vain

If a pair of parentheses is taken out of the text of a plain expression, the text can still be read,
but as another expression, also when spans are forgotten and chains are spliced
(`IsPlain.parse_without_parentheses`).

It would be tedious to follow how the operators group without the pair, at any depth and on both
sides. It is enough to count. What is printed for a parsed expression has no more parentheses than
the text that was parsed (`IsA.count_text_le`). An expression that is the same but for spans and
splicing is printed as the same text, and that has one parenthesis more than the text without the
pair.

That the text can be read is seen by the scan. It passes what is between the parentheses with one
parenthesis less open before it just as well, because nothing there closes one that was open before.
And no digits come to stand side by side: in front of the pair an operand is due, and behind it an
operator.
-/

namespace Abacus

/-! ### Balanced texts -/

namespace Text

/-- Whether a text closes all parentheses that it opens and the `opened` before it, and no
others. -/
def closes (opened : Nat) : Text → Bool
  | [] => opened == 0
  | c :: rest =>
    if c = '(' then closes (opened + 1) rest
    else if c = ')' then opened != 0 && closes (opened - 1) rest
    else closes opened rest

/-- The parentheses of a text match each other: each that is opened is closed, and each that is
closed was opened before. So a parenthesis in front of the text matches the one behind it. -/
def IsBalanced (s : Text) : Prop := s.closes 0

theorem closes_append_of_forall {s : Text} (h : ∀ c ∈ s, c ≠ '(' ∧ c ≠ ')') (opened : Nat)
    (rest : Text) : closes opened (s ++ rest) = closes opened rest := by
  induction s with
  | nil => rfl
  | cons c s ih =>
    rw [List.forall_mem_cons] at h
    rw [List.cons_append, closes, if_neg h.1.1, if_neg h.1.2, ih h.2]

end Text

namespace TokenKind

variable {kind : TokenKind} {lexeme : Text}

/-- A parenthesis is opened by a token of this kind only. -/
theorem IsWrittenAs.count_eq (h : kind.IsWrittenAs lexeme) :
    lexeme.count '(' = [kind].count .leftParen := by
  cases hp : kind.isParenthesis with
  | false =>
    have hmem : '(' ∉ lexeme := fun hm => (h.ne_parenthesis hp _ hm).1 rfl
    have hne : kind ≠ .leftParen := by
      rintro rfl
      cases hp
    rw [List.count_eq_zero.mpr hmem, List.count_singleton, beq_eq_false_iff_ne.mpr hne]
    rfl
  | true =>
    cases kind with
    | leftParen =>
      obtain rfl : lexeme = ['('] := h
      rfl
    | rightParen =>
      obtain rfl : lexeme = [')'] := h
      rfl
    | integer | operator | invalid => cases hp

end TokenKind

/-- Tokens open as many parentheses as their text. -/
theorem Token.count_spelling {tokens : List Token}
    (h : ∀ token ∈ tokens, token.kind.IsWrittenAs token.lexeme) :
    (spelling tokens).count '(' = (tokens.map kind).count .leftParen := by
  induction tokens with
  | nil => rfl
  | cons token rest ih =>
    rw [List.forall_mem_cons] at h
    rw [spelling_cons, List.count_append, h.1.count_eq, ih h.2, List.map_cons,
      ← List.count_append, List.singleton_append]

theorem count_tokenize (s : Text) :
    ((tokenize s).map Token.kind).count .leftParen = s.count '(' := by
  rw [← Token.count_spelling fun token hm => isWrittenAs_of_mem_tokenize hm,
    Token.spelling_tokenize]

/-! ### Counting the parentheses that are printed -/

namespace Expr

theorem count_wrapIf (wrapped : Bool) (s : Text) :
    (wrapIf wrapped s).count '(' = s.count '(' + wrapped.toNat := by
  cases wrapped <;> simp [wrapIf]

end Expr

namespace Derivation

open Abacus.Expr Abacus.TokenKind

theorem count_linksText_le {l : Nat} {steps : List Step}
    (h : ∀ step ∈ steps,
      (wrapIf (step.part.expr.isWrapped (· ≤ l)) step.part.expr.text).count '(' ≤
        (step.part.tokens.map Token.kind).count .leftParen) :
    (linksText l (stepLinks steps)).count '(' ≤
      ((stepTokens steps).map Token.kind).count .leftParen := by
  induction steps with
  | nil => simp [stepLinks, linksText]
  | cons step rest ih =>
    obtain ⟨token, op, part⟩ := step
    rw [List.forall_mem_cons] at h
    have hsymbol : (op.symbol == '(') = false := by cases op <;> rfl
    have hpart : (wrapIf (part.expr.isWrapped (· ≤ l)) part.expr.text).count '(' ≤
        (part.tokens.map Token.kind).count .leftParen := h.1
    have hrest := ih h.2
    simp only [stepLinks, linksText, stepTokens, List.cons_append, List.count_cons,
      List.count_append, List.map_cons, List.map_append, hsymbol, Bool.false_eq_true, if_false]
    omega

/-- **What is printed for a parsed expression has no more parentheses than its source**, and one of
the source is left for the parentheses around it wherever an operand of the phrase gets them. -/
theorem IsA.count_text_le {phrase : Phrase} {d : Derivation} (h : IsA phrase d)
    (hi : ∀ token ∈ d.tokens, ∀ value, token.kind = .integer value → 0 ≤ value.toInt)
    {weak : Nat → Bool} (hweak : ∀ l, weak l → l < phrase.level) :
    (wrapIf (d.expr.isWrapped weak) d.expr.text).count '(' ≤
      (d.tokens.map Token.kind).count .leftParen := by
  induction h generalizing weak with
  | @number token value hk =>
    have hvalue := hi token (by simp [tokens]) value hk
    have hnonneg : ¬ value < 0 := by
      rw [Int64.lt_iff_toInt_lt, Int64.toInt_zero]
      omega
    have hmem : '(' ∉ (integer value).text := fun hm =>
      absurd (isDigit_of_mem_text hvalue hm) (by decide)
    have htext : (integer value).text.count '(' = 0 := List.count_eq_zero.mpr hmem
    rw [count_wrapIf, expr, isWrapped, Literal.isNegative, decide_eq_false hnonneg]
    exact Nat.le_trans (Nat.le_of_eq htext) (Nat.zero_le _)
  | @group opening closing inner ho _ hc ih =>
    -- the parentheses of the source are there for those of the text
    have hinner := @ih (fun token hm => hi token (by simp [tokens, hm])) (fun _ => false) (by simp)
    have hbound := Bool.toNat_le (inner.expr.isWrapped weak)
    obtain ⟨htext, hwrapped⟩ := samePrint_withSpan (opening.span.cover closing.span) inner.expr
    rw [count_wrapIf] at hinner
    rw [expr, count_wrapIf, htext, hwrapped, tokens, List.map_cons, List.count_cons,
      List.map_append, List.count_append, ho]
    simp only [BEq.rfl, if_true]
    omega
  | @repetition phrase first steps hne _ hs _ ihf ihs =>
    have hpart := Phrase.level_part hne
    have hfirst : ∀ weak : Nat → Bool, (∀ l, weak l → l < phrase.level + 1) →
        (wrapIf (first.expr.isWrapped weak) first.expr.text).count '(' ≤
          (first.tokens.map Token.kind).count .leftParen := fun weak hw =>
      ihf (fun token hm => hi token (by simp [tokens, hm])) (hpart ▸ hw)
    rw [expr, tokens, List.map_append, List.count_append]
    by_cases hsteps : steps = []
    · -- nothing but the first part, which gets parentheses where the phrase is even weaker
      rw [hsteps]
      exact hfirst weak fun l hl => Nat.lt_succ_of_lt (hweak l hl)
    · have hlinks := stepLinks_ne_nil hsteps
      have hlevel : level (stepLinks steps) = phrase.level :=
        level_of_forall hlinks (precedence_of_mem_stepLinks hs)
      have hweak' : weak phrase.level = false := by
        rw [← Bool.not_eq_true]
        exact fun hw => Nat.lt_irrefl _ (hweak _ hw)
      have hrest : (linksText phrase.level (stepLinks steps)).count '(' ≤
          ((stepTokens steps).map Token.kind).count .leftParen := by
        refine count_linksText_le fun step hm => ihs step hm (fun token ht => ?_) ?_
        · exact hi token (by simp [tokens, mem_stepTokens hm ht])
        · simp only [decide_eq_true_eq]
          omega
      have hoperand := hfirst (· < phrase.level) (by simp only [decide_eq_true_eq]; omega)
      obtain ⟨htext, hwrapped⟩ := samePrint_ofChain first.expr hlinks default
      rw [htext, hwrapped, isWrapped_chain, hlevel, hweak', Bool.and_false, Expr.text, hlevel,
        count_wrapIf, List.count_append]
      simp only [Bool.toNat_false]
      omega

end Derivation

/-! ### Taking out a pair of parentheses -/

namespace Scan

/-- The scan goes past tokens of these kinds without a fault. -/
inductive Passes (limit : Nat) : Scan → List TokenKind → Scan → Prop where
  | nil {s : Scan} : Passes limit s [] s
  | integer {opened : Nat} {value : Int64} {kinds : List TokenKind} {s : Scan} :
      Passes limit ⟨false, opened⟩ kinds s →
      Passes limit ⟨true, opened⟩ (.integer value :: kinds) s
  | leftParen {opened : Nat} {kinds : List TokenKind} {s : Scan} :
      opened < limit → Passes limit ⟨true, opened + 1⟩ kinds s →
      Passes limit ⟨true, opened⟩ (.leftParen :: kinds) s
  | operator {opened : Nat} {op : Operator} {kinds : List TokenKind} {s : Scan} :
      Passes limit ⟨true, opened⟩ kinds s →
      Passes limit ⟨false, opened⟩ (.operator op :: kinds) s
  | rightParen {opened : Nat} {kinds : List TokenKind} {s : Scan} :
      Passes limit ⟨false, opened⟩ kinds s →
      Passes limit ⟨false, opened + 1⟩ (.rightParen :: kinds) s

variable {limit : Nat}

theorem passes_append_iff {s s' : Scan} {kinds kinds' : List TokenKind} :
    Passes limit s (kinds ++ kinds') s' ↔
      ∃ s₁, Passes limit s kinds s₁ ∧ Passes limit s₁ kinds' s' := by
  constructor
  · intro h
    induction kinds generalizing s with
    | nil => exact ⟨s, .nil, h⟩
    | cons kind kinds ih =>
      cases h with
      | integer h =>
        obtain ⟨s₁, h₁, h₂⟩ := ih h
        exact ⟨s₁, .integer h₁, h₂⟩
      | leftParen hlt h =>
        obtain ⟨s₁, h₁, h₂⟩ := ih h
        exact ⟨s₁, .leftParen hlt h₁, h₂⟩
      | operator h =>
        obtain ⟨s₁, h₁, h₂⟩ := ih h
        exact ⟨s₁, .operator h₁, h₂⟩
      | rightParen h =>
        obtain ⟨s₁, h₁, h₂⟩ := ih h
        exact ⟨s₁, .rightParen h₁, h₂⟩
  · rintro ⟨s₁, h, h'⟩
    induction h with
    | nil => exact h'
    | integer _ ih => exact .integer (ih h')
    | leftParen hlt _ ih => exact .leftParen hlt (ih h')
    | operator _ ih => exact .operator (ih h')
    | rightParen _ ih => exact .rightParen (ih h')

/-- A scan gets through tokens if it passes their kinds, and nothing is due or open then. -/
theorem run_eq_ok_iff {stop opened : Nat} (due : Bool) (ho : opened ≤ limit)
    (tokens : List Token) :
    run limit stop ⟨due, opened⟩ tokens = .ok () ↔
      Passes limit ⟨due, opened⟩ (tokens.map Token.kind) ⟨false, 0⟩ := by
  induction tokens generalizing due opened with
  | nil =>
    cases due with
    | true =>
      refine iff_of_false ?_ ?_ <;> rintro ⟨⟩
    | false =>
      cases opened with
      | zero => exact iff_of_true rfl .nil
      | succ opened => refine iff_of_false ?_ ?_ <;> rintro ⟨⟩
  | cons token rest ih =>
    rw [run, step, List.map_cons]
    cases due with
    | true =>
      cases hk : token.kind with
      | integer value =>
        simp only [if_true, ih false ho]
        exact ⟨.integer, fun h => by cases h; assumption⟩
      | leftParen =>
        by_cases hl : opened = limit
        · simp only [hl, if_true]
          refine iff_of_false ?_ ?_
          · rintro ⟨⟩
          · intro h
            cases h
            omega
        · have hlt : opened < limit := by omega
          simp only [if_true, hl, if_false, ih true hlt]
          exact ⟨.leftParen hlt, fun h => by cases h; assumption⟩
      | operator op | rightParen | invalid =>
        simp only [if_true]
        refine iff_of_false ?_ ?_ <;> rintro ⟨⟩
    | false =>
      cases hk : token.kind with
      | operator op =>
        simp only [Bool.false_eq_true, if_false, ih true ho]
        exact ⟨.operator, fun h => by cases h; assumption⟩
      | rightParen =>
        cases opened with
        | zero =>
          simp only [Bool.false_eq_true, if_false, if_true]
          refine iff_of_false ?_ ?_ <;> rintro ⟨⟩
        | succ opened =>
          have hle : opened ≤ limit := Nat.le_of_succ_le ho
          simp only [Bool.false_eq_true, if_false, Nat.succ_ne_zero, Nat.add_sub_cancel,
            ih false hle]
          exact ⟨.rightParen, fun h => by cases h; assumption⟩
      | integer value | leftParen | invalid =>
        simp only [Bool.false_eq_true, if_false]
        refine iff_of_false ?_ ?_ <;> rintro ⟨⟩

/-- **A balanced text is passed with one parenthesis less open before it as well**, and it leaves
open what was open before it. `opened` are those that the text itself has opened. -/
theorem Passes.lower {tokens : List Token}
    (hw : ∀ token ∈ tokens, token.kind.IsWrittenAs token.lexeme) {due due' : Bool}
    {outer opened left : Nat}
    (h : Passes limit ⟨due, outer + opened + 1⟩ (tokens.map Token.kind) ⟨due', left⟩)
    (hc : (Token.spelling tokens).closes opened) :
    left = outer + 1 ∧
      Passes limit ⟨due, outer + opened⟩ (tokens.map Token.kind) ⟨due', outer⟩ := by
  induction tokens generalizing due opened with
  | nil =>
    obtain rfl : opened = 0 := by simpa [Text.closes] using hc
    cases h
    exact ⟨rfl, .nil⟩
  | cons token rest ih =>
    rw [List.forall_mem_cons] at hw
    obtain ⟨hlexeme, hw⟩ := hw
    rw [Token.spelling_cons] at hc
    rw [List.map_cons] at h ⊢
    cases hk : token.kind with
    | integer value =>
      rw [hk] at h hlexeme
      rw [Text.closes_append_of_forall (hlexeme.ne_parenthesis rfl)] at hc
      cases h with
      | integer h =>
        obtain ⟨hleft, hpasses⟩ := ih hw h hc
        exact ⟨hleft, .integer hpasses⟩
    | operator op =>
      rw [hk] at h hlexeme
      rw [Text.closes_append_of_forall (hlexeme.ne_parenthesis rfl)] at hc
      cases h with
      | operator h =>
        obtain ⟨hleft, hpasses⟩ := ih hw h hc
        exact ⟨hleft, .operator hpasses⟩
    | leftParen =>
      rw [hk] at h hlexeme
      obtain hlexeme : token.lexeme = ['('] := hlexeme
      rw [hlexeme, List.singleton_append, Text.closes, if_pos rfl] at hc
      cases h with
      | leftParen hlt h =>
        obtain ⟨hleft, hpasses⟩ := ih hw h hc
        exact ⟨hleft, .leftParen (Nat.lt_of_succ_lt hlt) hpasses⟩
    | rightParen =>
      rw [hk] at h hlexeme
      obtain hlexeme : token.lexeme = [')'] := hlexeme
      rw [hlexeme, List.singleton_append, Text.closes, if_neg (by decide), if_pos rfl,
        Bool.and_eq_true, bne_iff_ne] at hc
      obtain ⟨opened, rfl⟩ := Nat.exists_eq_succ_of_ne_zero hc.1
      cases h with
      | rightParen h =>
        obtain ⟨hleft, hpasses⟩ := ih hw h hc.2
        exact ⟨hleft, .rightParen hpasses⟩
    | invalid =>
      rw [hk] at h
      cases h

/-- In front of where an operand is due, there is no number. -/
theorem Passes.integer_notMem_getLast? {s : Scan} {kinds : List TokenKind} {opened : Nat}
    (h : Passes limit s kinds ⟨true, opened⟩) (value : Int64) :
    TokenKind.integer value ∉ kinds.getLast? := by
  intro hlast
  obtain ⟨kinds', rfl⟩ := List.getLast?_eq_some_iff.mp hlast
  obtain ⟨s₁, -, hinteger⟩ := passes_append_iff.mp h
  cases hinteger with
  | integer hnil => cases hnil

/-- Behind an operand there is no number. -/
theorem Passes.integer_notMem_head? {s : Scan} {kinds : List TokenKind} {opened : Nat}
    (h : Passes limit ⟨false, opened⟩ kinds s) (value : Int64) :
    TokenKind.integer value ∉ kinds.head? := by
  intro hhead
  obtain ⟨kinds', rfl⟩ := List.head?_eq_some_iff.mp hhead
  cases h

end Scan

/-! ### The text without the pair -/

theorem map_kind_tokenize_append {s t : Text}
    (h : ∀ c ∈ s.getLast?, ∀ d ∈ t.head?, (c.isDigit && d.isDigit) = false) :
    (tokenize (s ++ t)).map Token.kind =
      (tokenize s).map Token.kind ++ (tokenize t).map Token.kind := by
  rw [map_kind_tokenize, map_kind_tokenize, map_kind_tokenize, Text.lexemes, List.splitBy_append h,
    List.map_append]
  rfl

/-- A token of which a character is a digit is a number. -/
theorem TokenKind.IsWrittenAs.exists_eq_integer {kind : TokenKind} {lexeme : Text} {c : Char}
    (h : kind.IsWrittenAs lexeme) (hc : c ∈ lexeme) (hd : c.isDigit) :
    ∃ value, kind = .integer value := by
  rcases h.digits_or_char with ⟨hinteger, -⟩ | ⟨c', rfl, hdigit, -⟩
  · exact isInteger_iff.mp hinteger
  · obtain rfl : c = c' := List.mem_singleton.mp hc
    rw [hdigit] at hd
    cases hd

theorem exists_integer_of_getLast? {s : Text} {c : Char} (hc : c ∈ s.getLast?) (hd : c.isDigit) :
    ∃ value, TokenKind.integer value ∈ ((tokenize s).map Token.kind).getLast? := by
  rw [← Token.spelling_tokenize s] at hc
  cases hlast : (tokenize s).getLast? with
  | none =>
    rw [List.getLast?_eq_none_iff.mp hlast] at hc
    cases hc
  | some token =>
    have hm := List.mem_of_getLast? hlast
    rw [Token.getLast?_spelling hlast (Token.lexeme_ne_nil_of_mem_tokenize hm)] at hc
    obtain ⟨value, hk⟩ :=
      (isWrittenAs_of_mem_tokenize hm).exists_eq_integer (List.mem_of_getLast? hc) hd
    exact ⟨value, by rw [List.getLast?_map, hlast, Option.map_some, hk]; rfl⟩

theorem exists_integer_of_head? {s : Text} {c : Char} (hc : c ∈ s.head?) (hd : c.isDigit) :
    ∃ value, TokenKind.integer value ∈ ((tokenize s).map Token.kind).head? := by
  rw [← Token.spelling_tokenize s] at hc
  cases hhead : (tokenize s).head? with
  | none =>
    rw [List.head?_eq_none_iff.mp hhead] at hc
    cases hc
  | some token =>
    have hm := List.mem_of_head? hhead
    rw [Token.head?_spelling hhead (Token.lexeme_ne_nil_of_mem_tokenize hm)] at hc
    obtain ⟨value, hk⟩ :=
      (isWrittenAs_of_mem_tokenize hm).exists_eq_integer (List.mem_of_head? hc) hd
    exact ⟨value, by rw [List.head?_map, hhead, Option.map_some, hk]; rfl⟩

namespace Expr

open Abacus.Derivation

theorem exists_parse_iff_passes (maxDepth : Nat) (s : Text) :
    (∃ e, parse maxDepth (tokenize s) = .ok e) ↔
      Scan.Passes maxDepth ⟨true, 0⟩ ((tokenize s).map Token.kind) ⟨false, 0⟩ := by
  rw [exists_parse_eq_ok_iff, Scan.tokens]
  cases hs : tokenize s with
  | nil => refine iff_of_false ?_ ?_ <;> rintro ⟨⟩
  | cons token rest => exact Scan.run_eq_ok_iff true (Nat.zero_le maxDepth) (token :: rest)

/-- A text can be read without a pair of parentheses that match each other, if it can be read with
them. -/
theorem exists_parse_without_parentheses {maxDepth : Nat} {before inner behind : Text}
    (h : ∃ e, parse maxDepth (tokenize (Text.enclose before inner behind)) = .ok e)
    (hb : inner.IsBalanced) :
    ∃ e, parse maxDepth (tokenize (before ++ inner ++ behind)) = .ok e := by
  have hopening : TokenKind.ofLexeme ['('] = .leftParen := by decide
  have hclosing : TokenKind.ofLexeme [')'] = .rightParen := by decide
  rw [exists_parse_iff_passes, Text.enclose, map_kind_tokenize, List.append_assoc, List.cons_append,
    Text.lexemes_append_cons (by decide), Text.lexemes_append_cons (by decide), List.map_append,
    List.map_cons, List.map_append, List.map_cons, ← map_kind_tokenize, ← map_kind_tokenize,
    ← map_kind_tokenize, hopening, hclosing, Scan.passes_append_iff] at h
  obtain ⟨⟨due, outer⟩, hbefore, h⟩ := h
  cases h with
  | leftParen _ h =>
    obtain ⟨⟨due', left⟩, hinner, h⟩ := Scan.passes_append_iff.mp h
    cases h with
    | rightParen hbehind =>
      rw [Text.IsBalanced, ← Token.spelling_tokenize inner] at hb
      obtain ⟨hleft, hlower⟩ := hinner.lower (fun _ hm => isWrittenAs_of_mem_tokenize hm) hb
      obtain rfl := Nat.succ.inj hleft
      have hlast : ∀ c ∈ before.getLast?, c.isDigit = false := by
        intro c hc
        rw [← Bool.not_eq_true]
        intro hdigit
        obtain ⟨value, hvalue⟩ := exists_integer_of_getLast? hc hdigit
        exact hbefore.integer_notMem_getLast? value hvalue
      have hhead : ∀ c ∈ behind.head?, c.isDigit = false := by
        intro c hc
        rw [← Bool.not_eq_true]
        intro hdigit
        obtain ⟨value, hvalue⟩ := exists_integer_of_head? hc hdigit
        exact hbehind.integer_notMem_head? value hvalue
      rw [exists_parse_iff_passes,
        map_kind_tokenize_append fun c _ d hd => by rw [hhead d hd, Bool.and_false],
        map_kind_tokenize_append fun c hc d _ => by rw [hlast c hc, Bool.false_and],
        Scan.passes_append_iff]
      exact ⟨_, Scan.passes_append_iff.mpr ⟨_, hbefore, hlower⟩, hbehind⟩

/-- The text of an expression has no more parentheses than the one it was read from. -/
theorem count_text_le_of_parse {maxDepth : Nat} {s : Text} {e : Expr}
    (h : parse maxDepth (tokenize s) = .ok e) : e.text.count '(' ≤ s.count '(' := by
  obtain ⟨d, hd, htokens, -, rfl⟩ := exists_derivation_of_parse h
  have hi : ∀ token ∈ d.tokens, ∀ value, token.kind = .integer value → 0 ≤ value.toInt := by
    intro token hm value hk
    rw [htokens] at hm
    exact toInt_nonneg_of_mem_tokenize hm hk
  have hcount := @IsA.count_text_le _ _ hd hi (fun _ => false) (by simp)
  rw [htokens, count_tokenize, count_wrapIf] at hcount
  omega

/-- **No parentheses are printed in vain.** Without any one pair of parentheses that match each
other the text of a plain expression is still read, with every limit with which it is read with
them, but as another expression, also when chains are spliced and spans are forgotten. -/
theorem IsPlain.parse_without_parentheses {e : Expr} (h : e.IsPlain) {before inner behind : Text}
    (htext : e.text = Text.enclose before inner behind) (hb : inner.IsBalanced) {maxDepth : Nat}
    (hd : e.text.nesting ≤ maxDepth) :
    ∃ e', parse maxDepth (tokenize (before ++ inner ++ behind)) = .ok e' ∧
      e'.splice.eraseSpans ≠ e.splice.eraseSpans := by
  obtain ⟨e₁, h₁, -⟩ := h.exists_parse_text hd
  rw [htext] at h₁
  obtain ⟨e', h'⟩ := exists_parse_without_parentheses ⟨e₁, h₁⟩ hb
  refine ⟨e', h', fun heq => ?_⟩
  -- the same expression would be printed with the pair
  have hsame : e'.text = e.text := calc
    e'.text = e'.splice.eraseSpans.text :=
      ((samePrint_eraseSpans e'.splice).trans (samePrint_splice e')).1.symm
    _ = e.splice.eraseSpans.text := by rw [heq]
    _ = e.text := ((samePrint_eraseSpans e.splice).trans (samePrint_splice e)).1
  have hle := count_text_le_of_parse h'
  rw [hsame, htext, Text.enclose] at hle
  simp only [List.count_append, List.count_cons, BEq.rfl, if_true] at hle
  omega

/-- `(1+(2-3))*4` without its inner pair is `(1+2-3)*4`, with one chain where there were two. -/
theorem parse_without_parentheses_of_difference :
    ∃ e : Expr, e.IsPlain ∧ e.text = Text.enclose "(1+".toList "2-3".toList ")*4".toList ∧
      Text.IsBalanced "2-3".toList ∧ e.text.nesting ≤ 2 ∧
      ∃ e', parse 2 (tokenize "(1+2-3)*4".toList) = .ok e' ∧
        e'.splice.eraseSpans ≠ e.splice.eraseSpans := by
  let difference : Expr :=
    .chain (.literal (.int 2) ⟨4, 5⟩) [⟨.sub, .literal (.int 3) ⟨6, 7⟩⟩] ⟨3, 8⟩
  let sum : Expr := .chain (.literal (.int 1) ⟨1, 2⟩) [⟨.add, difference⟩] ⟨0, 9⟩
  let product : Expr := .chain sum [⟨.mul, .literal (.int 4) ⟨10, 11⟩⟩] ⟨0, 11⟩
  have hplain : product.IsPlain := @isPlain_of_parse 2 "(1+(2-3))*4".toList product rfl
  have htext : product.text = Text.enclose "(1+".toList "2-3".toList ")*4".toList := rfl
  have hbalanced : Text.IsBalanced "2-3".toList := rfl
  have hnesting : product.text.nesting ≤ 2 := by decide
  exact ⟨product, hplain, htext, hbalanced, hnesting,
    hplain.parse_without_parentheses htext hbalanced hnesting⟩

end Expr

end Abacus
