import Mathlib.Logic.ExistsUnique
import Abacus.Proofs.Reading
import Abacus.Proofs.Scan
import Abacus.Token.Lexer

/-!
# What the parser recognizes

The parser accepts exactly what the grammar derives with as many open parentheses as are
allowed, and answers with the expression that the derivation means (`parse_eq_ok_iff_derivation`).

One half is `parse_tokens`: what is derived is parsed. For the other half it is enough that a
scan which gets through has a derivation behind it. The scan knows nothing of levels, so the
derivation is put together from operands and operators in their order, each operator going to
the repetition of its level (`IsA.exists_extension`).
-/

namespace Abacus

namespace TokenKind

/-- Whether it is a parenthesis. -/
def isParenthesis : TokenKind → Bool
  | leftParen | rightParen => true
  | _ => false

/-- The literal or operator that it stands for. -/
def symbol? : TokenKind → Option (Literal ⊕ Operator)
  | integer value => some (.inl (.int value))
  | operator op => some (.inr op)
  | _ => none

end TokenKind

/-- The tokens without the parentheses, each as what it stands for. -/
def Token.symbols (tokens : List Token) : List (Option (Literal ⊕ Operator)) :=
  (tokens.filter fun token => !token.kind.isParenthesis).map (·.kind.symbol?)

@[simp] theorem Token.symbols_nil : Token.symbols [] = [] := rfl

@[simp] theorem Token.symbols_append (tokens tokens' : List Token) :
    Token.symbols (tokens ++ tokens') = Token.symbols tokens ++ Token.symbols tokens' := by
  simp [Token.symbols]

theorem Token.symbols_cons_of_symbol {token : Token} {symbol : Literal ⊕ Operator}
    (h : token.kind.symbol? = some symbol) (tokens : List Token) :
    Token.symbols (token :: tokens) = some symbol :: Token.symbols tokens := by
  have hp : token.kind.isParenthesis = false := by
    cases hk : token.kind <;> simp_all [TokenKind.symbol?, TokenKind.isParenthesis]
  simp [Token.symbols, hp, h]

theorem Token.symbols_cons_of_isParenthesis {token : Token} (h : token.kind.isParenthesis)
    (tokens : List Token) : Token.symbols (token :: tokens) = Token.symbols tokens := by
  simp [Token.symbols, h]

namespace Scan

open Abacus.Derivation

/-- A phrase has ended: nothing is left and nothing is open, or a parenthesis closes and the
scan gets through what follows it. -/
def Ends (limit stop opened : Nat) (rest : List Token) : Prop :=
  (rest = [] ∧ opened = 0) ∨
    ∃ closing after, rest = closing :: after ∧ closing.kind = .rightParen ∧ opened ≠ 0 ∧
      run limit stop ⟨false, opened - 1⟩ after = .ok ()

/-- A scan that gets through has read an operand first, if one was due. -/
def ReadsOperand (limit stop : Nat) (tokens : List Token) : Prop :=
  ∀ opened ≤ limit, run limit stop ⟨true, opened⟩ tokens = .ok () →
    ∃ d rest, IsA .operand d ∧ d.tokens ++ rest = tokens ∧ opened + d.depth ≤ limit ∧
      run limit stop ⟨false, opened⟩ rest = .ok ()

/-- A scan that gets through continues the sum it has read up to where it ends. -/
def ReadsSum (limit stop : Nat) (tokens : List Token) : Prop :=
  ∀ opened ≤ limit, ∀ d, IsA .sum d → opened + d.depth ≤ limit →
    run limit stop ⟨false, opened⟩ tokens = .ok () →
    ∃ d' rest, IsA .sum d' ∧ d'.tokens ++ rest = d.tokens ++ tokens ∧
      opened + d'.depth ≤ limit ∧ Ends limit stop opened rest

variable {limit stop : Nat}

theorem length_lt_of_tokens_append {phrase : Phrase} {d : Derivation} (h : IsA phrase d)
    {rest tokens : List Token} (heq : d.tokens ++ rest = tokens) : rest.length < tokens.length := by
  have := List.length_pos_iff.mpr h.tokens_ne_nil
  rw [← heq, List.length_append]
  omega

/-- Both statements, by induction on how many tokens are left. -/
theorem readsOperand_and_readsSum (n : Nat) : ∀ tokens : List Token, tokens.length ≤ n →
    ReadsOperand limit stop tokens ∧ ReadsSum limit stop tokens := by
  induction n using Nat.strongRecOn with
  | ind n ih =>
    intro tokens hn
    constructor
    · intro opened ho h
      cases tokens with
      | nil => cases h
      | cons token rest =>
        rw [List.length_cons] at hn
        rw [run, step] at h
        cases hk : token.kind with
        | integer value =>
          simp only [hk, if_true] at h
          exact ⟨.number token value, rest, .number hk, rfl, ho, h⟩
        | leftParen =>
          simp only [hk, if_true] at h
          by_cases hl : opened = limit
          · simp [hl] at h
          · simp only [hl, if_false] at h
            -- an operand, the sum that it begins, and the closing parenthesis
            obtain ⟨d₁, rest₁, h₁, ht₁, hd₁, hr₁⟩ :=
              (ih rest.length (by omega) rest (Nat.le_refl _)).1 (opened + 1) (by omega) h
            obtain ⟨d₁', h₁', ht₁', hd₁', -⟩ := h₁.exists_weaker .sum (by decide)
            have hlt := length_lt_of_tokens_append h₁ ht₁
            obtain ⟨d₂, rest₂, h₂, ht₂, hd₂, hend⟩ :=
              (ih rest₁.length (by omega) rest₁ (Nat.le_refl _)).2 (opened + 1) (by omega) d₁' h₁'
                (by omega) hr₁
            rcases hend with ⟨-, h0⟩ | ⟨closing, after, rfl, hc, -, hr⟩
            · omega
            · refine ⟨.group token d₂ closing, after, .group hk h₂ hc, ?_, ?_, hr⟩
              · rw [← ht₁, ← ht₁', ← ht₂]
                simp [Derivation.tokens]
              · rw [depth]
                omega
        | operator op | rightParen | invalid => simp [hk] at h
    · intro opened ho d hd hdepth h
      cases tokens with
      | nil =>
        rw [run, finish] at h
        by_cases h0 : opened = 0
        · exact ⟨d, [], hd, rfl, hdepth, .inl ⟨rfl, h0⟩⟩
        · rw [if_neg h0] at h
          cases h
      | cons token rest =>
        rw [List.length_cons] at hn
        rw [run, step] at h
        cases hk : token.kind with
        | operator op =>
          simp only [hk, Bool.false_eq_true, if_false] at h
          -- the operator and its operand extend the sum
          obtain ⟨d₁, rest₁, h₁, ht₁, hd₁, hr₁⟩ :=
            (ih rest.length (by omega) rest (Nat.le_refl _)).1 opened ho h
          obtain ⟨d₂, h₂, ht₂, hd₂⟩ := hd.exists_extension hk h₁ (by cases op <;> decide)
          have hlt := length_lt_of_tokens_append h₁ ht₁
          obtain ⟨d₃, rest₃, h₃, ht₃, hd₃, hend⟩ :=
            (ih rest₁.length (by omega) rest₁ (Nat.le_refl _)).2 opened ho d₂ h₂ (by omega) hr₁
          refine ⟨d₃, rest₃, h₃, ?_, hd₃, hend⟩
          rw [ht₃, ht₂, ← ht₁]
          simp
        | rightParen =>
          simp only [hk, Bool.false_eq_true, if_false] at h
          by_cases h0 : opened = 0
          · simp [h0] at h
          · simp only [h0, if_false] at h
            exact ⟨d, token :: rest, hd, rfl, hdepth, .inr ⟨token, rest, rfl, hk, h0, h⟩⟩
        | integer value | leftParen | invalid => simp [hk] at h

/-- A list of tokens that the scan gets through is derived as a sum. -/
theorem exists_derivation {tokens : List Token} (h : Scan.tokens limit tokens = .ok ()) :
    ∃ d, IsA .sum d ∧ d.tokens = tokens ∧ d.depth ≤ limit := by
  rw [Scan.tokens] at h
  split at h
  · cases h
  · obtain ⟨d₁, rest₁, h₁, ht₁, hd₁, hr₁⟩ :=
      (readsOperand_and_readsSum _ tokens (Nat.le_refl _)).1 0 (Nat.zero_le limit) h
    obtain ⟨d₁', h₁', ht₁', hd₁', -⟩ := h₁.exists_weaker .sum (by decide)
    obtain ⟨d, rest, hd, ht, hdepth, ⟨rfl, -⟩ | ⟨-, -, -, -, h0, -⟩⟩ :=
      (readsOperand_and_readsSum _ rest₁ (Nat.le_refl _)).2 0 (Nat.zero_le limit) d₁' h₁' (by omega) hr₁
    · exact ⟨d, hd, by rw [← ht₁, ← ht₁', ← ht, List.append_nil], by omega⟩
    · exact absurd rfl h0

end Scan

namespace Derivation

/-- The literals and operators of the expression that is meant are the tokens without the
parentheses, in the same order. -/
theorem IsA.map_symbols_expr {phrase : Phrase} {d : Derivation} (h : IsA phrase d) :
    d.expr.symbols.map some = Token.symbols d.tokens := by
  induction h with
  | number hk =>
    rw [expr, tokens, Token.symbols_cons_of_symbol (by rw [hk, TokenKind.symbol?])]
    rfl
  | group ho _ hc ih =>
    rw [expr, tokens, Expr.symbols_withSpan, ih, Token.symbols_cons_of_isParenthesis (by rw [ho]; rfl),
      Token.symbols_append, Token.symbols_cons_of_isParenthesis (by rw [hc]; rfl),
      Token.symbols_nil, List.append_nil]
  | @repetition phrase first steps _ _ hs hparts ihf ihs =>
    rw [expr, tokens, Expr.symbols_ofChain, List.map_append, Token.symbols_append, ihf]
    congr 1
    clear hparts
    induction steps with
    | nil => rfl
    | cons step steps ih =>
      obtain ⟨token, op, part⟩ := step
      rw [List.forall_mem_cons] at hs ihs
      have hk : token.kind = .operator op := hs.1.1
      have hpart : part.expr.symbols.map some = Token.symbols part.tokens := ihs.1
      rw [stepLinks, stepTokens, Expr.linkSymbols, Token.symbols_cons_of_symbol
        (by rw [hk, TokenKind.symbol?]), Token.symbols_append, ← hpart, ← ih hs.2 ihs.2]
      simp

/-- The expression that is meant has only literals of its tokens, and each of its chains has at
least one link and operators of one level. -/
theorem IsA.everywhere_expr {phrase : Phrase} {d : Derivation} (h : IsA phrase d)
    {onLiteral : Literal → Prop}
    (hl : ∀ token ∈ d.tokens, ∀ n, token.kind = .integer n → onLiteral (.int n)) :
    d.expr.Everywhere onLiteral fun _ links => links ≠ [] ∧ Expr.SameLevel links := by
  induction h with
  | @number token value hk => exact .literal (hl token (by simp [tokens]) value hk)
  | group _ _ _ ih =>
    rw [expr, Expr.everywhere_withSpan]
    exact ih fun token hm => hl token (by simp [tokens, hm])
  | @repetition phrase first steps _ _ hs _ ihf ihs =>
    rw [expr]
    refine Expr.everywhere_ofChain (fun hne => ⟨hne, ?_⟩) ?_ (forall_mem_stepLinks.mpr ?_)
    · exact Expr.sameLevel_of_forall (precedence_of_mem_stepLinks hs)
    · exact ihf fun token hm => hl token (by simp [tokens, hm])
    · intro step hstep
      exact ihs step hstep fun token ht => hl token (by
        rw [tokens, List.mem_append]
        exact .inr (mem_stepTokens hstep ht))

end Derivation

namespace Expr

open Abacus.Derivation

/-- What is parsed has a derivation, and is what the derivation means. -/
theorem exists_derivation_of_parse {maxDepth : Nat} {tokens : List Token} {e : Expr}
    (h : parse maxDepth tokens = .ok e) :
    ∃ d, IsA .sum d ∧ d.tokens = tokens ∧ d.depth ≤ maxDepth ∧ d.expr = e := by
  obtain ⟨d, hd, rfl, hdepth⟩ :=
    Scan.exists_derivation ((exists_parse_eq_ok_iff maxDepth tokens).mp ⟨e, h⟩)
  refine ⟨d, hd, rfl, hdepth, ?_⟩
  rw [parse_tokens hd hdepth] at h
  exact Except.ok.inj h

/-- **What the parser recognizes**: a list of tokens is parsed if and only if the grammar derives
it with at most `maxDepth` parentheses open at once. Then it has just one derivation, and the
answer is the expression that this derivation means, whose literals and operators are the tokens
without the parentheses. -/
theorem parse_eq_ok_iff_derivation (maxDepth : Nat) (tokens : List Token) :
    ((∃ e, parse maxDepth tokens = .ok e) ↔
      ∃ d, IsA .sum d ∧ d.tokens = tokens ∧ d.depth ≤ maxDepth) ∧
    ∀ e, parse maxDepth tokens = .ok e →
      (∃! d, IsA .sum d ∧ d.tokens = tokens) ∧
      (∀ d, IsA .sum d → d.tokens = tokens → e = d.expr ∧ e.eraseSpans = d.tree) ∧
      e.symbols.map some = Token.symbols tokens := by
  constructor
  · constructor
    · rintro ⟨e, h⟩
      obtain ⟨d, hd, ht, hdepth, -⟩ := exists_derivation_of_parse h
      exact ⟨d, hd, ht, hdepth⟩
    · rintro ⟨d, hd, rfl, hdepth⟩
      exact ⟨d.expr, parse_tokens hd hdepth⟩
  · intro e h
    obtain ⟨d, hd, rfl, hdepth, rfl⟩ := exists_derivation_of_parse h
    refine ⟨⟨d, ⟨hd, rfl⟩, fun d' hd' => hd'.1.eq_of_tokens_eq hd hd'.2⟩, ?_, hd.map_symbols_expr⟩
    intro d' hd' ht
    obtain rfl := hd'.eq_of_tokens_eq hd ht
    exact ⟨rfl, d'.eraseSpans_expr⟩

/-- `2*(3-1)` is derived in one way, with its parentheses as an operand of the product. -/
theorem derivation_of_product_of_group :
    parse 1 (tokenize "2*(3-1)".toList) =
      .ok (.chain (.literal (.int 2) ⟨0, 1⟩)
        [⟨.mul, .chain (.literal (.int 3) ⟨3, 4⟩) [⟨.sub, .literal (.int 1) ⟨5, 6⟩⟩] ⟨2, 7⟩⟩]
        ⟨0, 7⟩) ∧
    (∃! d, IsA .sum d ∧ d.tokens = tokenize "2*(3-1)".toList) :=
  ⟨rfl, ((parse_eq_ok_iff_derivation 1 (tokenize "2*(3-1)".toList)).2 _ rfl).1⟩

end Expr

end Abacus
