import Abacus.Proofs.Printing
import Abacus.Proofs.SplicedValue
import Abacus.Proofs.Validated

/-!
# Printing and reading back

What is printed for a plain expression is read back, with any limit that leaves room for the
parentheses in it, as the expression that was printed, but for spans and for first operands that
are spliced into the chain around them (`parse_tokenize_text`). It is printed as the same text
again, and has the same value, or fails in the same way.

Every parsed expression is plain. Its text needs no more room than its source, and has the same
numbers, so a calculator that reads a text reads what it prints for it too.
-/

namespace Abacus

/-- The numbers among tokens are the integers among what they stand for. -/
theorem Token.mem_symbols_iff {tokens : List Token} {value : Int64} :
    some (.inl (.int value)) ∈ Token.symbols tokens ↔
      ∃ token ∈ tokens, token.kind = .integer value := by
  rw [Token.symbols, List.mem_map]
  constructor
  · rintro ⟨token, hm, hsymbol⟩
    refine ⟨token, List.mem_of_mem_filter hm, ?_⟩
    cases hk : token.kind <;> simp_all [TokenKind.symbol?]
  · rintro ⟨token, hm, hk⟩
    refine ⟨token, List.mem_filter.mpr ⟨hm, ?_⟩, ?_⟩
    · simp [hk, TokenKind.isParenthesis]
    · rw [hk, TokenKind.symbol?]

namespace Expr

open Abacus.Derivation

/-- The expressions that are read from texts are plain. -/
theorem isPlain_of_parse {maxDepth : Nat} {s : Text} {e : Expr}
    (h : parse maxDepth (tokenize s) = .ok e) : e.IsPlain := by
  obtain ⟨d, hd, htokens, -, rfl⟩ := exists_derivation_of_parse h
  refine hd.everywhere_expr fun token hm value hk => ⟨value, rfl, ?_⟩
  rw [htokens] at hm
  exact toInt_nonneg_of_mem_tokenize hm hk

/-- The text of an expression is nested no more deeply than the limit with which the expression
was read. -/
theorem nesting_text_le_of_parse {maxDepth : Nat} {s : Text} {e : Expr}
    (h : parse maxDepth (tokenize s) = .ok e) : e.text.nesting ≤ maxDepth := by
  obtain ⟨d, hd, htokens, hdepth, rfl⟩ := exists_derivation_of_parse h
  obtain ⟨n, hn, hnests, -⟩ := hd.fits_expr fun token hm value hk =>
    toInt_nonneg_of_mem_tokenize (htokens ▸ hm) hk
  rw [hnests.nesting_eq]
  omega

theorem symbols_of_parse {maxDepth : Nat} {tokens : List Token} {e : Expr}
    (h : parse maxDepth tokens = .ok e) : Token.symbols tokens = e.symbols.map some := by
  obtain ⟨d, hd, rfl, -, rfl⟩ := exists_derivation_of_parse h
  exact hd.map_symbols_expr.symm

/-- What is printed for a plain expression is read back as the spliced expression. -/
theorem IsPlain.exists_parse_text {e : Expr} (h : e.IsPlain) {maxDepth : Nat}
    (hd : e.text.nesting ≤ maxDepth) :
    ∃ e', parse maxDepth (tokenize e.text) = .ok e' ∧ e'.eraseSpans = e.splice.eraseSpans := by
  obtain ⟨d, hderiv, htokens, hdepth, htree⟩ := h.exists_derivation
  refine ⟨d.expr, ?_, ?_⟩
  · rw [← htokens]
    exact parse_tokens hderiv (by omega)
  · rw [eraseSpans_expr, htree]

section

variable {e e' : Expr}

theorem samePrint_of_eraseSpans_eq (h : e'.eraseSpans = e.splice.eraseSpans) : SamePrint e' e := by
  have h' : SamePrint e.splice.eraseSpans e' := h ▸ samePrint_eraseSpans e'
  exact (h'.symm.trans (samePrint_eraseSpans e.splice)).trans (samePrint_splice e)

theorem sameOutcome_of_eraseSpans_eq (h : e'.eraseSpans = e.splice.eraseSpans)
    (pow : Binary64 → Binary64 → Binary64) :
    SameOutcome (e'.evaluate pow) (e.evaluate pow) := by
  have h' : SameOutcome (e.splice.eraseSpans.evaluate pow) (e'.evaluate pow) :=
    h ▸ sameOutcome_eraseSpans e'
  exact (h'.symm.trans (sameOutcome_eraseSpans e.splice)).trans (sameOutcome_splice e)

theorem symbols_of_eraseSpans_eq (h : e'.eraseSpans = e.splice.eraseSpans) :
    e'.symbols = e.symbols := by
  rw [← symbols_eraseSpans e', h, symbols_eraseSpans, symbols_splice]

end

/-- A calculator that reads a text reads what is printed for it. -/
theorem exists_outcome_parse_text {calculator : Calculator} {s : Text} {e : Expr}
    (h : (calculator.parse s).outcome = .ok e) :
    ∃ e', (calculator.parse e.text).outcome = .ok e' := by
  rw [Calculator.outcome_parse_eq_ok_iff] at h
  obtain ⟨hparse, hrange⟩ := h
  obtain ⟨e', hparse', heq⟩ := (isPlain_of_parse hparse).exists_parse_text
    (nesting_text_le_of_parse hparse)
  refine ⟨e', (calculator.outcome_parse_eq_ok_iff _ _).mpr ⟨hparse', ?_⟩⟩
  -- the numbers of the text are those of the source
  have hsymbols : Token.symbols (tokenize e.text) = Token.symbols (tokenize s) := by
    rw [symbols_of_parse hparse', symbols_of_parse hparse, symbols_of_eraseSpans_eq heq]
  intro token hm value hk
  have hmem : some (.inl (.int value)) ∈ Token.symbols (tokenize s) := by
    rw [← hsymbols]
    exact Token.mem_symbols_iff.mpr ⟨token, hm, hk⟩
  obtain ⟨token', hm', hk'⟩ := Token.mem_symbols_iff.mp hmem
  exact hrange token' hm' value hk'

/-- **The round trip**: every parsed expression is plain. The text of a plain expression is
parsed with every limit that is not below its nesting, and what is read is the spliced
expression, up to spans; it is printed as the same text, and has the same value or the same
error. What is printed for an expression that a calculator has read, the calculator reads. -/
theorem parse_tokenize_text :
    (∀ maxDepth s e, parse maxDepth (tokenize s) = .ok e → e.IsPlain) ∧
    (∀ e : Expr, e.IsPlain → ∀ maxDepth, e.text.nesting ≤ maxDepth →
      ∃ e', parse maxDepth (tokenize e.text) = .ok e' ∧
        e'.eraseSpans = e.splice.eraseSpans ∧ e'.text = e.text ∧
        ∀ pow, SameOutcome (e'.evaluate pow) (e.evaluate pow)) ∧
    ∀ (calculator : Calculator) s e, (calculator.parse s).outcome = .ok e →
      ∃ e', (calculator.parse e.text).outcome = .ok e' := by
  refine ⟨fun _ _ _ => isPlain_of_parse, ?_, fun _ _ _ => exists_outcome_parse_text⟩
  intro e he maxDepth hd
  obtain ⟨e', hparse, heq⟩ := he.exists_parse_text hd
  exact ⟨e', hparse, heq, (samePrint_of_eraseSpans_eq heq).1, sameOutcome_of_eraseSpans_eq heq⟩

/-- `(1+2)-(3*4)` is printed as `1+2-3*4`, which needs no room for parentheses. -/
theorem parse_tokenize_text_of_sum_of_sum :
    (chain (.chain (.literal (.int 1) ⟨1, 2⟩) [⟨.add, .literal (.int 2) ⟨3, 4⟩⟩] ⟨0, 5⟩)
      [⟨.sub, .chain (.literal (.int 3) ⟨7, 8⟩) [⟨.mul, .literal (.int 4) ⟨9, 10⟩⟩] ⟨6, 11⟩⟩]
      ⟨0, 11⟩).IsPlain ∧
    (∃ e', parse 0 (tokenize "1+2-3*4".toList) = .ok e' ∧ e'.text = "1+2-3*4".toList) ∧
    ∃ e', ((Calculator.standard 1).parse "1+2-3*4".toList).outcome = .ok e' := by
  have hplain := parse_tokenize_text.1 1 "(1+2)-(3*4)".toList _ rfl
  obtain ⟨e', hparse, -, htext, -⟩ := parse_tokenize_text.2.1 _ hplain 0 (by decide)
  exact ⟨hplain, ⟨e', hparse, htext⟩,
    parse_tokenize_text.2.2 (.standard 1) "(1+2)-(3*4)".toList _ rfl⟩

end Expr

end Abacus
