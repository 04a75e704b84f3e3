import Abacus.Proofs.JsonTree
import Abacus.Proofs.ReducedValue
import Abacus.Proofs.Rejection
import Abacus.Proofs.RoundTrip
import Abacus.Proofs.Slices

/-!
# Parsed expressions as JSON

Two limits meet here that have nothing to do with each other: the parser counts parentheses, and the
reader of JSON counts arrays and objects. A chain costs three of them on the way to its first
operand, and five on the way to the others. Inside of one pair of parentheses there can be three
chains in each other, a sum, a product and a power, so a text with `n` parentheses open at once may
need as many as `15 * (n + 1) + 3` (`depth_toJson_le`).

So what is written for a parsed expression is read back if it is within the limit of the reader, and
only then (`json_reads_back`). Seven parentheses are always within it. Eight need not be, although
the parser takes a hundred (`json_reads_back_not_for_eight_parentheses`).
-/

namespace Abacus

/-! ### The nesting of a text -/

theorem Text.openDepth_append {s t : Text} (h : ∀ opened, openDepth opened s = openDepth opened t)
    (front : Text) (opened : Nat) :
    openDepth opened (front ++ s) = openDepth opened (front ++ t) := by
  induction front generalizing opened with
  | nil => exact h opened
  | cons c front ih => rw [List.cons_append, List.cons_append, openDepth, openDepth, ih]

open Text in
/-- What is written for a kind opens and closes parentheses like what is spelled for it. -/
theorem TokenKind.IsWrittenAs.openDepth_eq {kind : TokenKind} {lexeme : Text}
    (h : kind.IsWrittenAs lexeme) (opened : Nat) (rest : Text) :
    openDepth opened (lexeme ++ rest) = openDepth opened (kind.text ++ rest) := by
  have hflat : ∀ s : Text, Nests 0 s → openDepth opened (s ++ rest) = openDepth opened rest := by
    intro s hs
    have hle := le_openDepth opened rest
    have hopen := hs opened rest
    omega
  cases hp : kind.isParenthesis with
  | false =>
    have htext : Nests 0 kind.text := by
      cases kind with
      | integer value => exact nests_ofInt _
      | operator op => exact nests_symbol op
      | invalid =>
        have hall : TokenKind.invalid.text.all fun c => c ≠ '(' && c ≠ ')' := by decide
        exact nests_of_forall fun c hc => by simpa using List.all_eq_true.mp hall c hc
      | leftParen | rightParen => cases hp
    exact (hflat _ (nests_of_forall (h.ne_parenthesis hp))).trans (hflat _ htext).symm
  | true =>
    cases kind with
    | leftParen | rightParen => rw [show lexeme = _ from h]; rfl
    | integer | operator | invalid => cases hp

/-- A text is nested like what is spelled for its tokens. -/
theorem Text.nesting_spell_tokenize (s : Text) :
    (TokenKind.spell ((tokenize s).map Token.kind)).nesting = s.nesting := by
  have hspell : ∀ tokens : List Token, (∀ token ∈ tokens, token.kind.IsWrittenAs token.lexeme) →
      ∀ opened, openDepth opened (tokens.map Token.lexeme).flatten =
        openDepth opened (TokenKind.spell (tokens.map Token.kind)) := by
    intro tokens
    induction tokens with
    | nil => exact fun _ _ => rfl
    | cons token rest ih =>
      intro h opened
      rw [List.forall_mem_cons] at h
      rw [List.map_cons, List.flatten_cons, h.1.openDepth_eq, List.map_cons, TokenKind.spell_cons]
      exact openDepth_append (ih h.2) _ opened
  have hs := hspell (tokenize s) (fun token => isWrittenAs_of_mem_tokenize) 0
  rw [map_lexeme_tokenize, Text.flatten_lexemes] at hs
  exact hs.symm

namespace Expr

theorem itemsDepth_linksJson_le {links : List Link}
    (h : ∀ link ∈ links, link.operand.toJson.depth ≤ 5 * link.operand.chainDepth + 3) :
    Json.itemsDepth (linksJson links) ≤ 5 * linksChainDepth links + 4 := by
  induction links with
  | nil => exact Nat.zero_le _
  | cons link rest ih =>
    obtain ⟨op, operand⟩ := link
    rw [List.forall_mem_cons] at h
    have hoperand : operand.toJson.depth ≤ 5 * operand.chainDepth + 3 := h.1
    have hrest := ih h.2
    rw [itemsDepth_linksJson_cons, linksChainDepth]
    omega

/-- Each chain is nested in at most five arrays and objects, and a literal takes three. -/
theorem depth_toJson_le_chainDepth (e : Expr) : e.toJson.depth ≤ 5 * e.chainDepth + 3 := by
  induction e using Expr.induction with
  | literal value span =>
    rw [depth_toJson_literal]
    omega
  | chain first links span ihf ihl =>
    have hlinks := itemsDepth_linksJson_le ihl
    rw [depth_toJson_chain, chainDepth]
    omega

open Abacus.Derivation

/-- The parentheses of a text limit how deeply its expression is nested as JSON. -/
theorem depth_toJson_le {maxDepth : Nat} {s : Text} {e : Expr}
    (h : parse maxDepth (tokenize s) = .ok e) : e.toJson.depth ≤ 15 * (s.nesting + 1) + 3 := by
  obtain ⟨d, hd, htokens, -, rfl⟩ := exists_derivation_of_parse h
  have hnesting : s.nesting = d.depth := by
    rw [← Text.nesting_spell_tokenize, ← htokens, hd.nests_spell.nesting_eq]
  have hchains := hd.chainDepth_expr_add_level_le
  have hle := depth_toJson_le_chainDepth d.expr
  simp only [Phrase.level] at hchains
  omega

/-- Spans of a text whose offsets are numbers of 64 bits. -/
theorem isWord_span_of_isNodeOf {maxDepth : Nat} {s : Text} {e n : Expr}
    (hs : Text.byteSize s < 18446744073709551616) (h : parse maxDepth (tokenize s) = .ok e)
    (hn : n.IsNodeOf e) : n.span.IsWord := by
  obtain ⟨d, hd, htokens, hdepth, rfl⟩ := exists_derivation_of_parse h
  obtain ⟨d', hpiece, rfl⟩ := hd.exists_piece_of_isNodeOf hn
  obtain ⟨s₁, s₂, s₃, -, rfl, -, hspan, -⟩ := hpiece.exists_slice htokens hdepth
  rw [Text.byteSize_append, Text.byteSize_append] at hs
  rw [hspan]
  exact ⟨by show Text.byteSize s₁ < _; omega, by show Text.byteSize s₁ + Text.byteSize s₂ < _; omega⟩

/-- An expression can be written and read back if its literals can, and its spans are numbers of 64
bits. -/
theorem isWritable_of_forall {e : Expr} (hl : ∀ value ∈ e.literals, value.IsWritable)
    (hs : ∀ n : Expr, n.IsNodeOf e → n.span.IsWord) : e.IsWritable := by
  induction e using Expr.induction with
  | literal value span =>
    rw [forall_isNodeOf_literal_iff] at hs
    exact .literal (hl value (List.mem_singleton.mpr rfl)) hs
  | chain first links span ihf ihl =>
    rw [forall_mem_literals_chain_iff] at hl
    rw [forall_isNodeOf_chain_iff] at hs
    obtain ⟨hself, hfirst, hlinks⟩ := hs
    exact .chain (ihf hl.1 hfirst) (fun link hm => ihl link hm (hl.2 link hm) (hlinks link hm)) hself

/-- What is read from a text of less than `2 ^ 64` bytes can be written and read back. -/
theorem isWritable_of_parse {maxDepth : Nat} {s : Text} {e : Expr}
    (hs : Text.byteSize s < 18446744073709551616) (h : parse maxDepth (tokenize s) = .ok e) :
    e.IsWritable := by
  refine isWritable_of_forall (fun value hv => ?_) fun n => isWord_span_of_isNodeOf hs h
  obtain ⟨n, rfl, -⟩ := Everywhere.forall_mem_literals (isPlain_of_parse h) value hv
  exact trivial

end Expr

namespace Calculator

variable {calculator : Calculator} {s : Text} {e : Expr}

/-- **What is written for a parsed expression is read back**, if it is within the limit of the
reader, and only then. Seven parentheses that are open at once are always within it. -/
theorem json_reads_back (hs : Text.byteSize s < 18446744073709551616)
    (h : (calculator.parse s).outcome = .ok e) :
    Expr.ofJsonText? e.jsonText = (if e.toJson.depth ≤ maxJsonDepth then some e else none) ∧
      e.toJson.depth ≤ 15 * (s.nesting + 1) + 3 ∧
      (s.nesting ≤ 7 → Expr.ofJsonText? e.jsonText = some e) := by
  have hparse := ((calculator.outcome_parse_eq_ok_iff s e).mp h).1
  have hread := Expr.ofJsonText?_jsonText (Expr.isWritable_of_parse hs hparse)
  have hdepth := Expr.depth_toJson_le hparse
  refine ⟨hread, hdepth, fun hseven => ?_⟩
  rw [hread, if_pos]
  rw [maxJsonDepth]
  omega

/-- `8-2*(3-1)` is written and read back. -/
theorem json_reads_back_for_difference :
    ∃ e, ((standard defaultMaxDepth).parse "8-2*(3-1)".toList).outcome = .ok e ∧
      Text.byteSize "8-2*(3-1)".toList < 18446744073709551616 ∧
      Text.nesting "8-2*(3-1)".toList ≤ 7 ∧ Expr.ofJsonText? e.jsonText = some e := by
  obtain ⟨e, he⟩ : ∃ e,
      ((standard defaultMaxDepth).parse "8-2*(3-1)".toList).outcome = .ok e := ⟨_, rfl⟩
  have hsize : Text.byteSize "8-2*(3-1)".toList < 18446744073709551616 := by decide
  have hseven : Text.nesting "8-2*(3-1)".toList ≤ 7 := by decide
  exact ⟨e, he, hsize, hseven, (json_reads_back hsize he).2.2 hseven⟩

/-- With eight parentheses open at once, each around a sum of a product of a power, what is written
is not read back: 128 arrays and objects are nested in it. -/
theorem json_reads_back_not_for_eight_parentheses :
    ∃ e, ((standard defaultMaxDepth).parse
        "1+1*1^(1+1*1^(1+1*1^(1+1*1^(1+1*1^(1+1*1^(1+1*1^(1+1*1^(1+1))))))))".toList).outcome =
          .ok e ∧
      Expr.ofJsonText? e.jsonText = none := by
  have hdepth : (((standard defaultMaxDepth).parse
      "1+1*1^(1+1*1^(1+1*1^(1+1*1^(1+1*1^(1+1*1^(1+1*1^(1+1*1^(1+1))))))))".toList).outcome.toOption.map
        fun e => e.toJson.depth) = some 128 := by
    decide +kernel
  obtain ⟨e, he, hdepth⟩ := Option.map_eq_some_iff.mp hdepth
  have hparse := Except.toOption_eq_some_iff.mp he
  refine ⟨e, hparse, ?_⟩
  rw [Expr.ofJsonText?_jsonText (Expr.isWritable_of_parse (by decide)
    (((standard defaultMaxDepth).outcome_parse_eq_ok_iff _ e).mp hparse).1), hdepth]
  rfl

end Calculator

end Abacus
