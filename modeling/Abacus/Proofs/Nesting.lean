import Abacus.Proofs.Recognition
import Abacus.Proofs.Spelling
import Abacus.Proofs.Splice

/-!
# How deeply parentheses are nested

The nesting of a text is the greatest number of parentheses that are open at once while it is
read. It is what the limit of the parser is about: the tokens of a derivation are spelled by a
text whose nesting is the depth of the derivation (`IsA.nests_spell`). It is also what the nesting
of chains depends on: there are at most three of them for each parenthesis, and three outside
(`IsA.chainDepth_expr_add_level_le`).

The printer writes no parentheses that the grammar does not ask for. So the text of a parsed
expression is nested no more deeply than the text that was parsed
(`IsA.fits_expr`). The proof needs one thing more: where an operand is too weak for its place,
the source has it in parentheses, and there its own text is less deep by one (`Fits`).
-/

namespace Abacus

namespace Text

/-- The most parentheses that are open at once while a text is read, when `opened` are open
before it. A closing parenthesis without an opening one closes nothing. -/
def openDepth (opened : Nat) : Text → Nat
  | [] => opened
  | c :: rest =>
    max opened (openDepth
      (if c = '(' then opened + 1 else if c = ')' then opened - 1 else opened) rest)

/-- How deeply the parentheses of a text are nested. -/
def nesting (s : Text) : Nat := openDepth 0 s

/-- The text opens `n` parentheses at once and closes all of them, whatever stands around it. -/
def Nests (n : Nat) (s : Text) : Prop :=
  ∀ opened rest, openDepth opened (s ++ rest) = max (opened + n) (openDepth opened rest)

theorem le_openDepth (opened : Nat) (s : Text) : opened ≤ openDepth opened s := by
  cases s with
  | nil => exact Nat.le_refl _
  | cons c rest => exact Nat.le_max_left _ _

theorem Nests.nesting_eq {n : Nat} {s : Text} (h : Nests n s) : s.nesting = n := by
  have hs := h 0 []
  rw [List.append_nil, openDepth] at hs
  unfold nesting
  rw [hs]
  omega

theorem nests_nil : Nests 0 [] := by
  intro opened rest
  have hle := le_openDepth opened rest
  rw [List.nil_append]
  omega

theorem Nests.append {m n : Nat} {s t : Text} (hs : Nests m s) (ht : Nests n t) :
    Nests (max m n) (s ++ t) := by
  intro opened rest
  rw [List.append_assoc, hs, ht]
  omega

theorem nests_singleton {c : Char} (hl : c ≠ '(') (hr : c ≠ ')') : Nests 0 [c] := by
  intro opened rest
  rw [List.cons_append, List.nil_append, openDepth, if_neg hl, if_neg hr, Nat.add_zero]

theorem nests_of_forall {s : Text} (h : ∀ c ∈ s, c ≠ '(' ∧ c ≠ ')') : Nests 0 s := by
  induction s with
  | nil => exact nests_nil
  | cons c rest ih =>
    rw [List.forall_mem_cons] at h
    exact (nests_singleton h.1.1 h.1.2).append (ih h.2)

/-- Parentheses around a text are open together with those in it. -/
theorem Nests.wrap {n : Nat} {s : Text} (h : Nests n s) : Nests (n + 1) ('(' :: s ++ [')']) := by
  intro opened rest
  have hle := le_openDepth opened rest
  rw [List.append_assoc, List.cons_append, openDepth, if_pos rfl, h, List.singleton_append,
    openDepth, if_neg (by decide), if_pos rfl, Nat.add_sub_cancel]
  omega

theorem nests_ofInt (n : Int) : Nests 0 (ofInt n) := by
  have hdigit : ∀ c : Char, c.isDigit → c ≠ '(' ∧ c ≠ ')' := by
    intro c hc
    constructor <;> (rintro rfl; exact absurd hc (by decide))
  have hdigits : Nests 0 (ofNat n.natAbs) := nests_of_forall fun c hc =>
    hdigit c (Nat.isDigit_of_mem_toDigits (by decide) (by decide) hc)
  rw [ofInt]
  split
  · exact (nests_singleton (by decide) (by decide)).append hdigits
  · exact hdigits

theorem nests_symbol (op : Operator) : Nests 0 [op.symbol] :=
  nests_singleton (by cases op <;> decide) (by cases op <;> decide)

end Text

/-- What is no parenthesis is written without parentheses. -/
theorem TokenKind.IsWrittenAs.ne_parenthesis {kind : TokenKind} {lexeme : Text}
    (h : kind.IsWrittenAs lexeme) (hp : kind.isParenthesis = false) :
    ∀ c ∈ lexeme, c ≠ '(' ∧ c ≠ ')' := by
  cases kind with
  | integer value =>
    intro c hc
    constructor <;> (rintro rfl; exact absurd (h _ hc) (by decide))
  | operator op =>
    obtain rfl : lexeme = [op.symbol] := h
    cases op <;> simp [Operator.symbol]
  | leftParen | rightParen => cases hp
  | invalid =>
    obtain ⟨c, rfl, hc⟩ := h
    rw [List.forall_mem_singleton]
    constructor <;> (rintro rfl; exact absurd hc (by decide))

namespace Derivation

open Text TokenKind

/-- **The nesting of a spelling is the depth of the derivation.** -/
theorem IsA.nests_spell {phrase : Phrase} {d : Derivation} (h : IsA phrase d) :
    Nests d.depth (spell (d.tokens.map Token.kind)) := by
  induction h with
  | @number token value hk =>
    rw [depth, tokens, List.map_singleton, hk, spell_cons, spell_nil, List.append_nil]
    exact nests_ofInt _
  | @group opening closing inner ho _ hc ih =>
    rw [depth, tokens, List.map_cons, List.map_append, List.map_singleton, ho, hc, spell_cons,
      spell_append, spell_cons, spell_nil, List.append_nil]
    exact ih.wrap
  | @repetition phrase first steps _ _ hs hparts ihf ihs =>
    rw [depth, tokens, List.map_append, spell_append]
    refine ihf.append ?_
    clear ihf hparts
    induction steps with
    | nil => exact nests_nil
    | cons step rest ih =>
      obtain ⟨token, op, part⟩ := step
      rw [List.forall_mem_cons] at hs ihs
      have hk : token.kind = .operator op := hs.1.1
      rw [stepDepth, stepTokens, List.map_cons, List.map_append, hk, spell_cons, spell_append]
      have hstep := (nests_symbol op).append (ihs.1.append (ih hs.2 ihs.2))
      rwa [Nat.zero_max] at hstep

/-! ### Chains and parentheses -/

/-- **Chains are nested no more than three times as deep as parentheses.** The level of the phrase
counts the chains that could still be around what is derived without another parenthesis. -/
theorem IsA.chainDepth_expr_add_level_le {phrase : Phrase} {d : Derivation}
    (h : IsA phrase d) : d.expr.chainDepth + phrase.level ≤ 3 * d.depth + 4 := by
  induction h with
  | number => rw [expr, Expr.chainDepth, depth, Phrase.level]
  | @group opening closing inner _ _ _ ih =>
    simp only [Phrase.level] at ih ⊢
    rw [expr, Expr.chainDepth_withSpan, depth]
    omega
  | @repetition phrase first steps hne _ _ _ ihf ihs =>
    have hpart := Phrase.level_part hne
    have hlevel := phrase.level_le_four
    have hfirst : first.expr.chainDepth ≤
        3 * max first.depth (stepDepth steps) + 3 - phrase.level := by omega
    have hoperands : ∀ link ∈ stepLinks steps, link.operand.chainDepth ≤
        3 * max first.depth (stepDepth steps) + 3 - phrase.level := by
      refine forall_mem_stepLinks.mpr fun step hm => ?_
      have hstep := ihs step hm
      have hle := depth_le_stepDepth hm
      show step.part.expr.chainDepth ≤ _
      omega
    have hchain := Expr.chainDepth_ofChain_le hfirst hoperands
    rw [expr, depth]
    omega

/-! ### The nesting of what is printed -/

/-- The text of an expression is nested at most `limit` deep, and there is room for parentheses
around it wherever an operand of the phrase gets them. -/
def Fits (phrase : Phrase) (limit : Nat) (e : Expr) : Prop :=
  ∃ n ≤ limit, Nests n e.text ∧
    ∀ weak : Nat → Bool, (∀ l, weak l → l < phrase.level) → e.isWrapped weak → n + 1 ≤ limit

theorem Fits.wrapIf {phrase : Phrase} {limit : Nat} {e : Expr} (h : Fits phrase limit e)
    (weak : Nat → Bool) (hweak : ∀ l, weak l → l < phrase.level) :
    ∃ n ≤ limit, Nests n (Expr.wrapIf (e.isWrapped weak) e.text) := by
  obtain ⟨n, hn, htext, hroom⟩ := h
  cases hw : e.isWrapped weak with
  | false => exact ⟨n, hn, htext⟩
  | true => exact ⟨n + 1, hroom weak hweak hw, htext.wrap⟩

theorem exists_nests_linksText {l limit : Nat} {links : List Link}
    (h : ∀ link ∈ links, ∃ n ≤ limit,
      Nests n (Expr.wrapIf (link.operand.isWrapped (· ≤ l)) link.operand.text)) :
    ∃ n ≤ limit, Nests n (Expr.linksText l links) := by
  induction links with
  | nil => exact ⟨0, Nat.zero_le _, nests_nil⟩
  | cons link rest ih =>
    obtain ⟨op, operand⟩ := link
    rw [List.forall_mem_cons] at h
    obtain ⟨n, hn, hoperand⟩ := h.1
    obtain ⟨m, hm, hrest⟩ := ih h.2
    refine ⟨max (max 0 n) m, by omega, ?_⟩
    rw [Expr.linksText]
    exact ((nests_symbol op).append hoperand).append hrest

/-- A chain fits where its operands fit. -/
theorem fits_chain {phrase : Phrase} (hne : phrase ≠ .operand) {first : Expr} {links : List Link}
    (hlinks : links ≠ []) (hop : ∀ link ∈ links, link.operator ∈ phrase.operators) {limit : Nat}
    (hf : Fits phrase.part limit first) (hl : ∀ link ∈ links, Fits phrase.part limit link.operand)
    (span : Span) : Fits phrase limit (.chain first links span) := by
  have hlevel : Expr.level links = phrase.level :=
    Expr.level_of_forall hlinks fun link hm => Phrase.mem_operators_iff.mp (hop link hm)
  have hpart := Phrase.level_part hne
  obtain ⟨n, hn, hfirst⟩ := hf.wrapIf (· < phrase.level) (by simp; omega)
  obtain ⟨m, hm, hrest⟩ := exists_nests_linksText fun link hm =>
    (hl link hm).wrapIf (· ≤ phrase.level) (by simp; omega)
  refine ⟨max n m, by omega, ?_, fun weak hweak hw => ?_⟩
  · rw [Expr.text, hlevel]
    exact hfirst.append hrest
  · -- a chain of the phrase is not too weak for it
    rw [Expr.isWrapped_chain, hlevel, Bool.and_eq_true] at hw
    exact absurd (hweak _ hw.2) (Nat.lt_irrefl _)

theorem Fits.mono {phrase : Phrase} {limit limit' : Nat} {e : Expr} (h : Fits phrase limit e)
    (hle : limit ≤ limit') : Fits phrase limit' e := by
  obtain ⟨n, hn, htext, hroom⟩ := h
  refine ⟨n, by omega, htext, fun weak hweak hw => ?_⟩
  have := hroom weak hweak hw
  omega

theorem Fits.congr {phrase : Phrase} {limit : Nat} {e e' : Expr} (h : Fits phrase limit e)
    (hp : Expr.SamePrint e' e) : Fits phrase limit e' := by
  obtain ⟨n, hn, htext, hroom⟩ := h
  exact ⟨n, hn, hp.1 ▸ htext, fun weak hweak hw => hroom weak hweak (hp.2 weak ▸ hw)⟩

/-- **The text of a parsed expression is nested no more deeply than its source.** -/
theorem IsA.fits_expr {phrase : Phrase} {d : Derivation} (h : IsA phrase d)
    (hi : ∀ token ∈ d.tokens, ∀ value, token.kind = .integer value → 0 ≤ value.toInt) :
    Fits phrase d.depth d.expr := by
  induction h with
  | @number token value hk =>
    have hvalue := hi token (by simp [tokens]) value hk
    refine ⟨0, Nat.zero_le _, nests_ofInt _, fun _ _ hw => ?_⟩
    have hneg : value < 0 := by simpa [expr, Expr.isWrapped, Literal.isNegative] using hw
    rw [Int64.lt_iff_toInt_lt, Int64.toInt_zero] at hneg
    omega
  | @group opening closing inner ho _ hc ih =>
    obtain ⟨n, hn, htext, -⟩ := ih fun token hm => hi token (by simp [tokens, hm])
    rw [depth, expr]
    refine Fits.congr ?_ (Expr.samePrint_withSpan _ _)
    exact ⟨n, by omega, htext, fun _ _ _ => by omega⟩
  | @repetition phrase first steps hne _ hs _ ihf ihs =>
    have hfirst := ihf fun token hm => hi token (by simp [tokens, hm])
    have hparts : ∀ step ∈ steps, Fits phrase.part step.part.depth step.part.expr := by
      intro step hm
      exact ihs step hm fun token ht => hi token (by simp [tokens, mem_stepTokens hm ht])
    rw [depth, expr]
    by_cases hsteps : steps = []
    · -- nothing but the first part, which fits where the phrase is even weaker
      obtain ⟨n, hn, htext, hroom⟩ := hfirst
      rw [hsteps]
      refine ⟨n, by omega, htext, fun weak hweak hw => ?_⟩
      have hpart := Phrase.level_part hne
      have := hroom weak (fun l hl => by have := hweak l hl; omega) hw
      omega
    · have hlinks := stepLinks_ne_nil hsteps
      refine (fits_chain hne hlinks (forall_mem_stepLinks.mpr ?_) ?_ (forall_mem_stepLinks.mpr ?_)
        default).congr (Expr.samePrint_ofChain _ hlinks _)
      · exact fun step hstep => (hs step hstep).2
      · exact hfirst.mono (Nat.le_max_left _ _)
      · intro step hstep
        have hle := depth_le_stepDepth hstep
        exact (hparts step hstep).mono (by omega)

end Derivation

end Abacus
