import Abacus.Expr.Parser
import Abacus.Proofs.Grammar

/-!
# Reading along a derivation

The parser reads the tokens of every derivation as the expression that is meant, whatever it
has read before and whatever follows (`readsAs_of_isA`). Chains that wait are kept by
level, so the statement for a phrase names the levels that the phrase is about: on the levels
outside of it nothing changes, and closing the chains inside of it gives its expression.

Completeness of the parser follows: what is derived with few enough open parentheses is
parsed, as the expression that is meant (`parse_tokens`).
-/

namespace Abacus

namespace Pending

/-! ### Waiting chains by phrase -/

/-- The chains that wait outside of a phrase. -/
def outside (p : Pending) : Phrase → Pending
  | .sum => empty
  | .product => ⟨p.sum, none, none⟩
  | .power => ⟨p.sum, p.product, none⟩
  | .operand => p

/-- The chain of a phrase that has been begun. -/
def begun (p : Pending) : Phrase → Option OpenChain
  | .sum => p.sum
  | .product => p.product
  | .power => p.power
  | .operand => none

/-- An operand, with the chains inside of a phrase completed by it. -/
def closed (p : Pending) (e : Expr) : Phrase → Expr
  | .sum => p.finish e
  | .product => OpenChain.close p.product (OpenChain.close p.power e)
  | .power => OpenChain.close p.power e
  | .operand => e

variable {phrase : Phrase}

theorem closed_eq (p : Pending) (e : Expr) :
    p.closed e phrase = OpenChain.close (p.begun phrase) (p.closed e phrase.part) := by
  cases phrase <;> rfl

theorem outside_part {p : Pending} (h : p.outside phrase = p) : p.outside phrase.part = p := by
  cases phrase <;> (rw [← h]; rfl)

theorem begun_eq_none {p : Pending} (h : p.outside phrase = p) : p.begun phrase = none := by
  cases phrase <;> (rw [← h]; rfl)

theorem outside_eq_of_part {p q : Pending} (h : p.outside phrase.part = q) :
    p.outside phrase = q.outside phrase := by
  cases phrase <;> (rw [← h]; rfl)

theorem begun_eq_of_part {p q : Pending} (h : p.outside phrase.part = q) :
    p.begun phrase = q.begun phrase := by
  cases phrase <;> (rw [← h]; rfl)

/-- An operator closes the chains inside of the parts it stands between. -/
theorem outside_part_push (p : Pending) (e : Expr) {op : Operator} (h : op ∈ phrase.operators) :
    (p.push e op).outside phrase.part = p.push e op := by
  cases phrase <;> cases op <;> first | rfl | exact absurd h (by decide)

/-- An operator leaves the chains outside of its phrase as they are. -/
theorem outside_push (p : Pending) (e : Expr) {op : Operator} (h : op ∈ phrase.operators) :
    (p.push e op).outside phrase = p.outside phrase := by
  cases phrase <;> cases op <;> first | rfl | exact absurd h (by decide)

/-- An operator extends the chain of its phrase. -/
theorem begun_push (p : Pending) (e : Expr) {op : Operator} (h : op ∈ phrase.operators) :
    (p.push e op).begun phrase =
      some (OpenChain.extend (p.begun phrase) (p.closed e phrase.part) op) := by
  cases phrase <;> cases op <;> first | rfl | exact absurd h (by decide)

end Pending

namespace Expr

open Abacus.Derivation

variable (settings : ParserSettings)

theorem readOperator_operator {groups : List Group} (p : Pending) (e : Expr) {token : Token}
    {op : Operator} (hk : token.kind = .operator op)
    (hm : groups = [] → settings.minPrecedence ≤ op.precedence) (rest : List Token) :
    readOperator settings groups p e (token :: rest) =
      readOperand settings groups (p.push e op) rest := by
  cases groups with
  | nil => simp [readOperator, hk, Nat.not_lt.mpr (hm rfl)]
  | cons => simp [readOperator, hk]

/-- The state after some links of a chain: the chain of `phrase` that has been begun, together
with the operand at hand, is a chain of `first` and `links`, complete or to be extended. -/
def HoldsChain (phrase : Phrase) (p : Pending) (e : Expr) (first : Expr) (links : List Link) :
    Prop :=
  OpenChain.close (p.begun phrase) (p.closed e phrase.part) = ofChain first links ∧
    ∀ op, OpenChain.extend (p.begun phrase) (p.closed e phrase.part) op =
      ⟨first, links.reverse, op⟩

theorem holdsChain_nil {phrase : Phrase} {p : Pending} {e first : Expr}
    (hp : p.begun phrase = none) (he : p.closed e phrase.part = first) :
    HoldsChain phrase p e first [] := by
  rw [HoldsChain, hp, he]
  exact ⟨rfl, fun _ => rfl⟩

theorem holdsChain_concat {phrase : Phrase} {p : Pending} {e first operand : Expr} {op : Operator}
    {links : List Link} (hp : p.begun phrase = some ⟨first, links.reverse, op⟩)
    (he : p.closed e phrase.part = operand) :
    HoldsChain phrase p e first (links ++ [⟨op, operand⟩]) := by
  rw [HoldsChain, hp, he]
  refine ⟨?_, fun op' => ?_⟩
  · simp [OpenChain.close]
  · simp [OpenChain.extend]

/-- What reading the tokens of `d` does, where the chains inside of `phrase` have not begun. -/
def ReadsAs (phrase : Phrase) (d : Derivation) : Prop :=
  ∀ (groups : List Group) (p : Pending) (rest : List Token), p.outside phrase = p →
    settings.nesting + groups.length + d.depth ≤ settings.maxDepth →
    (groups = [] → settings.minPrecedence ≤ phrase.level) →
    ∃ p' e, p'.outside phrase = p ∧ p'.closed e phrase = d.expr ∧
      readOperand settings groups p (d.tokens ++ rest) = readOperator settings groups p' e rest

variable {settings}

/-- Reading the steps of a repetition extends the chain that has been begun by their links. -/
theorem readOperator_stepTokens {phrase : Phrase} {steps : List Step}
    (hne : phrase ≠ .operand) (hs : ∀ step ∈ steps, step.Joins phrase)
    (hr : ∀ step ∈ steps, ReadsAs settings phrase.part step.part) (groups : List Group)
    (rest : List Token) (hd : settings.nesting + groups.length + stepDepth steps ≤ settings.maxDepth)
    (hm : groups = [] → settings.minPrecedence ≤ phrase.level) {p : Pending} {e first : Expr}
    {links : List Link} (h : HoldsChain phrase p e first links) :
    ∃ p' e', p'.outside phrase = p.outside phrase ∧
      HoldsChain phrase p' e' first (links ++ stepLinks steps) ∧
      readOperator settings groups p e (stepTokens steps ++ rest) =
        readOperator settings groups p' e' rest := by
  induction steps generalizing p e links with
  | nil => exact ⟨p, e, rfl, by simpa [stepLinks] using h, rfl⟩
  | cons step steps ih =>
    obtain ⟨token, op, part⟩ := step
    rw [List.forall_mem_cons] at hs hr
    obtain ⟨⟨hk, hop⟩, hs⟩ := hs
    have hlevel := Phrase.mem_operators_iff.mp hop
    simp only at hk hop hlevel
    rw [stepDepth] at hd
    -- the operator, then the part
    obtain ⟨p₁, e₁, hout, hpart, hread⟩ := hr.1 groups (p.push e op) (stepTokens steps ++ rest)
      (p.outside_part_push e hop) (by simp only; omega)
      (fun hg => by have := hm hg; rw [Phrase.level_part hne]; omega)
    have hbegun : p₁.begun phrase = some ⟨first, links.reverse, op⟩ := by
      rw [Pending.begun_eq_of_part hout, Pending.begun_push p e hop, h.2]
    -- the steps after it
    obtain ⟨p', e', hout', hholds, hread'⟩ := ih hs hr.2 (by omega)
      (holdsChain_concat hbegun hpart)
    refine ⟨p', e', ?_, ?_, ?_⟩
    · rw [hout', Pending.outside_eq_of_part hout, Pending.outside_push p e hop]
    · rw [stepLinks]
      simpa using hholds
    · rw [stepTokens, List.cons_append, List.append_assoc,
        readOperator_operator settings p e hk (fun hg => hlevel ▸ hm hg), hread, hread']

/-- **Reading along a derivation.** -/
theorem readsAs_of_isA {phrase : Phrase} {d : Derivation} (h : IsA phrase d) :
    ReadsAs settings phrase d := by
  induction h with
  | number hk =>
    intro groups p rest _ _ _
    exact ⟨p, _, rfl, rfl, by simp [tokens, readOperand, hk]⟩
  | @group opening closing inner ho hi hc ih =>
    intro groups p rest _ hd _
    rw [depth] at hd
    obtain ⟨p', e, -, he, hread⟩ := ih (⟨p, opening.span⟩ :: groups) .empty (closing :: rest) rfl
      (by rw [List.length_cons]; omega) (by simp)
    refine ⟨p, (p'.finish e).withSpan (opening.span.cover closing.span), rfl, ?_, ?_⟩
    · rw [expr, ← he]
      rfl
    · rw [tokens, List.cons_append, List.append_assoc, List.singleton_append, readOperand, ho]
      simp only
      rw [if_neg (by omega), hread, readOperator, hc]
  | @repetition phrase first steps hne hf hs hp ihf ihs =>
    intro groups p rest hout hd hm
    rw [depth] at hd
    obtain ⟨p₁, e₁, hout₁, he₁, hread₁⟩ := ihf groups p (stepTokens steps ++ rest)
      (Pending.outside_part hout) (by omega)
      (fun hg => by have := hm hg; rw [Phrase.level_part hne]; omega)
    have hbegun : p₁.begun phrase = none := by
      rw [Pending.begun_eq_of_part hout₁, Pending.begun_eq_none hout]
    obtain ⟨p', e', hout', hholds, hread'⟩ := readOperator_stepTokens hne hs ihs groups rest
      (by omega) hm (holdsChain_nil hbegun he₁)
    refine ⟨p', e', ?_, ?_, ?_⟩
    · rw [hout', Pending.outside_eq_of_part hout₁, hout]
    · rw [Pending.closed_eq, hholds.1, expr, List.nil_append]
    · rw [tokens, List.append_assoc, hread₁, hread']

/-- **Completeness of the parser**: what is derived with few enough open parentheses is parsed
as the expression that is meant. -/
theorem parse_tokens {d : Derivation} (h : IsA .sum d) {maxDepth : Nat} (hd : d.depth ≤ maxDepth) :
    parse maxDepth d.tokens = .ok d.expr := by
  have hreads : ReadsAs ⟨maxDepth, 0, 0, endOf d.tokens⟩ .sum d := readsAs_of_isA h
  obtain ⟨p, e, -, he, hread⟩ := hreads [] .empty [] rfl (by simpa using hd) (by simp)
  rw [List.append_nil] at hread
  have hne : d.tokens.isEmpty = false := by simpa using h.tokens_ne_nil
  rw [parse, hne, parseLeading, hread, readOperator]
  simp only [Bool.false_eq_true, if_false, ← he, Pending.closed]

end Expr

end Abacus
