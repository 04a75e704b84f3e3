import Abacus.Proofs.Reduct
import Abacus.Proofs.Rounding

/-!
# Finite values

No value of an expression is infinite or without value, and neither is a literal that stands for
one. An operation can give such a double only as an integer, which is small, or as the result of
arithmetic on doubles, which is checked (`Value.isFinite_of_apply`): what its operands are does not
matter. So only the literals of an expression could bring in another double, and none of the
literals that reducing leaves does (`Expr.isReduced_reduceNode`).

`Literal.IsReduced` says more of a literal than that it is finite. It has the sort that reducing
decides on: integers below `10 ^ 15` are integers, and all other numbers are doubles.
-/

namespace Abacus

namespace Literal

/-- An integer below `10 ^ 15`, or a finite double that is no such integer. -/
def IsReduced : Literal → Prop
  | int n => n.toInt.natAbs < 1000000000000000
  | real x => x.isFinite ∧ ∀ n, x.toInt? = some n → 1000000000000000 ≤ n.natAbs

/-- A literal that is not an infinite double, and not one without value. -/
def IsFinite : Literal → Prop
  | int _ => True
  | real x => x.isFinite

theorem IsReduced.isFinite {l : Literal} (h : l.IsReduced) : l.IsFinite := by
  cases l with
  | int => trivial
  | real => exact h.1

end Literal

namespace Value

open Binary64

variable {pow : Binary64 → Binary64 → Binary64} {op : Operator} {a b v : Value} {x y : Binary64}

/-! ### Results that are checked -/

theorem checked32_eq_ok_iff {r : Int} :
    checked32 r = .ok v ↔ (-2147483648 ≤ r ∧ r ≤ 2147483647) ∧ v = int32 (.ofInt r) := by
  unfold checked32 fits32
  split <;> grind

theorem checked64_eq_ok_iff {r : Int} :
    checked64 r = .ok v ↔
      (-9223372036854775808 ≤ r ∧ r ≤ 9223372036854775807) ∧ v = int64 (.ofInt r) := by
  unfold checked64 fits64
  split <;> grind

theorem checked32_eq_error_iff {r : Int} {fault : ArithmeticFault} :
    checked32 r = .error fault ↔
      fault = .overflow ∧ ¬ (-2147483648 ≤ r ∧ r ≤ 2147483647) := by
  unfold checked32 fits32
  split <;> grind

theorem checked64_eq_error_iff {r : Int} {fault : ArithmeticFault} :
    checked64 r = .error fault ↔
      fault = .overflow ∧ ¬ (-9223372036854775808 ≤ r ∧ r ≤ 9223372036854775807) := by
  unfold checked64 fits64
  split <;> grind

theorem finite_eq_ok_iff : finite x = .ok v ↔ x.isFinite ∧ v = real x := by
  unfold finite
  split
  · next h => simp [h, eq_comm]
  · next h => simp [h]

theorem finite_eq_error_iff {fault : ArithmeticFault} :
    finite x = .error fault ↔ fault = .overflow ∧ ¬ x.isFinite := by
  unfold finite
  split <;> grind

/-! ### What operations give -/

theorem natAbs_le_of_toInt? {n : Int} (h : v.toInt? = some n) :
    n.natAbs ≤ 9223372036854775808 := by
  cases v with
  | int32 m =>
    obtain rfl := Option.some.inj h
    have := m.le_toInt
    have := m.toInt_lt
    omega
  | int64 m =>
    obtain rfl := Option.some.inj h
    have := m.le_toInt
    have := m.toInt_lt
    omega
  | real => cases h

theorem toReal_of_toInt? {n : Int} (h : v.toInt? = some n) : v.toReal = .ofInt n := by
  cases v with
  | int32 => rw [← Option.some.inj h, toReal]
  | int64 => rw [← Option.some.inj h, toReal]
  | real => cases h

theorem text_of_toInt? {n : Int} (h : v.toInt? = some n) : v.text = Text.ofInt n := by
  cases v with
  | int32 => rw [← Option.some.inj h, text]
  | int64 => rw [← Option.some.inj h, text]
  | real => cases h

/-- Integers are finite as doubles. -/
theorem isFinite_of_toInt? {n : Int} (h : v.toInt? = some n) : v.toReal.isFinite := by
  rw [toReal_of_toInt? h]
  exact isFinite_ofInt (Nat.le_trans (natAbs_le_of_toInt? h) (by decide))

theorem isFinite_of_finite (h : finite x = .ok v) : v.toReal.isFinite := by
  obtain ⟨hfinite, rfl⟩ := finite_eq_ok_iff.mp h
  exact hfinite

theorem isFinite_of_checked32 {n : Int} (h : checked32 n = .ok v) : v.toReal.isFinite := by
  obtain ⟨-, rfl⟩ := checked32_eq_ok_iff.mp h
  exact isFinite_of_toInt? rfl

theorem isFinite_of_checked64 {n : Int} (h : checked64 n = .ok v) : v.toReal.isFinite := by
  obtain ⟨-, rfl⟩ := checked64_eq_ok_iff.mp h
  exact isFinite_of_toInt? rfl

theorem isFinite_of_combine (h : combine op a b = .ok v) : v.toReal.isFinite := by
  unfold combine at h
  split at h
  · exact isFinite_of_checked32 h
  · split at h
    · exact isFinite_of_checked64 h
    · exact isFinite_of_finite h

theorem isFinite_of_divide (h : divide x y = .ok v) : v.toReal.isFinite := by
  unfold divide at h
  split at h
  · cases h
  · exact isFinite_of_finite h

theorem isFinite_ofInt64 (n : Int64) : (ofInt64 n).toReal.isFinite := by
  unfold ofInt64
  split
  · exact isFinite_of_toInt? rfl
  · exact isFinite_of_toInt? rfl

theorem isFinite_of_power (h : power pow x y = .ok v) : v.toReal.isFinite := by
  unfold power at h
  split at h
  · obtain rfl := Except.ok.inj h
    exact isFinite_ofInt64 _
  · split at h
    · cases h
    · exact isFinite_of_finite h

/-- **Whatever its operands, an operation gives nothing but finite values.** -/
theorem isFinite_of_apply (h : apply pow op a b = .ok v) : v.toReal.isFinite := by
  cases op with
  | add | sub | mul => exact isFinite_of_combine h
  | div => exact isFinite_of_divide h
  | pow => exact isFinite_of_power h

/-! ### Values as literals -/

/-- **A finite value stands as a literal of the right sort.** -/
theorem isReduced_toLiteral (h : v.toReal.isFinite) : v.toLiteral.IsReduced := by
  cases v with
  | int32 n =>
    have := n.le_toInt
    have := n.toInt_lt
    rw [toLiteral, Literal.IsReduced, Int32.toInt_toInt64]
    omega
  | int64 n =>
    rw [toLiteral]
    split
    · next hlt => exact hlt
    · next hge =>
      -- the bound is a double, so nothing from it on is rounded below it
      refine ⟨h, fun _ hn => ?_⟩
      have hbound : IsShort literalBound := isShort_of_lt (by decide)
      exact le_natAbs_of_toInt?_ofInt hbound (by decide) (Nat.le_of_not_lt hge) hn
  | real x =>
    rw [toLiteral]
    cases hx : x.toInt? with
    | none => exact ⟨h, fun n hn => by rw [hx] at hn; cases hn⟩
    | some n =>
      simp only
      split
      · next hlt =>
        rw [literalBound] at hlt
        rw [Literal.IsReduced, Int64.toInt_ofInt_of_le (by omega) (by omega)]
        exact hlt
      · next hge =>
        refine ⟨h, fun m hm => ?_⟩
        obtain rfl := Option.some.inj (hx.symm.trans hm)
        exact Nat.le_of_not_lt hge

theorem isFinite_ofLiteral {l : Literal} (h : l.IsFinite) : (ofLiteral l).toReal.isFinite := by
  cases l with
  | int n => exact isFinite_ofInt64 n
  | real x => exact h

/-- A value that has stood as a literal is finite if it was. -/
theorem isFinite_retype (h : v.toReal.isFinite) : v.retype.toReal.isFinite :=
  isFinite_ofLiteral (isReduced_toLiteral h).isFinite

end Value

namespace Expr

variable {pow : Binary64 → Binary64 → Binary64}

/-! ### Evaluating -/

theorem isFinite_resume {op : Operator} {v : Value} (h : v.toReal.isFinite) :
    (resume op v).toReal.isFinite := by
  cases op with
  | pow => exact Value.isFinite_retype h
  | add | sub | mul | div => exact h

/-- Links keep a value finite. Their operands need not be: each operation gives a finite value. -/
theorem isFinite_of_evaluateLinks {blame : Nat → ArithmeticFault → EvalError} {links : List Link}
    {acc v : Value} {index : Nat} (hacc : acc.toReal.isFinite)
    (h : evaluateLinks pow blame acc index links = .ok v) : v.toReal.isFinite := by
  induction links generalizing acc index with
  | nil =>
    obtain rfl := Except.ok.inj h
    exact hacc
  | cons link rest ih =>
    obtain ⟨op, operand⟩ := link
    rw [evaluateLinks, Except.bind_eq_ok_iff] at h
    obtain ⟨right, -, h⟩ := h
    cases happly : Value.apply pow op acc right with
    | error fault =>
      rw [happly] at h
      cases h
    | ok result =>
      rw [happly] at h
      exact ih (isFinite_resume (Value.isFinite_of_apply happly)) h

/-- **An expression of finite literals has a finite value**, if it has one. -/
theorem isFinite_of_evaluate {e : Expr} (hl : ∀ l ∈ e.literals, l.IsFinite) {v : Value}
    (h : e.evaluate pow = .ok v) : v.toReal.isFinite := by
  induction e using Expr.induction generalizing v with
  | literal value span =>
    obtain rfl := Except.ok.inj h
    exact Value.isFinite_ofLiteral (hl value (List.mem_singleton.mpr rfl))
  | chain first links span ihf _ =>
    rw [evaluate, Except.bind_eq_ok_iff] at h
    obtain ⟨start, hstart, h⟩ := h
    exact isFinite_of_evaluateLinks (ihf (forall_mem_literals_chain_iff.mp hl).1 hstart) h

theorem isFinite_of_evaluateReal {e : Expr} (hl : ∀ l ∈ e.literals, l.IsFinite) {x : Binary64}
    (h : e.evaluateReal pow = .ok x) : x.isFinite := by
  rw [evaluateReal] at h
  cases hvalue : e.evaluate pow with
  | error err =>
    rw [hvalue] at h
    cases h
  | ok v =>
    rw [hvalue] at h
    obtain rfl := Except.ok.inj h
    exact isFinite_of_evaluate hl hvalue

/-! ### Reducing -/

/-- Folding powers leaves a literal that stands for a value. -/
theorem isReduced_foldPowers {span : Span} {acc : Expr} {links : List Link} {reduced : Expr}
    (hacc : ∀ l ∈ acc.literals, l.IsReduced)
    (h : (foldPowers pow span acc links).outcome = .ok reduced) :
    ∀ l ∈ reduced.literals, l.IsReduced := by
  induction links generalizing acc with
  | nil =>
    obtain rfl := Except.ok.inj h
    exact hacc
  | cons link rest ih =>
    rw [outcome_foldPowers_cons_eq_ok_iff] at h
    obtain ⟨base, exponent, value, -, -, hpower, h⟩ := h
    refine ih ?_ h
    intro l hl
    obtain rfl := List.mem_singleton.mp hl
    exact Value.isReduced_toLiteral (Value.isFinite_of_power hpower)

/-- **Reducing gives literals of the right sort**, if the expression had no others. -/
theorem isReduced_reduceNode {e reduced : Expr} (hl : ∀ l ∈ e.literals, l.IsReduced)
    (h : (e.reduceNode pow).outcome = .ok reduced) : ∀ l ∈ reduced.literals, l.IsReduced := by
  induction e using Expr.induction generalizing reduced with
  | literal value span =>
    obtain rfl := Except.ok.inj h
    exact hl
  | chain first links span ihf ihl =>
    rw [forall_mem_literals_chain_iff] at hl
    rw [outcome_reduceNode_chain_eq_ok_iff] at h
    obtain ⟨first', links', hf, hlinks, hr⟩ := h
    have hfirst' := ihf hl.1 hf
    have hlinks' : ∀ link ∈ links', ∀ l ∈ link.operand.literals, l.IsReduced := by
      intro link' hm'
      obtain ⟨link, hm, -, hlink⟩ := exists_of_mem_reduceLinks hlinks hm'
      exact ihl link hm (hl.2 link hm) hlink
    by_cases hpow : links'.head?.any (·.operator = .pow)
    · rw [outcome_rebuild_of_pow hpow] at hr
      exact isReduced_foldPowers hfirst' hr
    · by_cases hne : links' = []
      · subst hne
        obtain rfl := Except.ok.inj hr
        rw [ofChain_nil, literals_withSpan]
        exact hfirst'
      · rw [outcome_rebuild_of_not_pow hpow hne] at hr
        obtain rfl := Except.ok.inj hr
        exact forall_mem_literals_chain_iff.mpr ⟨hfirst', hlinks'⟩

end Expr

end Abacus
