import Abacus.Proofs.Finite
import Abacus.Report

/-!
# Integers as they are printed

A result is printed as a double, and a double has 53 binary digits. So an integer that needs no more
is printed with its own digits, and one that does is printed as another integer, the double next to
it. Below `10 ^ 16` that concerns the odd integers from `2 ^ 53` on: they are printed as the
neighbour that is a multiple of four (`Calculator.respond_integer`).

The digits are found by a search from coarse grids to fine ones. For a double that is an integer
`n` below `10 ^ 16`, the decimals on a grid of tens are even, so all of those that are not above
`2 ^ 54` are doubles themselves, and none of them but `n` reads back as `n`. The search stops at the
first grid that contains `n`, which at the latest is that of the integers; what is printed there are
the digits of `n`, those that the grid leaves out being zeros.
-/

namespace Abacus

/-! ### Digits -/

theorem Text.ofNat_mul_pow {d : Nat} (hd : 0 < d) (k : Nat) :
    ofNat (d * Nat.pow 10 k) = ofNat d ++ List.replicate k '0' := by
  induction k with
  | zero =>
    rw [List.replicate_zero, List.append_nil]
    exact congrArg ofNat (Nat.mul_one d)
  | succ k ih =>
    have hpos : 0 < d * Nat.pow 10 k := Nat.mul_pos hd (Nat.pow_pos (by decide))
    have hstep : d * Nat.pow 10 (k + 1) = 10 * (d * Nat.pow 10 k) + 0 := by
      rw [Nat.add_zero, Nat.mul_comm 10, Nat.mul_assoc]
      rfl
    rw [hstep, ofNat, ← Nat.toDigits_append_toDigits (by decide) hpos (by decide), ← ofNat, ih,
      List.append_assoc, List.replicate_succ']
    rfl

namespace Decimal

/-- A decimal without places after the point is written as the integer that it is. -/
theorem positional_natCast {d : Nat} (hd : 0 < d) (k : Nat) :
    (Decimal.mk d k).positional = Text.ofNat (d * Nat.pow 10 k) := by
  have hplaces : (-(k : Int)).toNat = 0 := by omega
  rw [Text.ofNat_mul_pow hd, positional, whole, fraction, hplaces, if_pos rfl, if_pos rfl]
  rfl

open Binary64

section

variable {x : Binary64} {n : Nat}

theorem readsBackAs_natCast_iff {d k : Nat} :
    (Decimal.mk d k).readsBackAs x ↔
      nearest x.negative (d * Nat.pow 10 k * quantaPerUnit) 1 = x := by
  have hplaces : (-(k : Int)).toNat = 0 := by omega
  rw [readsBackAs, beq_iff_eq, ofDecimal, hplaces, Int.toNat_natCast]

variable (hx : x.isFinite) (hn : x.quanta = n * quantaPerUnit) (hlt : n < 10000000000000000)

include hx hn in
theorem readsBackAs_self : nearest x.negative (n * quantaPerUnit) 1 = x := by
  have h := nearest_quanta hx (Nat.succ_pos 0)
  rwa [Nat.mul_one, hn] at h

include hn hlt in
/-- Of the even integers, none reads back as `n` but `n` itself. -/
theorem eq_of_readsBackAs {m : Nat} (heven : m % 2 = 0)
    (h : nearest x.negative (m * quantaPerUnit) 1 = x) : m = n := by
  have hquanta : (nearest x.negative (m * quantaPerUnit) 1).quanta = n * quantaPerUnit := by
    rw [h, hn]
  have hbound : 10000000000000002 ≤ 1 <<< 1023 := by decide
  rcases Nat.lt_trichotomy m n with hm | hm | hm
  · -- it is a double of its own
    have hshort : IsShort m := isShort_of_even heven (by simp only [Nat.reduceShiftLeft]; omega)
    rw [quanta_nearest_natural hshort (by omega)] at hquanta
    exact Nat.mul_right_cancel quantaPerUnit_pos hquanta
  · exact hm
  · -- the next even integer is a double that lies between
    obtain ⟨p, hp, hnp, hpm, hple⟩ : ∃ p, p % 2 = 0 ∧ n < p ∧ p ≤ m ∧ p ≤ 10000000000000002 :=
      ⟨n + 2 - n % 2, by omega, by omega, by omega, by omega⟩
    have hshort : IsShort p := isShort_of_even hp (by simp only [Nat.reduceShiftLeft]; omega)
    have hpquanta : (nearest x.negative (p * quantaPerUnit) 1).quanta = p * quantaPerUnit :=
      quanta_nearest_natural hshort (by omega)
    have hle : (nearest x.negative (p * quantaPerUnit) 1).quanta ≤
        (nearest x.negative (m * quantaPerUnit) 1).quanta := by
      refine quanta_le_quanta_nearest (isFinite_nearest_natural (Nat.le_trans hple hbound))
        (Nat.succ_pos 0) ?_
      rw [hpquanta, Nat.mul_one]
      exact Nat.mul_le_mul_right _ hpm
    rw [hpquanta, hquanta] at hle
    have := Nat.le_of_mul_le_mul_right hle quantaPerUnit_pos
    omega

/-! ### The search -/

include hn in
/-- On a grid of integers, what is below a number is below the integer. -/
theorem grid_quotient (k : Nat) :
    x.quanta * Nat.pow 10 (-(k : Int)).toNat / (quantaPerUnit * Nat.pow 10 (k : Int).toNat) =
      n / Nat.pow 10 k := by
  have hplaces : (-(k : Int)).toNat = 0 := by omega
  have hone : n * quantaPerUnit * Nat.pow 10 0 = n * quantaPerUnit := Nat.mul_one _
  rw [hn, hplaces, Int.toNat_natCast, hone, Nat.mul_comm quantaPerUnit,
    Nat.mul_div_mul_right _ _ quantaPerUnit_pos]

include hn in
theorem grid_rest (k : Nat) :
    x.quanta * Nat.pow 10 (-(k : Int)).toNat % (quantaPerUnit * Nat.pow 10 (k : Int).toNat) =
      n % Nat.pow 10 k * quantaPerUnit := by
  have hplaces : (-(k : Int)).toNat = 0 := by omega
  have hone : n * quantaPerUnit * Nat.pow 10 0 = n * quantaPerUnit := Nat.mul_one _
  rw [hn, hplaces, Int.toNat_natCast, hone, Nat.mul_comm quantaPerUnit, Nat.mul_mod_mul_right]

include hx hn in
/-- A grid that contains the number is where the search stops. -/
theorem onGrid?_of_dvd (tie : Tie) {k : Nat} (h : Nat.pow 10 k ∣ n) :
    onGrid? tie x k = some ⟨n / Nat.pow 10 k, k⟩ := by
  have hself : (Decimal.mk (n / Nat.pow 10 k : Nat) k).readsBackAs x := by
    rw [readsBackAs_natCast_iff, Nat.div_mul_cancel h]
    exact readsBackAs_self hx hn
  have hpos : 0 < quantaPerUnit * Nat.pow 10 (k : Int).toNat :=
    Nat.mul_pos quantaPerUnit_pos (Nat.pow_pos (by decide))
  simp only [onGrid?, grid_quotient hn, grid_rest hn, hself, Nat.mod_eq_zero_of_dvd h, Nat.zero_mul]
  cases (Decimal.mk (n / Nat.pow 10 k + 1 : Nat) k).readsBackAs x with
  | true => simp only [nearer, Nat.mul_zero, if_pos hpos]
  | false => rfl

include hn hlt in
/-- On a grid that does not contain the number, nothing reads back. -/
theorem onGrid?_of_not_dvd (tie : Tie) {k : Nat} (h : ¬ Nat.pow 10 k ∣ n) :
    onGrid? tie x k = none := by
  have heven : ∀ d, d * Nat.pow 10 k % 2 = 0 := by
    intro d
    cases k with
    | zero => exact absurd (Nat.one_dvd n) h
    | succ k =>
      have hstep : d * Nat.pow 10 (k + 1) = d * Nat.pow 10 k * 10 := (Nat.mul_assoc _ _ _).symm
      omega
  have hnone : ∀ d, (Decimal.mk d k).readsBackAs x = false := by
    intro d
    rw [Bool.eq_false_iff, Ne, readsBackAs_natCast_iff]
    intro hback
    exact h ⟨d, by rw [Nat.mul_comm, eq_of_readsBackAs hn hlt (heven d) hback]⟩
  simp only [onGrid?, grid_quotient hn, hnone]

include hx hn hlt in
/-- The search finds the number on some grid, if it has enough of them to come to the integers. -/
theorem search_eq (tie : Tie) {k grids : Nat} (h : k < grids) :
    ∃ j : Nat, Nat.pow 10 j ∣ n ∧ search tie x grids k = ⟨n / Nat.pow 10 j, j⟩ := by
  induction k generalizing grids with
  | zero =>
    obtain ⟨rest, rfl⟩ := Nat.exists_eq_add_of_lt h
    have hdvd : Nat.pow 10 0 ∣ n := Nat.one_dvd n
    refine ⟨0, hdvd, ?_⟩
    rw [search, onGrid?_of_dvd hx hn tie hdvd, Option.getD_some]
  | succ k ih =>
    obtain ⟨rest, rfl⟩ := Nat.exists_eq_add_of_lt h
    by_cases hdvd : Nat.pow 10 (k + 1) ∣ n
    · refine ⟨k + 1, hdvd, ?_⟩
      rw [search, onGrid?_of_dvd hx hn tie hdvd, Option.getD_some]
    · rw [search, onGrid?_of_not_dvd hn hlt tie hdvd, Option.getD_none]
      have hpred : ((k + 1 : Nat) : Int) - 1 = k := by omega
      rw [hpred]
      exact ih (by omega)

/-- The search begins at a grid of integers, and has enough grids to come to the finest of them. -/
theorem exists_coarseExponent_eq (hn : x.quanta = n * quantaPerUnit) (hpos : n ≠ 0)
    (hlt : n < 10000000000000000) : ∃ k : Nat, k < 20 ∧ coarseExponent x = k := by
  have hlog : x.quanta.log2 = n.log2 + 1074 := by
    rw [hn, mul_quantaPerUnit]
    exact log2_shiftLeft hpos 1074
  have hbound : n.log2 < 54 := (Nat.log2_lt hpos).mpr (Nat.lt_trans hlt (by decide))
  refine ⟨(coarseExponent x).toNat, ?_, ?_⟩
  · rw [coarseExponent, hlog]
    omega
  · rw [coarseExponent, hlog]
    omega

include hx hn hlt in
/-- **What is printed for an integer are its digits.** -/
theorem positional_shortest (tie : Tie) : (shortest tie x).positional = Text.ofNat n := by
  by_cases hzero : n = 0
  · rw [hzero, Nat.zero_mul] at hn
    rw [shortest, if_pos (isZero_iff.mpr hn), hzero]
    rfl
  · have hnonzero : ¬ x.isZero := by
      rw [isZero_iff, hn]
      exact Nat.mul_ne_zero hzero (Nat.ne_of_gt quantaPerUnit_pos)
    obtain ⟨k, hk, hcoarse⟩ := exists_coarseExponent_eq hn hzero hlt
    obtain ⟨j, hdvd, hsearch⟩ := search_eq hx hn hlt tie hk
    rw [shortest, if_neg hnonzero, hcoarse, hsearch, positional_natCast, Nat.div_mul_cancel hdvd]
    exact Nat.div_pos (Nat.le_of_dvd (Nat.pos_of_ne_zero hzero) hdvd) (Nat.pow_pos (by decide))

end

end Decimal

namespace Binary64

/-! ### Doubles that are integers -/

theorem text_of_isHuge_eq_false {x : Binary64} (hx : x.isFinite) (h : x.isHuge = false) :
    x.text = x.signText ++ (Decimal.shortest .up x).positional := by
  simp [text, h, plain, isNaN_of_isFinite hx, isInfinite_of_isFinite hx]

/-- **A double that is an integer below `10 ^ 16` is printed with the digits of the integer.** -/
theorem text_ofInt {n : Int} (hs : IsShort n.natAbs) (hlt : n.natAbs < 10000000000000000) :
    (ofInt n).text = Text.ofInt n := by
  have hbound : 10000000000000000 ≤ 1 <<< 1023 := by decide
  have hle : n.natAbs ≤ 1 <<< 1023 := Nat.le_trans (Nat.le_of_lt hlt) hbound
  have hfinite := isFinite_ofInt hle
  have hquanta := quanta_ofInt hs hle
  have hhuge : (ofInt n).isHuge = false := by
    rw [isHuge, hfinite, Bool.true_and, decide_eq_false_iff_not, Nat.not_le, hquanta]
    exact Nat.mul_lt_mul_of_pos_right hlt quantaPerUnit_pos
  rw [text_of_isHuge_eq_false hfinite hhuge, Decimal.positional_shortest hfinite hquanta hlt,
    signText, negative_ofInt, Text.ofInt]
  by_cases hneg : n < 0
  · simp [hneg]
  · simp [hneg]

/-- What the nearest double makes of an integer below `2 ^ 54`: nothing else if it is even, or below
`2 ^ 53`; of the other odd ones, the neighbour that is a multiple of four. -/
def nearestInteger (n : Int) : Int :=
  if n.natAbs ≤ 9007199254740992 ∨ n % 2 = 0 then n else if n % 4 = 1 then n - 1 else n + 1

theorem nearestInteger_eq_self {n : Int} (h : n.natAbs ≤ 9007199254740992 ∨ n % 2 = 0) :
    nearestInteger n = n := if_pos h

theorem isShort_nearestInteger {n : Int} (hlt : n.natAbs < 10000000000000000) :
    IsShort (nearestInteger n).natAbs := by
  by_cases hsmall : (nearestInteger n).natAbs < 9007199254740992
  · exact isShort_of_lt hsmall
  · have heven : (nearestInteger n).natAbs % 2 = 0 := by
      unfold nearestInteger at hsmall ⊢
      omega
    refine isShort_of_even heven ?_
    simp only [Nat.reduceShiftLeft]
    unfold nearestInteger
    omega

theorem ofInt_nearestInteger {n : Int} (hlt : n.natAbs < 10000000000000000) :
    ofInt (nearestInteger n) = ofInt n := by
  by_cases h : n.natAbs ≤ 9007199254740992 ∨ n % 2 = 0
  · rw [nearestInteger_eq_self h]
  · have hneighbour : nearestInteger n = if n % 4 = 1 then n - 1 else n + 1 := if_neg h
    have hneg : nearestInteger n < 0 ↔ n < 0 := by omega
    have hhalf : (nearestInteger n).natAbs / 2 + (nearestInteger n).natAbs % 2 *
        ((nearestInteger n).natAbs / 2 % 2) = n.natAbs / 2 + n.natAbs % 2 * (n.natAbs / 2 % 2) := by
      have heven : (nearestInteger n).natAbs % 2 = 0 := by omega
      have hodd : n.natAbs % 2 = 1 := by omega
      rw [heven, hodd]
      omega
    have hcode : nearestCode ((nearestInteger n).natAbs * quantaPerUnit) 1 =
        nearestCode (n.natAbs * quantaPerUnit) 1 := by
      rw [nearestCode_natural (by omega) (by omega), nearestCode_natural (by omega) (by omega),
        hhalf]
    rw [ofInt, ofInt, nearest_eq, nearest_eq, hcode]
    simp only [hneg]

end Binary64

namespace Calculator

open Binary64

variable {calculator : Calculator} {s : Text} {evaluation : Evaluation} {n : Int}

/-- A line that has a value is answered with the value as a double. -/
theorem outcome_respond (h : (calculator.evaluate s).outcome = .ok evaluation) :
    (calculator.respond s).outcome = .ok (String.ofList evaluation.value.toReal.text) := by
  have hne : s.isEmpty = false := by
    cases s with
    | nil => cases h
    | cons => rfl
  simp only [respond, hne, if_neg Bool.false_ne_true, Traced.outcome_bind, Traced.outcome_mapError,
    Traced.outcome_pure, h]
  rfl

/-- The text in which an integer below `10 ^ 16` is told: the digits of the nearest double. -/
def integerAnswer (n : Int) : Text :=
  if nearestInteger n = 10000000000000000 then "1e16".toList
  else if nearestInteger n = -10000000000000000 then "-1e16".toList
  else Text.ofInt (nearestInteger n)

theorem integerAnswer_eq_of_double (h : n.natAbs ≤ 9007199254740992 ∨ n % 2 = 0)
    (hlt : n.natAbs < 10000000000000000) : integerAnswer n = Text.ofInt n := by
  rw [integerAnswer, nearestInteger_eq_self h, if_neg (by omega), if_neg (by omega)]

theorem text_ofInt_eq_integerAnswer (hlt : n.natAbs < 10000000000000000) :
    (ofInt n).text = integerAnswer n := by
  rw [← ofInt_nearestInteger hlt, integerAnswer]
  split
  · next h =>
    rw [h]
    decide +kernel
  · split
    · next h =>
      rw [h]
      decide +kernel
    · next hne hne' =>
      refine text_ofInt (isShort_nearestInteger hlt) ?_
      unfold nearestInteger at hne hne' ⊢
      omega

/-- **What is told for an integer**: if a text has the value `n` below `10 ^ 16`, the answer is the
text of the double nearest to `n`. If `n` is even, or not above `2 ^ 53`, the double is `n`, and the
answer its digits, the text of the value. If not, they are those of the neighbour of `n` that is a
multiple of four, or `1e16` if that is `10 ^ 16`. -/
theorem respond_integer (h : (calculator.evaluate s).outcome = .ok evaluation)
    (hn : evaluation.value.toInt? = some n) (hlt : n.natAbs < 10000000000000000) :
    (calculator.respond s).outcome = .ok (String.ofList (integerAnswer n)) ∧
      (n.natAbs ≤ 9007199254740992 ∨ n % 2 = 0 →
        (calculator.respond s).outcome = .ok (String.ofList (Text.ofInt n)) ∧
          evaluation.value.text = Text.ofInt n) := by
  have hrespond : (calculator.respond s).outcome = .ok (String.ofList (integerAnswer n)) := by
    rw [outcome_respond h, Value.toReal_of_toInt? hn, text_ofInt_eq_integerAnswer hlt]
  refine ⟨hrespond, fun hdouble => ⟨?_, Value.text_of_toInt? hn⟩⟩
  rw [hrespond, integerAnswer_eq_of_double hdouble hlt]

/-- A product of 16 digits that is no double: it lies between `10 ^ 16` and `10 ^ 16 - 2`. -/
theorem evaluate_product_above_doubles :
    ((Calculator.standard 100).evaluate "99999999*(2^32-2147483647-2047483648)".toList).outcome =
      .ok ⟨"99999999*(4294967296-2147483647-2047483648)".toList, .int64 9999999999999999⟩ :=
  Except.toOption_eq_some_iff.mp (by decide +kernel)

/-- The value of the first product, 4425109362762851, is a double, and that of the second is none. -/
theorem respond_integer_of_products :
    ((Calculator.standard 100).respond "((100+1)^3)*((4^16)+255)".toList).outcome =
      .ok "4425109362762851" ∧
    ((Calculator.standard 100).respond "99999999*(2^32-2147483647-2047483648)".toList).outcome =
      .ok "1e16" := by
  have hdouble : ((Calculator.standard 100).evaluate "((100+1)^3)*((4^16)+255)".toList).outcome =
      .ok ⟨"1030301*(4294967296+255)".toList, .int64 4425109362762851⟩ :=
    Except.toOption_eq_some_iff.mp (by decide +kernel)
  constructor
  · exact ((respond_integer hdouble rfl (by decide)).2 (.inl (by decide))).1
  · exact (respond_integer evaluate_product_above_doubles rfl (by decide)).1

/-- An answer with other digits than the value: `2 ^ 53` is passed, and `10 ^ 16` is not. -/
theorem respond_integer_ne_digits :
    ¬ ∀ (calculator : Calculator) (s : Text) (evaluation : Evaluation) (n : Int),
      (calculator.evaluate s).outcome = .ok evaluation → evaluation.value.toInt? = some n →
        n.natAbs < 10000000000000000 →
          (calculator.respond s).outcome = .ok (String.ofList (Text.ofInt n)) := by
  intro h
  have hanswer := h _ _ _ 9999999999999999 evaluate_product_above_doubles rfl (by decide)
  rw [outcome_respond evaluate_product_above_doubles, Value.toReal_of_toInt? rfl] at hanswer
  have htext : (ofInt 9999999999999999).text ≠ Text.ofInt 9999999999999999 := by
    decide +kernel
  exact htext (String.ofList_injective (Except.ok.inj hanswer))

end Calculator

end Abacus
