import Abacus.Proofs.IntegerPower

/-!
# Powers that stand as integers

The power of two integers that is below `10 ^ 15` in size stands as an integer literal in a reduced
expression (`Value.toLiteral_of_power`). Which way it was computed does not show, and neither does
the sort of the value: a number that is a small integer stands as this integer, whatever its sort
(`Value.exists_toLiteral_eq_int`).

Not all of these powers are computed on integers, because the base or the exponent can be too large
for that. Then the exponent is zero, or the base is 0, 1 or -1 (`Value.eq_zero_or_natAbs_le_one`).
So it is enough to know that the power of doubles has no fault there, for a zero of either sign too
(`Binary64.KnowsSimplePowers`). How it rounds other powers does not matter.
-/

namespace Abacus

namespace Binary64

/-- The powers that need no computing: a zeroth power is one, the powers of one are one, those of
minus one go by parity, and those of zero are zero, of either sign. -/
structure KnowsSimplePowers (pow : Binary64 → Binary64 → Binary64) : Prop where
  zeroth : ∀ {x y : Binary64} {b : Int}, x.toInt? = some b → y.toInt? = some 0 →
    pow x y = .ofInt 1
  ofOne : ∀ {x y : Binary64} {p : Int}, x.toInt? = some 1 → y.toInt? = some p → 0 ≤ p →
    pow x y = .ofInt 1
  ofMinusOne : ∀ {x y : Binary64} {p : Int}, x.toInt? = some (-1) → y.toInt? = some p → 0 ≤ p →
    pow x y = .ofInt (if p % 2 = 0 then 1 else -1)
  ofZero : ∀ {x y : Binary64} {p : Int}, x.toInt? = some 0 → y.toInt? = some p → 0 < p →
    (pow x y).isZero

variable {pow : Binary64 → Binary64 → Binary64} {x y : Binary64} {b p : Int}

theorem zero_pow_toNat (hp : 0 < p) : (0 : Int) ^ p.toNat = 0 := by
  obtain ⟨k, hk⟩ : ∃ k, p.toNat = k + 1 := ⟨p.toNat - 1, by omega⟩
  rw [hk, pow_succ, Int.mul_zero]

/-- The four rules in one: these powers are the powers of integers. -/
theorem KnowsSimplePowers.toInt?_eq_some (h : KnowsSimplePowers pow) (hx : x.toInt? = some b)
    (hy : y.toInt? = some p) (hp : 0 ≤ p) (hsimple : p = 0 ∨ b.natAbs ≤ 1) :
    (pow x y).toInt? = some (b ^ p.toNat) := by
  by_cases hzero : p = 0
  · subst hzero
    rw [h.zeroth hx hy, Int.toNat_zero, pow_zero]
    exact toInt?_ofInt_of_le (by decide)
  · have hbase : b.natAbs ≤ 1 := hsimple.resolve_left hzero
    obtain rfl | rfl | rfl : b = 0 ∨ b = 1 ∨ b = -1 := by omega
    · rw [zero_pow_toNat (by omega)]
      exact toInt?_of_isZero (h.ofZero hx hy (by omega))
    · rw [one_pow, h.ofOne hx hy hp]
      exact toInt?_ofInt_of_le (by decide)
    · rw [Value.minusOne_pow hp, h.ofMinusOne hx hy hp]
      split
      · exact toInt?_ofInt_of_le (by decide)
      · exact toInt?_ofInt_of_le (by decide)

/-- A power that is rounded once has no fault where nothing is to be rounded. -/
theorem RoundsPowers.knowsSimplePowers (h : RoundsPowers pow) : KnowsSimplePowers pow where
  zeroth {x y b} hx hy := by
    have hpower := h x y b 0 hx hy (Int.le_refl 0)
    rwa [Int.toNat_zero, pow_zero, if_neg (by decide)] at hpower
  ofOne {x y p} hx hy hp := by
    have hpower := h x y 1 p hx hy hp
    rwa [one_pow, if_neg (by decide)] at hpower
  ofMinusOne {x y p} hx hy hp := by
    have hpower := h x y (-1) p hx hy hp
    rwa [Value.minusOne_pow hp, if_neg (by split <;> decide)] at hpower
  ofZero {x y p} hx hy hp := by
    have hpower := h x y 0 p hx hy (Int.le_of_lt hp)
    rwa [zero_pow_toNat hp, if_pos rfl] at hpower

end Binary64

namespace Value

open Binary64

variable {pow : Binary64 → Binary64 → Binary64} {x y : Binary64} {b p : Int} {v : Value}

/-! ### Small integers as literals -/

/-- An integer that is rounded to a small one is that one. -/
theorem eq_of_toInt?_ofInt {m n : Int} (h : (ofInt m).toInt? = some n)
    (hsmall : n.natAbs < literalBound) : m = n := by
  have hbound : IsShort literalBound := isShort_of_lt (by decide)
  have hm : m.natAbs < literalBound := by
    refine Nat.lt_of_not_le fun hle => ?_
    exact absurd (le_natAbs_of_toInt?_ofInt hbound (by decide) hle h) (Nat.not_le_of_lt hsmall)
  have hself : (ofInt m).toInt? = some m :=
    toInt?_ofInt_of_le (Nat.le_trans (Nat.le_of_lt hm) (by decide))
  exact Option.some.inj (hself.symm.trans h)

/-- **A number that is a small integer stands as this integer**, whatever its sort. -/
theorem exists_toLiteral_eq_int {n : Int} (h : v.toReal.toInt? = some n)
    (hsmall : n.natAbs < literalBound) : ∃ k : Int64, v.toLiteral = .int k ∧ k.toInt = n := by
  cases v with
  | int32 m =>
    obtain rfl := eq_of_toInt?_ofInt h hsmall
    exact ⟨m.toInt64, rfl, m.toInt_toInt64⟩
  | int64 m =>
    obtain rfl := eq_of_toInt?_ofInt h hsmall
    exact ⟨m, by rw [toLiteral, if_pos hsmall], rfl⟩
  | real x =>
    rw [toReal] at h
    refine ⟨.ofInt n, by rw [toLiteral, h]; exact if_pos hsmall, ?_⟩
    rw [literalBound] at hsmall
    exact Int64.toInt_ofInt_of_le (by omega) (by omega)

/-! ### Powers that are small -/

theorem fits64_of_natAbs_lt {n : Int} (h : n.natAbs < literalBound) : fits64 n := by
  rw [literalBound] at h
  rw [fits64_iff]
  omega

/-- A small power that is not computed on integers is a simple one: the exponent is zero, or the
base is 0, 1 or -1. -/
theorem eq_zero_or_natAbs_le_one (hx : x.toInt? = some b) (hy : y.toInt? = some p) (hp : 0 ≤ p)
    (hsmall : (b ^ p.toNat).natAbs < literalBound) (h : exactPower? x y = none) :
    p = 0 ∨ b.natAbs ≤ 1 := by
  have hfits := fits64_of_natAbs_lt hsmall
  by_cases hzero : p = 0
  · exact .inl hzero
  · refine .inr ?_
    -- the base is no larger than its power
    have hbase : b.natAbs < literalBound := by
      rw [Int.natAbs_pow] at hsmall
      exact Nat.lt_of_le_of_lt (Nat.le_self_pow (by omega) b.natAbs) hsmall
    rw [literalBound] at hbase
    by_cases hmax : p ≤ maxIntPower
    · rw [exactPower?_eq hx hy, if_pos ⟨by omega, hp, hmax⟩, intPower?_min (by omega) (by omega),
        intPower?_eq, if_pos hfits] at h
      cases h
    · rw [maxIntPower] at hmax
      exact natAbs_le_one_of_fits64_pow (by omega) hfits

/-- The power of two integers is a number, and this number is the power if that is small. -/
theorem exists_power_eq_ok (hpow : KnowsSimplePowers pow) (hx : x.toInt? = some b)
    (hy : y.toInt? = some p) (hp : 0 ≤ p) (hsmall : (b ^ p.toNat).natAbs < literalBound) :
    ∃ v, power pow x y = .ok v ∧ v.toReal.toInt? = some (b ^ p.toNat) := by
  cases hexact : exactPower? x y with
  | none =>
    have hsimple := eq_zero_or_natAbs_le_one hx hy hp hsmall hexact
    have hvalue := hpow.toInt?_eq_some hx hy hp hsimple
    exact ⟨_, power_of_exactPower?_eq_none hexact hvalue, hvalue⟩
  | some k =>
    obtain ⟨b', p', hx', hy', -, hk⟩ := toInt_of_exactPower? hexact
    obtain rfl := Option.some.inj (hx.symm.trans hx')
    obtain rfl := Option.some.inj (hy.symm.trans hy')
    -- the first power of `2 ^ 63` is not small
    have hfirst : ¬ (b = 9223372036854775808 ∧ p = 1) := by
      rintro ⟨rfl, rfl⟩
      exact absurd hsmall (by decide)
    rw [if_neg hfirst] at hk
    refine ⟨ofInt64 k, power_of_exactPower?_eq_some hexact, ?_⟩
    rw [toReal_of_toInt? (toInt?_ofInt64 k), hk]
    exact toInt?_ofInt_of_le (Nat.le_trans (Nat.le_of_lt hsmall) (by decide))

/-- **A small power of integers stands as this integer.** If two doubles are integers, the second
one not negative, and the power of the integers is below `10 ^ 15` in size, then their power has a
value, and the literal for it is the power of the integers. -/
theorem toLiteral_of_power (hpow : KnowsSimplePowers pow) (hx : x.toInt? = some b)
    (hy : y.toInt? = some p) (hp : 0 ≤ p) (hsmall : (b ^ p.toNat).natAbs < 1000000000000000) :
    ∃ v k, power pow x y = .ok v ∧ v.toLiteral = .int k ∧ k.toInt = b ^ p.toNat := by
  obtain ⟨v, hv, hreal⟩ := exists_power_eq_ok hpow hx hy hp hsmall
  obtain ⟨k, hk, hint⟩ := exists_toLiteral_eq_int hreal hsmall
  exact ⟨v, k, hv, hk, hint⟩

/-- A power of -1 that is left to the power of doubles, because its exponent has 33 bits. -/
theorem toLiteral_of_power_of_minus_one :
    KnowsSimplePowers nearestPower ∧ (ofInt (-1)).toInt? = some (-1) ∧
      (ofInt 4294967297).toInt? = some 4294967297 ∧ (0 : Int) ≤ 4294967297 ∧
      ((-1 : Int) ^ (4294967297 : Int).toNat).natAbs < 1000000000000000 ∧
      exactPower? (ofInt (-1)) (ofInt 4294967297) = none ∧
      ∃ v k, power nearestPower (ofInt (-1)) (ofInt 4294967297) = .ok v ∧ v.toLiteral = .int k ∧
        k.toInt = -1 := by
  have hknows : KnowsSimplePowers nearestPower := roundsPowers_nearestPower.knowsSimplePowers
  have hbase : (ofInt (-1)).toInt? = some (-1) := toInt?_ofInt_of_le (by decide)
  have hexponent : (ofInt 4294967297).toInt? = some 4294967297 := toInt?_ofInt_of_le (by decide)
  have hpower : (-1 : Int) ^ (4294967297 : Int).toNat = -1 := minusOne_pow (by decide)
  have hsmall : ((-1 : Int) ^ (4294967297 : Int).toNat).natAbs < 1000000000000000 := by
    rw [hpower]
    decide
  obtain ⟨v, k, hv, hk, hint⟩ := toLiteral_of_power hknows hbase hexponent (by decide) hsmall
  exact ⟨hknows, hbase, hexponent, by decide, hsmall,
    exactPower?_eq_none hexponent (by decide), v, k, hv, hk, hint.trans hpower⟩

end Value

end Abacus
