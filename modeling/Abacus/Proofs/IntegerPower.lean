import Mathlib.Algebra.Group.Int.Defs
import Abacus.Proofs.Finite

/-!
# Powers of integers

The power of two doubles is computed on integers where that can be done. Then it is exact: it is
an integer only if both doubles are, and then the power of these integers
(`Value.power_of_toInt?_eq_some`). There is one exception. The double `2 ^ 63` is taken for an
integer of 64 bits, which it just is not, and is cut to `2 ^ 63 - 1`; that shows in its first power.

Integer values are not exact in general, since they become doubles first. So the first power of an
integer is the double nearest to it, and not always the integer. Powers from the second on are not
concerned, because an integer whose square has 64 bits is a double. An exponent of more than 32 bits
is left to the power of doubles, and the result is a double, even where the base is 0, 1 or -1 and
the result could be an integer (`Value.apply_pow_of_integers`).
-/

namespace Abacus

namespace Value

/-! ### Powers that have 64 bits -/

theorem fits64_iff {n : Int} :
    fits64 n ↔ -9223372036854775808 ≤ n ∧ n < 9223372036854775808 := by
  simp [fits64]

/-- A power does not fit if a power of a smaller base with a smaller exponent is too large. -/
theorem not_fits64_pow {b : Int} {p c k : Nat} (hb : c ≤ b.natAbs) (hp : k ≤ p) (hc : 0 < c)
    (hlarge : 9223372036854775808 < Nat.pow c k) : ¬ fits64 (b ^ p) := by
  have hle : Nat.pow c k ≤ (b ^ p).natAbs := by
    rw [Int.natAbs_pow]
    exact Nat.le_trans (Nat.pow_le_pow_right hc hp) (Nat.pow_le_pow_left hb p)
  rw [fits64_iff]
  omega

/-- Where a power fits, from the second one on, the base has half of the digits. -/
theorem natAbs_lt_of_fits64_pow {b : Int} {p : Nat} (hp : 2 ≤ p) (h : fits64 (b ^ p)) :
    b.natAbs < 3037000500 := by
  refine Nat.lt_of_not_le fun hb => ?_
  exact not_fits64_pow hb hp (by decide) (by decide) h

/-- Where the 64th power fits, or one after it, the base is 0, 1 or -1. -/
theorem natAbs_le_one_of_fits64_pow {b : Int} {p : Nat} (hp : 64 ≤ p) (h : fits64 (b ^ p)) :
    b.natAbs ≤ 1 := by
  refine Nat.le_of_not_lt fun hb => ?_
  exact not_fits64_pow hb hp (by decide) (by decide) h

/-- The powers of 0, 1 and -1 depend on parity alone. -/
theorem pow_succ_of_natAbs_le_one {b : Int} (h : b.natAbs ≤ 1) (p : Nat) :
    b ^ (p + 1) = if (p + 1) % 2 = 0 then b * b else b := by
  have hcube : b * b * b = b := by
    obtain rfl | rfl | rfl : b = 0 ∨ b = 1 ∨ b = -1 := by omega
    · rfl
    · rfl
    · rfl
  induction p with
  | zero => rw [pow_one, if_neg (by decide)]
  | succ p ih =>
    rw [pow_succ, ih]
    by_cases heven : (p + 1) % 2 = 0
    · rw [if_pos heven, if_neg (by omega), hcube]
    · rw [if_neg heven, if_pos (by omega)]

theorem minusOne_pow {p : Int} (hp : 0 ≤ p) :
    (-1 : Int) ^ p.toNat = if p % 2 = 0 then 1 else -1 := by
  by_cases hzero : p = 0
  · subst hzero
    rfl
  · obtain ⟨k, hk⟩ : ∃ k, p.toNat = k + 1 := ⟨p.toNat - 1, by omega⟩
    rw [hk, pow_succ_of_natAbs_le_one (by decide)]
    by_cases heven : (k + 1) % 2 = 0
    · rw [if_pos heven, if_pos (by omega)]
      rfl
    · rw [if_neg heven, if_neg (by omega)]

/-- **The power of an integer is exact**, and is there if and only if it has 64 bits. -/
theorem intPower?_eq (b : Int) (p : Nat) :
    intPower? b p = if fits64 (b ^ p) then some (.ofInt (b ^ p)) else none := by
  unfold intPower?
  by_cases hb : 2 ≤ b.natAbs
  · rw [if_pos hb]
    by_cases hp : p < 64
    · rw [if_pos hp]
      rfl
    · rw [if_neg hp, if_neg (not_fits64_pow hb (Nat.le_of_not_lt hp) (by decide) (by decide))]
      rfl
  · rw [if_neg hb]
    cases p with
    | zero =>
      rw [pow_zero]
      rfl
    | succ p =>
      rw [if_neg (Nat.succ_ne_zero p), pow_succ_of_natAbs_le_one (by omega)]
      split
      · rfl
      · rfl

/-- Of the powers of `2 ^ 63`, only the first one is changed when the base is cut to 64 bits. -/
theorem intPower?_min {b : Int} {p : Nat} (hb : b.natAbs ≤ 9223372036854775808)
    (h : ¬ (b = 9223372036854775808 ∧ p = 1)) :
    intPower? (min b 9223372036854775807) p = intPower? b p := by
  by_cases hmax : b = 9223372036854775808
  · obtain rfl | hp : p = 0 ∨ 2 ≤ p := by omega
    · rw [intPower?_eq, intPower?_eq, pow_zero, pow_zero]
    · -- the squares are too large, with or without cutting
      have hlarge : ∀ c : Int, 3037000500 ≤ c.natAbs → ¬ fits64 (c ^ p) := fun c hc =>
        not_fits64_pow hc hp (by decide) (by decide)
      rw [intPower?_eq, intPower?_eq, if_neg (hlarge _ (by omega)), if_neg (hlarge _ (by omega))]
  · rw [Int.min_eq_left (by omega)]

/-! ### Powers of doubles -/

variable {pow : Binary64 → Binary64 → Binary64} {x y : Binary64} {b p : Int}

theorem exactPower?_eq (hx : x.toInt? = some b) (hy : y.toInt? = some p) :
    exactPower? x y = if b.natAbs ≤ 9223372036854775808 ∧ 0 ≤ p ∧ p ≤ maxIntPower then
      intPower? (min b 9223372036854775807) p.toNat else none := by
  simp [exactPower?, hx, hy, and_assoc]

/-- What is computed on integers is the power of integers, but for the first power of `2 ^ 63`. -/
theorem toInt_of_exactPower? {k : Int64} (h : exactPower? x y = some k) :
    ∃ b p, x.toInt? = some b ∧ y.toInt? = some p ∧ 0 ≤ p ∧
      k.toInt = if b = 9223372036854775808 ∧ p = 1 then 9223372036854775807 else b ^ p.toNat := by
  cases hx : x.toInt? with
  | none => simp [exactPower?, hx] at h
  | some b =>
    cases hy : y.toInt? with
    | none => simp [exactPower?, hx, hy] at h
    | some p =>
      rw [exactPower?_eq hx hy, Option.ite_none_right_eq_some] at h
      obtain ⟨⟨hb, hp, -⟩, h⟩ := h
      refine ⟨b, p, rfl, rfl, hp, ?_⟩
      split
      · next hfirst =>
        obtain ⟨rfl, rfl⟩ := hfirst
        obtain rfl := Option.some.inj h
        rfl
      · next hfirst =>
        rw [intPower?_min hb (by omega), intPower?_eq, Option.ite_none_right_eq_some,
          fits64_iff] at h
        obtain ⟨⟨hle, hlt⟩, h⟩ := h
        obtain rfl := Option.some.inj h
        exact Int64.toInt_ofInt_of_le hle hlt

theorem toInt?_ofInt64 (k : Int64) : (ofInt64 k).toInt? = some k.toInt := by
  unfold ofInt64
  split
  · next hfits =>
    simp only [fits32, Bool.and_eq_true, decide_eq_true_eq] at hfits
    rw [toInt?, Int32.toInt_ofInt_of_le (by omega) (by omega)]
  · rfl

theorem power_of_exactPower?_eq_some {k : Int64} (h : exactPower? x y = some k) :
    power pow x y = .ok (ofInt64 k) := by
  rw [power, h]

/-- An exponent of more than 32 bits is left to the power of doubles. -/
theorem exactPower?_eq_none (hy : y.toInt? = some p) (hp : maxIntPower < p) :
    exactPower? x y = none := by
  cases hx : x.toInt? with
  | none => simp [exactPower?, hx]
  | some => rw [exactPower?_eq hx hy, if_neg (by omega)]

theorem power_of_exactPower?_eq_none {k : Int} (h : exactPower? x y = none)
    (hk : (pow x y).toInt? = some k) : power pow x y = .ok (real (pow x y)) := by
  have hfinite := (Binary64.toInt?_eq_some_iff.mp hk).1
  rw [power, h, Binary64.isNaN_of_isFinite hfinite, finite, if_pos hfinite]
  rfl

/-- A power is an integer only if it was computed on integers. -/
theorem exists_exactPower?_of_power {v : Value} {n : Int} (h : power pow x y = .ok v)
    (hn : v.toInt? = some n) : ∃ k, exactPower? x y = some k ∧ k.toInt = n := by
  unfold power at h
  split at h
  · next k hk =>
    obtain rfl := Except.ok.inj h
    exact ⟨k, hk, Option.some.inj ((toInt?_ofInt64 k).symm.trans hn)⟩
  · split at h
    · cases h
    · obtain ⟨-, rfl⟩ := finite_eq_ok_iff.mp h
      cases hn

/-- **An integer power is exact**: if the power of two doubles is an integer, both doubles are
integers, the second one is not negative, and the result is the power of these integers, except that
the first power of `2 ^ 63` is `2 ^ 63 - 1`. -/
theorem power_of_toInt?_eq_some {v : Value} {n : Int} (h : power pow x y = .ok v)
    (hn : v.toInt? = some n) :
    ∃ b p, x.toInt? = some b ∧ y.toInt? = some p ∧ 0 ≤ p ∧
      n = if b = 9223372036854775808 ∧ p = 1 then 9223372036854775807 else b ^ p.toNat := by
  obtain ⟨k, hk, rfl⟩ := exists_exactPower?_of_power h hn
  exact toInt_of_exactPower? hk

/-- The integer 1024 is the tenth power of 2. -/
theorem power_of_toInt?_eq_some_of_two :
    power (fun x _ => x) (.ofInt 2) (.ofInt 10) = .ok (int32 1024) ∧
      (int32 1024).toInt? = some 1024 ∧
      ∃ b p, (Binary64.ofInt 2).toInt? = some b ∧ (Binary64.ofInt 10).toInt? = some p ∧ 0 ≤ p ∧
        1024 = if b = 9223372036854775808 ∧ p = 1 then 9223372036854775807 else b ^ p.toNat :=
  have hpower := Except.toOption_eq_some_iff.mp (by decide +kernel)
  ⟨hpower, rfl, power_of_toInt?_eq_some hpower rfl⟩

/-- The first power of `2 ^ 63` is another integer. -/
theorem power_not_exact :
    (Binary64.ofInt 9223372036854775808).toInt? = some 9223372036854775808 ∧
      (Binary64.ofInt 1).toInt? = some 1 ∧
      power (fun x _ => x) (.ofInt 9223372036854775808) (.ofInt 1) =
        .ok (int64 9223372036854775807) ∧
      (9223372036854775807 : Int64).toInt ≠ 9223372036854775808 ^ 1 := by
  refine ⟨by decide +kernel, by decide +kernel, ?_, by decide⟩
  exact Except.toOption_eq_some_iff.mp (by decide +kernel)

end Value

/-! ### The power that is rounded -/

namespace Binary64

/-- The power of two integers is the double nearest to it; if it is zero, a zero of either sign. -/
def RoundsPowers (pow : Binary64 → Binary64 → Binary64) : Prop :=
  ∀ x y b p, x.toInt? = some b → y.toInt? = some p → 0 ≤ p →
    if b ^ p.toNat = 0 then (pow x y).isZero else pow x y = .ofInt (b ^ p.toNat)

/-- A power that is a double is not rounded to another one. -/
theorem RoundsPowers.toInt?_eq_some {pow : Binary64 → Binary64 → Binary64} (h : RoundsPowers pow)
    {x y : Binary64} {b p : Int} (hx : x.toInt? = some b) (hy : y.toInt? = some p) (hp : 0 ≤ p)
    (hs : IsShort (b ^ p.toNat).natAbs) (hmax : (b ^ p.toNat).natAbs ≤ 1 <<< 1023) :
    (pow x y).toInt? = some (b ^ p.toNat) := by
  have hpower := h x y b p hx hy hp
  split at hpower
  · next hzero =>
    rw [hzero]
    exact toInt?_of_isZero hpower
  · rw [hpower]
    exact toInt?_ofInt hs hmax

/-- A power of 0, 1 or -1 is not rounded. -/
theorem RoundsPowers.toInt?_of_natAbs_le_one {pow : Binary64 → Binary64 → Binary64}
    (h : RoundsPowers pow) {x y : Binary64} {b p : Int} (hx : x.toInt? = some b)
    (hy : y.toInt? = some p) (hp : 0 ≤ p) (hb : b.natAbs ≤ 1) :
    (pow x y).toInt? = some (b ^ p.toNat) := by
  have hle : (b ^ p.toNat).natAbs ≤ 1 := by
    rw [Int.natAbs_pow]
    exact Nat.le_trans (Nat.pow_le_pow_left hb _) (Nat.le_of_eq (Nat.one_pow _))
  have hshort : IsShort (b ^ p.toNat).natAbs := isShort_of_le (Nat.le_trans hle (by decide))
  exact h.toInt?_eq_some hx hy hp hshort (Nat.le_trans hle (by decide))

/-- The power of integers with one rounding; other powers are not computed. -/
def nearestPower (x y : Binary64) : Binary64 :=
  match x.toInt?, y.toInt? with
  | some b, some p => if 0 ≤ p then .ofInt (b ^ p.toNat) else nan
  | _, _ => nan

theorem roundsPowers_nearestPower : RoundsPowers nearestPower := by
  intro x y b p hx hy hp
  have hpower : nearestPower x y = .ofInt (b ^ p.toNat) := by
    simp [nearestPower, hx, hy, hp]
  split
  · next hzero =>
    rw [hpower, hzero]
    decide
  · exact hpower

end Binary64

namespace Value

open Binary64

variable {pow : Binary64 → Binary64 → Binary64} {a b : Value} {m n r : Int}

/-! ### Powers of integer values -/

/-- The power of two values is an integer value, and this integer is `k`. -/
def HasIntPower (pow : Binary64 → Binary64 → Binary64) (a b : Value) (k : Int) : Prop :=
  ∃ v, apply pow .pow a b = .ok v ∧ v.toInt? = some k

theorem apply_pow_eq (ha : a.toInt? = some m) (hb : b.toInt? = some n) :
    apply pow .pow a b = power pow (.ofInt m) (.ofInt n) := by
  rw [apply, toReal_of_toInt? ha, toReal_of_toInt? hb]

/-- An integer value is rounded to at most `2 ^ 63` in size. -/
theorem natAbs_toInt?_ofInt_le (ha : a.toInt? = some m) (hr : (ofInt m).toInt? = some r) :
    r.natAbs ≤ 9223372036854775808 := by
  have hshort : IsShort 9223372036854775808 := ⟨1, 63, by decide, by decide⟩
  exact Binary64.natAbs_le_of_toInt?_ofInt hshort (by decide) (natAbs_le_of_toInt? ha) hr

/-- The power with an exponent of 32 bits is that of the integer that the base is rounded to. -/
theorem hasIntPower_of_toInt?_ofInt (ha : a.toInt? = some m) (hb : b.toInt? = some n) (hn : 0 ≤ n)
    (hmax : n ≤ maxIntPower) (hr : (ofInt m).toInt? = some r)
    (hfirst : ¬ (r = 9223372036854775808 ∧ n = 1)) (hfits : fits64 (r ^ n.toNat)) :
    HasIntPower pow a b (r ^ n.toNat) := by
  have hsize := natAbs_toInt?_ofInt_le ha hr
  have hexponent : (ofInt n).toInt? = some n := by
    refine toInt?_ofInt_of_le ?_
    simp only [maxIntPower, Nat.reduceShiftLeft] at hmax ⊢
    omega
  have hexact : exactPower? (.ofInt m) (.ofInt n) = some (.ofInt (r ^ n.toNat)) := by
    rw [exactPower?_eq hr hexponent, if_pos ⟨hsize, hn, hmax⟩, intPower?_min hsize (by omega),
      intPower?_eq, if_pos hfits]
  obtain ⟨hle, hlt⟩ := fits64_iff.mp hfits
  refine ⟨_, (apply_pow_eq ha hb).trans (power_of_exactPower?_eq_some hexact), ?_⟩
  rw [toInt?_ofInt64, Int64.toInt_ofInt_of_le hle hlt]

/-- The base of a square that fits is not rounded. -/
theorem toInt?_ofInt_of_fits64_pow (hn : 2 ≤ n) (hfits : fits64 (m ^ n.toNat)) :
    (ofInt m).toInt? = some m := by
  have hlt := natAbs_lt_of_fits64_pow (by omega) hfits
  exact toInt?_ofInt_of_le (Nat.le_trans (Nat.le_of_lt hlt) (by decide))

theorem exists_toInt?_ofInt_of_toInt? (ha : a.toInt? = some m) :
    ∃ r, (ofInt m).toInt? = some r :=
  Binary64.exists_toInt?_ofInt (Nat.le_trans (natAbs_le_of_toInt? ha) (by decide))

/-- A power that fits is exact, unless it is the first power of an integer that is not a double. -/
theorem hasIntPower_of_fits64 (ha : a.toInt? = some m) (hb : b.toInt? = some n) (hn : 0 ≤ n)
    (hmax : n ≤ maxIntPower) (hfits : fits64 (m ^ n.toNat))
    (hexact : n ≠ 1 ∨ (ofInt m).toInt? = some m) : HasIntPower pow a b (m ^ n.toNat) := by
  by_cases hzero : n = 0
  · -- the base does not matter
    obtain ⟨r, hr⟩ := exists_toInt?_ofInt_of_toInt? ha
    have hsame : r ^ n.toNat = m ^ n.toNat := by rw [hzero, Int.toNat_zero, pow_zero, pow_zero]
    rw [← hsame] at hfits ⊢
    exact hasIntPower_of_toInt?_ofInt ha hb hn hmax hr (by omega) hfits
  · have hbase : (ofInt m).toInt? = some m :=
      hexact.elim (fun hone => toInt?_ofInt_of_fits64_pow (by omega) hfits) id
    refine hasIntPower_of_toInt?_ofInt ha hb hn hmax hbase ?_ hfits
    rintro ⟨rfl, rfl⟩
    exact absurd hfits (by decide)

/-- The first power of an integer is the double nearest to it. -/
theorem hasIntPower_of_eq_one (ha : a.toInt? = some m) (hb : b.toInt? = some 1)
    (hr : (ofInt m).toInt? = some r) (hne : r ≠ 9223372036854775808) : HasIntPower pow a b r := by
  have hsize := natAbs_toInt?_ofInt_le ha hr
  have hone : r ^ (1 : Int).toNat = r := by rw [Int.toNat_one, pow_one]
  have hfits : fits64 (r ^ (1 : Int).toNat) := by
    rw [hone, fits64_iff]
    omega
  rw [← hone]
  exact hasIntPower_of_toInt?_ofInt ha hb (by decide) (by decide) hr (by omega) hfits

/-- With an exponent of more than 32 bits, a power that fits is one of 0, 1 or -1, and a double. -/
theorem apply_pow_of_maxIntPower_lt (hpow : RoundsPowers pow) (ha : a.toInt? = some m)
    (hb : b.toInt? = some n) (hn : 0 ≤ n) (hlong : maxIntPower < n) (hfits : fits64 (m ^ n.toNat)) :
    ∃ q x, (ofInt n).toInt? = some q ∧ apply pow .pow a b = .ok (real x) ∧
      x.toInt? = some (m ^ q.toNat) := by
  rw [maxIntPower] at hlong
  have hbase : m.natAbs ≤ 1 := natAbs_le_one_of_fits64_pow (by omega) hfits
  have hm : (ofInt m).toInt? = some m := toInt?_ofInt_of_le (Nat.le_trans hbase (by decide))
  -- the exponent may be rounded, but is still too long
  obtain ⟨q, hq⟩ := exists_toInt?_ofInt_of_toInt? hb
  have hnonneg : 0 ≤ q := nonneg_of_toInt?_ofInt hn hq
  have hqlong : maxIntPower < q := by
    have hle : 4294967296 ≤ q.natAbs :=
      le_natAbs_of_toInt?_ofInt (isShort_of_le (by decide)) (by decide) (by omega) hq
    rw [maxIntPower]
    omega
  have hresult := hpow.toInt?_of_natAbs_le_one hm hq hnonneg hbase
  refine ⟨q, pow (ofInt m) (ofInt n), hq, ?_, hresult⟩
  rw [apply_pow_eq ha hb, power_of_exactPower?_eq_none (exactPower?_eq_none hq hqlong) hresult]

/-- **Powers of integers**, where the exact result has 64 bits. With an exponent of at most 32 bits
the power is an integer, and exact, but for the first power of an integer that is not a double. That
is the double nearest to it, with nothing said where this is `2 ^ 63`. With a longer exponent the
power is a double: the exact power with the double that is nearest to the exponent. -/
theorem apply_pow_of_integers (hpow : RoundsPowers pow) (ha : a.toInt? = some m)
    (hb : b.toInt? = some n) (hn : 0 ≤ n) (hfits : fits64 (m ^ n.toNat)) :
    (n ≤ maxIntPower → n ≠ 1 ∨ (ofInt m).toInt? = some m → HasIntPower pow a b (m ^ n.toNat)) ∧
    (n = 1 → ∃ r, (ofInt m).toInt? = some r ∧
      (r ≠ 9223372036854775808 → HasIntPower pow a b r)) ∧
    (maxIntPower < n → ∃ q x, (ofInt n).toInt? = some q ∧
      apply pow .pow a b = .ok (real x) ∧ x.toInt? = some (m ^ q.toNat)) := by
  refine ⟨?_, ?_, ?_⟩
  · intro hmax hexact
    exact hasIntPower_of_fits64 ha hb hn hmax hfits hexact
  · rintro rfl
    obtain ⟨r, hr⟩ := exists_toInt?_ofInt_of_toInt? ha
    exact ⟨r, hr, hasIntPower_of_eq_one ha hb hr⟩
  · intro hlong
    exact apply_pow_of_maxIntPower_lt hpow ha hb hn hlong hfits

/-- The power `(-3) ^ 5` is exact. The first power of `2 ^ 53 + 1` is the double that is nearest to
it, `2 ^ 53`. The power of -1 with the odd exponent `2 ^ 53 + 1` is a double, and it is the one with
the even exponent `2 ^ 53`. -/
theorem apply_pow_of_integers_of_three :
    RoundsPowers nearestPower ∧
    ((int32 (-3)).toInt? = some (-3) ∧ (int64 5).toInt? = some 5 ∧ (0 : Int) ≤ 5 ∧
      fits64 ((-3) ^ (5 : Int).toNat) ∧
      HasIntPower nearestPower (int32 (-3)) (int64 5) (-243)) ∧
    ((int64 9007199254740993).toInt? = some 9007199254740993 ∧ (int32 1).toInt? = some 1 ∧
      fits64 (9007199254740993 ^ (1 : Int).toNat) ∧
      HasIntPower nearestPower (int64 9007199254740993) (int32 1) 9007199254740992) ∧
    ((int32 (-1)).toInt? = some (-1) ∧ maxIntPower < 9007199254740993 ∧
      fits64 ((-1) ^ (9007199254740993 : Int).toNat) ∧
      ∃ x, apply nearestPower .pow (int32 (-1)) (int64 9007199254740993) = .ok (real x) ∧
        x.toInt? = some 1) := by
  have hnearest : (ofInt 9007199254740993).toInt? = some 9007199254740992 := by decide +kernel
  refine ⟨roundsPowers_nearestPower, ?_, ?_, ?_⟩
  · have hfits : fits64 ((-3) ^ (5 : Int).toNat) := by decide
    exact ⟨rfl, rfl, by decide, hfits,
      (apply_pow_of_integers roundsPowers_nearestPower rfl rfl (by decide) hfits).1 (by decide)
        (.inl (by decide))⟩
  · have hfits : fits64 (9007199254740993 ^ (1 : Int).toNat) := by decide
    obtain ⟨r, hr, hpower⟩ := (apply_pow_of_integers (a := int64 9007199254740993) (b := int32 1)
      roundsPowers_nearestPower rfl rfl (by decide) hfits).2.1 rfl
    obtain rfl := Option.some.inj (hnearest.symm.trans hr)
    exact ⟨rfl, rfl, hfits, hpower (by decide)⟩
  · have hfits : fits64 ((-1) ^ (9007199254740993 : Int).toNat) := by
      rw [minusOne_pow (by decide)]
      decide
    obtain ⟨q, x, hq, happly, hx⟩ := (apply_pow_of_integers (a := int32 (-1))
      (b := int64 9007199254740993) (m := -1) (n := 9007199254740993) roundsPowers_nearestPower
      rfl rfl (by decide) hfits).2.2 (by decide)
    obtain rfl := Option.some.inj (hnearest.symm.trans hq)
    rw [minusOne_pow (by decide)] at hx
    exact ⟨rfl, by decide, hfits, x, happly, hx⟩

/-- The first power of `2 ^ 53 + 1` is another integer. The power of 1 with the exponent `2 ^ 32` is
no integer value, and that of -1 with the odd exponent `2 ^ 53 + 1` is 1. -/
theorem apply_pow_not_exact :
    ¬ HasIntPower nearestPower (int64 9007199254740993) (int32 1) (9007199254740993 ^ 1) ∧
      ¬ HasIntPower nearestPower (int32 1) (int64 4294967296) (1 ^ 4294967296) ∧
      ∃ x, apply nearestPower .pow (int32 (-1)) (int64 9007199254740993) = .ok (real x) ∧
        x.toInt? = some 1 := by
  refine ⟨?_, ?_, ?_⟩
  · rintro ⟨v, hv, hk⟩
    have hpower : apply nearestPower .pow (int64 9007199254740993) (int32 1) =
        .ok (int64 9007199254740992) := Except.toOption_eq_some_iff.mp (by decide +kernel)
    obtain rfl := Except.ok.inj (hpower.symm.trans hv)
    exact absurd hk (by decide)
  · rintro ⟨v, hv, hk⟩
    rw [apply] at hv
    obtain ⟨k, hexact, -⟩ := exists_exactPower?_of_power hv hk
    have hnone : exactPower? (int32 1).toReal (int64 4294967296).toReal = none := by decide +kernel
    rw [hnone] at hexact
    cases hexact
  · have hq : (ofInt 9007199254740993).toInt? = some 9007199254740992 := by decide +kernel
    obtain ⟨q, x, hq', happly, hx⟩ :=
      apply_pow_of_maxIntPower_lt (a := int32 (-1)) (b := int64 9007199254740993) (m := -1)
        (n := 9007199254740993) roundsPowers_nearestPower rfl rfl (by decide) (by decide)
        (by rw [minusOne_pow (by decide)]; decide)
    obtain rfl := Option.some.inj (hq.symm.trans hq')
    rw [minusOne_pow (by decide)] at hx
    exact ⟨x, happly, hx⟩

end Value

end Abacus
