import Abacus.Binary64.Arithmetic

/-!
# Rounding to a double

Rounding keeps order. The number of quanta that a magnitude code stands for grows with the code,
and what is rounded gets a code that is at least `c` if it is at least what `c` stands for, and at
most `c` if it is at most that (`le_nearestCode`, `nearestCode_le`). All the rest follows: a
double is rounded to itself (`nearest_quanta`), and the order of two numbers is never reversed.

The two statements are proved on the parts of a code, its exponent and its significand. A code is
the exponent, shifted by 52 bits, plus the significand, and a significand that is too short for an
exponent above zero does not occur. So numbers are compared by their exponents first, and by their
significands only if the exponents agree.
-/

namespace Abacus

/-! ### Rounded quotients -/

theorem div_le_roundQuotient (num den : Nat) : num / den ≤ roundQuotient num den := by
  unfold roundQuotient
  split
  · exact Nat.le_refl _
  · split
    · exact Nat.le_succ _
    · exact Nat.le_add_right _ _

theorem roundQuotient_le {num den k : Nat} (hden : 0 < den) (h : num ≤ k * den) :
    roundQuotient num den ≤ k := by
  have hdiv : num / den ≤ k := Nat.div_le_of_le_mul (Nat.mul_comm k den ▸ h)
  by_cases hrest : num % den = 0
  · unfold roundQuotient
    rw [hrest, if_pos (by omega)]
    exact hdiv
  · -- with a rest the quotient is below `k`, so one more is not too much
    have hlt : num / den < k := by
      refine Nat.lt_of_mul_lt_mul_right (a := den) ?_
      have := Nat.div_add_mod num den
      rw [Nat.mul_comm] at this
      omega
    unfold roundQuotient
    split
    · exact hdiv
    · split
      · exact hlt
      · have := Nat.mod_lt (num / den) (Nat.succ_pos 1)
        omega

/-- Half of a number, rounded to the nearest, a half to the even one. -/
theorem roundQuotient_mul_two_mul (n : Nat) {unit : Nat} (h : 0 < unit) :
    roundQuotient (n * unit) (2 * unit) = n / 2 + n % 2 * (n / 2 % 2) := by
  rw [roundQuotient, Nat.mul_mod_mul_right, Nat.mul_div_mul_right _ _ h]
  rcases Nat.mod_two_eq_zero_or_one n with heven | hodd
  · rw [heven, if_pos (by omega)]
    omega
  · rw [hodd, if_neg (by omega), if_neg (by omega)]
    omega

namespace Binary64

/-! ### The parts of a code -/

/-- The code of a significand that is shifted by an exponent. -/
def codeOf (exponent significand : Nat) : Nat := exponent <<< 52 + significand

/-- The significand has at most 53 bits, and no fewer if the exponent is above zero. -/
def IsNormal (exponent significand : Nat) : Prop :=
  significand < 1 <<< 53 ∧ (0 < exponent → 1 <<< 52 ≤ significand)

theorem codeQuanta_codeOf {exponent significand : Nat} (h : IsNormal exponent significand) :
    codeQuanta (codeOf exponent significand) = significand <<< exponent := by
  obtain ⟨hlt, hle⟩ := h
  unfold codeQuanta codeOf
  simp only [Nat.reduceShiftLeft] at hlt hle ⊢
  by_cases hfull : 4503599627370496 ≤ significand
  · have hexponent : (exponent <<< 52 + significand) / 4503599627370496 - 1 = exponent := by omega
    have hsignificand :
        4503599627370496 + (exponent <<< 52 + significand) % 4503599627370496 = significand := by
      omega
    rw [if_neg (by omega), hexponent, hsignificand]
  · obtain rfl : exponent = 0 := by omega
    rw [if_pos (by omega), Nat.zero_shiftLeft, Nat.zero_add, Nat.shiftLeft_zero]

/-- Every code has an exponent and a significand. -/
theorem exists_eq_codeOf (code : Nat) :
    ∃ exponent significand, code = codeOf exponent significand ∧ IsNormal exponent significand := by
  refine ⟨code / 1 <<< 52 - 1, code - (code / 1 <<< 52 - 1) <<< 52, ?_, ?_, ?_⟩
  · unfold codeOf
    simp only [Nat.reduceShiftLeft]
    omega
  · simp only [Nat.reduceShiftLeft]
    omega
  · simp only [Nat.reduceShiftLeft]
    omega

/-- The exponent with which a number of quanta is rounded. -/
def shiftOf (quanta : Nat) : Nat := quanta.log2 - 52

theorem shifted_lt (quanta : Nat) : quanta / 1 <<< shiftOf quanta < 1 <<< 53 := by
  rw [Nat.shiftLeft_eq, Nat.one_mul, Nat.div_lt_iff_lt_mul (Nat.two_pow_pos _), Nat.shiftLeft_eq,
    Nat.one_mul, ← Nat.pow_add]
  refine Nat.lt_of_lt_of_le Nat.lt_log2_self (Nat.pow_le_pow_right (Nat.succ_pos 1) ?_)
  unfold shiftOf
  omega

theorem le_shifted {quanta : Nat} (h : 0 < shiftOf quanta) :
    1 <<< 52 ≤ quanta / 1 <<< shiftOf quanta := by
  unfold shiftOf at h ⊢
  have hne : quanta ≠ 0 := by
    rintro rfl
    simp at h
  rw [Nat.shiftLeft_eq, Nat.one_mul, Nat.shiftLeft_eq, Nat.one_mul,
    Nat.le_div_iff_mul_le (Nat.two_pow_pos _), ← Nat.pow_add]
  refine Nat.le_trans (Nat.pow_le_pow_right (Nat.succ_pos 1) ?_) (Nat.log2_self_le hne)
  omega

/-- What a code stands for has no smaller exponent. -/
theorem le_shiftOf {exponent significand quanta : Nat} (hn : IsNormal exponent significand)
    (h : significand <<< exponent ≤ quanta) : exponent ≤ shiftOf quanta := by
  by_cases hzero : exponent = 0
  · rw [hzero]
    exact Nat.zero_le _
  · have hfull : 1 <<< 52 ≤ significand := hn.2 (Nat.pos_of_ne_zero hzero)
    have hpow : 2 ^ (52 + exponent) ≤ quanta := by
      rw [Nat.pow_add]
      rw [Nat.shiftLeft_eq] at h
      exact Nat.le_trans (Nat.mul_le_mul_right _ hfull) h
    have hne : quanta ≠ 0 := by
      rintro rfl
      exact absurd hpow (Nat.not_le_of_lt (Nat.two_pow_pos _))
    have := (Nat.le_log2 hne).mpr hpow
    unfold shiftOf
    omega

theorem shiftOf_le {exponent significand quanta : Nat} (hlt : significand < 1 <<< 53)
    (h : quanta ≤ significand <<< exponent) : shiftOf quanta ≤ exponent := by
  by_cases hzero : quanta = 0
  · subst hzero
    exact Nat.zero_le _
  · have hpow : quanta < 2 ^ (53 + exponent) := by
      rw [Nat.pow_add]
      rw [Nat.shiftLeft_eq] at h
      exact Nat.lt_of_le_of_lt h (Nat.mul_lt_mul_of_pos_right hlt (Nat.two_pow_pos _))
    have := (Nat.log2_lt hzero).mpr hpow
    unfold shiftOf
    omega

/-! ### Rounding and codes -/

/-- The code to which `num / den` quanta are rounded, if there is no bound on codes. -/
def nearestCode (num den : Nat) : Nat :=
  codeOf (shiftOf (num / den)) (roundQuotient num (den <<< shiftOf (num / den)))

theorem nearest_eq (negative : Bool) (num den : Nat) :
    nearest negative num den = ofCode negative (nearestCode num den) := rfl

variable {code num den : Nat}

/-- What is not below a double is not rounded below it. -/
theorem le_nearestCode (hden : 0 < den) (h : codeQuanta code * den ≤ num) :
    code ≤ nearestCode num den := by
  obtain ⟨exponent, significand, rfl, hn⟩ := exists_eq_codeOf code
  rw [codeQuanta_codeOf hn, ← Nat.le_div_iff_mul_le hden] at h
  have hround : num / den / 1 <<< shiftOf (num / den) ≤
      roundQuotient num (den <<< shiftOf (num / den)) := by
    rw [Nat.shiftLeft_eq 1, Nat.one_mul, Nat.div_div_eq_div_mul, ← Nat.shiftLeft_eq]
    exact div_le_roundQuotient _ _
  have hexponent := le_shiftOf hn h
  unfold nearestCode codeOf
  by_cases heq : exponent = shiftOf (num / den)
  · have hle : significand ≤ num / den / 1 <<< shiftOf (num / den) := by
      rw [Nat.shiftLeft_eq, Nat.one_mul, Nat.le_div_iff_mul_le (Nat.two_pow_pos _),
        ← Nat.shiftLeft_eq, ← heq]
      exact h
    omega
  · have hfull : 1 <<< 52 ≤ num / den / 1 <<< shiftOf (num / den) := le_shifted (by omega)
    have := hn.1
    omega

/-- What is not above a double is not rounded above it. -/
theorem nearestCode_le (hden : 0 < den) (h : num ≤ codeQuanta code * den) :
    nearestCode num den ≤ code := by
  obtain ⟨exponent, significand, rfl, hn⟩ := exists_eq_codeOf code
  rw [codeQuanta_codeOf hn] at h
  have hquotient : num / den ≤ significand <<< exponent :=
    Nat.div_le_of_le_mul (Nat.mul_comm _ den ▸ h)
  have hpos : 0 < den <<< shiftOf (num / den) := by
    rw [Nat.shiftLeft_eq]
    exact Nat.mul_pos hden (Nat.two_pow_pos _)
  have hexponent := shiftOf_le hn.1 hquotient
  unfold nearestCode codeOf
  by_cases heq : shiftOf (num / den) = exponent
  · have hround : roundQuotient num (den <<< shiftOf (num / den)) ≤ significand := by
      refine roundQuotient_le hpos ?_
      rw [heq, Nat.shiftLeft_eq, Nat.mul_comm den, ← Nat.mul_assoc, ← Nat.shiftLeft_eq]
      exact h
    omega
  · -- at most the significand of the next exponent is reached
    have hround : roundQuotient num (den <<< shiftOf (num / den)) ≤ 1 <<< 53 := by
      refine roundQuotient_le hpos (Nat.le_of_lt ?_)
      rw [← Nat.div_lt_iff_lt_mul hpos, Nat.shiftLeft_eq den, ← Nat.div_div_eq_div_mul]
      have := shifted_lt (num / den)
      rwa [Nat.shiftLeft_eq, Nat.one_mul] at this
    have := hn.2 (by omega)
    omega

theorem nearestCode_codeQuanta (code : Nat) (hden : 0 < den) :
    nearestCode (codeQuanta code * den) den = code :=
  Nat.le_antisymm (nearestCode_le hden (Nat.le_refl _)) (le_nearestCode hden (Nat.le_refl _))

/-- Codes are in the order of the numbers that they stand for. -/
theorem codeQuanta_le_codeQuanta_iff {code code' : Nat} :
    codeQuanta code ≤ codeQuanta code' ↔ code ≤ code' := by
  have hle : ∀ {c c' : Nat}, codeQuanta c ≤ codeQuanta c' → c ≤ c' := by
    intro c c' h
    have := nearestCode_le (Nat.succ_pos 0) (Nat.mul_le_mul_right 1 h)
    rwa [nearestCode_codeQuanta c (Nat.succ_pos 0)] at this
  constructor
  · exact hle
  · intro h
    rcases Nat.le_total (codeQuanta code) (codeQuanta code') with h' | h'
    · exact h'
    · obtain rfl : code = code' := Nat.le_antisymm h (hle h')
      exact h'

/-! ### Doubles -/

variable {negative : Bool}

@[simp] theorem magnitude_ofCode (negative : Bool) (code : Nat) :
    (ofCode negative code).magnitude = min code infinityCode := rfl

@[simp] theorem isNaN_ofCode (negative : Bool) (code : Nat) : (ofCode negative code).isNaN = false := by
  unfold isNaN
  rw [magnitude_ofCode, decide_eq_false_iff_not]
  omega

theorem isFinite_iff (x : Binary64) : x.isFinite ↔ x.magnitude < infinityCode := by
  rw [isFinite, decide_eq_true_eq]

theorem isZero_iff {x : Binary64} : x.isZero ↔ x.quanta = 0 := by
  have hzero : codeQuanta 0 = 0 := rfl
  have h := @codeQuanta_le_codeQuanta_iff x.magnitude 0
  rw [isZero, beq_iff_eq, quanta]
  omega

@[simp] theorem isNaN_nearest (negative : Bool) (num den : Nat) :
    (nearest negative num den).isNaN = false := isNaN_ofCode _ _

theorem isNaN_of_isFinite {x : Binary64} (h : x.isFinite) : x.isNaN = false := by
  rw [isFinite_iff] at h
  rw [isNaN, decide_eq_false_iff_not]
  omega

theorem isInfinite_of_isFinite {x : Binary64} (h : x.isFinite) : x.isInfinite = false := by
  rw [isFinite_iff] at h
  rw [isInfinite, beq_eq_false_iff_ne]
  omega

theorem isNaN_mul {x y : Binary64} (hx : x.isFinite) (hy : y.isFinite) : (x.mul y).isNaN = false := by
  simp [mul, isNaN_of_isFinite, isInfinite_of_isFinite, hx, hy]

/-- **A finite double is rounded to itself.** -/
theorem nearest_quanta {x : Binary64} (h : x.isFinite) (hden : 0 < den) :
    nearest x.negative (x.quanta * den) den = x := by
  rw [isFinite_iff] at h
  obtain ⟨negative, magnitude, hlt⟩ := x
  rw [nearest_eq, quanta, nearestCode_codeQuanta _ hden]
  simp only [ofCode, mk.injEq, true_and]
  exact Nat.min_eq_left (Nat.le_of_lt h)

/-- What is not below a finite double is not rounded below it. -/
theorem quanta_le_quanta_nearest {x : Binary64} (hx : x.isFinite) (hden : 0 < den)
    (h : x.quanta * den ≤ num) : x.quanta ≤ (nearest negative num den).quanta := by
  rw [isFinite_iff] at hx
  have hcode := le_nearestCode hden h
  rw [quanta, quanta, codeQuanta_le_codeQuanta_iff, nearest_eq, magnitude_ofCode]
  omega

/-- What is not above a finite double is not rounded above it. -/
theorem quanta_nearest_le_quanta {x : Binary64} (hden : 0 < den) (h : num ≤ x.quanta * den) :
    (nearest negative num den).quanta ≤ x.quanta := by
  have hcode := nearestCode_le hden h
  rw [quanta, quanta, codeQuanta_le_codeQuanta_iff, nearest_eq, magnitude_ofCode]
  omega

/-- What is not above a finite double is rounded to a finite double. -/
theorem isFinite_nearest {x : Binary64} (hx : x.isFinite) (hden : 0 < den)
    (h : num ≤ x.quanta * den) : (nearest negative num den).isFinite := by
  rw [isFinite_iff] at hx ⊢
  have hcode := nearestCode_le hden h
  rw [nearest_eq, magnitude_ofCode]
  omega

/-! ### Integers -/

theorem quantaPerUnit_pos : 0 < quantaPerUnit := by decide

theorem mul_quantaPerUnit (n : Nat) : n * quantaPerUnit = n <<< 1074 := by
  have h : ∀ k, n * 1 <<< k = n <<< k := fun k => by
    rw [Nat.shiftLeft_eq, Nat.shiftLeft_eq, Nat.one_mul]
  exact h 1074

/-- A double is the integer whose units are its quanta. -/
theorem toInt?_eq_some_iff {x : Binary64} {n : Int} :
    x.toInt? = some n ↔ x.isFinite ∧ x.quanta = n.natAbs * quantaPerUnit ∧
      if x.negative then n ≤ 0 else 0 ≤ n := by
  have hpos := quantaPerUnit_pos
  unfold toInt?
  rw [Option.ite_none_right_eq_some, Bool.and_eq_true, beq_iff_eq, Option.some.injEq, and_assoc]
  refine and_congr_right fun _ => ?_
  constructor
  · rintro ⟨hrest, rfl⟩
    have hwhole : x.quanta = x.quanta / quantaPerUnit * quantaPerUnit :=
      (Nat.div_mul_cancel (Nat.dvd_of_mod_eq_zero hrest)).symm
    split
    · rw [Int.natAbs_neg, Int.natAbs_natCast]
      exact ⟨hwhole, Int.neg_nonpos_of_nonneg (Int.natCast_nonneg _)⟩
    · rw [Int.natAbs_natCast]
      exact ⟨hwhole, Int.natCast_nonneg _⟩
  · rintro ⟨hquanta, hsign⟩
    rw [hquanta, Nat.mul_mod_left, Nat.mul_div_cancel _ hpos]
    refine ⟨rfl, ?_⟩
    split at hsign
    · next hnegative =>
      rw [if_pos hnegative]
      omega
    · next hnegative =>
      rw [if_neg hnegative]
      omega

theorem toInt?_of_isZero {x : Binary64} (h : x.isZero) : x.toInt? = some 0 := by
  have hmagnitude : x.magnitude = 0 := by rwa [isZero, beq_iff_eq] at h
  rw [toInt?_eq_some_iff, isFinite_iff, hmagnitude, isZero_iff.mp h, Int.natAbs_zero, Nat.zero_mul]
  exact ⟨by decide, rfl, by split <;> exact Int.le_refl 0⟩

/-- At most 53 binary digits, and zeros behind them. -/
def IsShort (n : Nat) : Prop :=
  ∃ significand exponent, significand < 1 <<< 53 ∧ n = significand <<< exponent

theorem isShort_of_lt {n : Nat} (h : n < 1 <<< 53) : IsShort n := ⟨n, 0, h, rfl⟩

theorem isShort_of_even {n : Nat} (h : n % 2 = 0) (hlt : n < 1 <<< 54) : IsShort n := by
  refine ⟨n / 2, 1, ?_, ?_⟩
  · simp only [Nat.reduceShiftLeft] at hlt ⊢
    omega
  · rw [Nat.shiftLeft_eq]
    omega

/-- A short number is one that a code stands for, however many zeros there are. -/
theorem IsShort.exists_codeQuanta_eq {n : Nat} (h : IsShort n) :
    ∃ code, codeQuanta code = n * quantaPerUnit := by
  obtain ⟨significand, exponent, hlt, rfl⟩ := h
  rw [mul_quantaPerUnit, ← Nat.shiftLeft_add]
  generalize exponent + 1074 = e
  have hle : shiftOf (significand <<< e) ≤ e := shiftOf_le hlt (Nat.le_refl _)
  have hdiv : (significand <<< e) / 1 <<< shiftOf (significand <<< e) =
      significand <<< (e - shiftOf (significand <<< e)) := by
    rw [Nat.shiftLeft_eq 1, Nat.one_mul]
    refine Nat.div_eq_of_eq_mul_left (Nat.two_pow_pos _) ?_
    rw [← Nat.shiftLeft_eq, ← Nat.shiftLeft_add, Nat.sub_add_cancel hle]
  have hnormal : IsNormal (shiftOf (significand <<< e))
      (significand <<< (e - shiftOf (significand <<< e))) := by
    rw [← hdiv]
    exact ⟨shifted_lt _, le_shifted⟩
  refine ⟨_, (codeQuanta_codeOf hnormal).trans ?_⟩
  rw [← Nat.shiftLeft_add, Nat.sub_add_cancel hle]

/-- The doubles nearest to integers of moderate size are finite. -/
theorem isFinite_nearest_natural {n : Nat} (h : n ≤ 1 <<< 1023) :
    (nearest negative (n * quantaPerUnit) 1).isFinite := by
  have hmax : 1 <<< 1023 * quantaPerUnit ≤ (ofCode false (infinityCode - 1)).quanta := by decide
  refine isFinite_nearest (x := ofCode false (infinityCode - 1)) (by decide) (Nat.succ_pos 0) ?_
  rw [Nat.mul_one]
  exact Nat.le_trans (Nat.mul_le_mul_right _ h) hmax

/-- **A short integer is a double.** -/
theorem quanta_nearest_natural {n : Nat} (hs : IsShort n) (h : n ≤ 1 <<< 1023) :
    (nearest negative (n * quantaPerUnit) 1).quanta = n * quantaPerUnit := by
  obtain ⟨code, hcode⟩ := hs.exists_codeQuanta_eq
  have hfinite := @isFinite_nearest_natural negative n h
  have hexact : nearestCode (codeQuanta code) 1 = code := by
    have := nearestCode_codeQuanta code (Nat.succ_pos 0)
    rwa [Nat.mul_one] at this
  rw [isFinite_iff, ← hcode, nearest_eq, magnitude_ofCode, hexact] at hfinite
  rw [← hcode, quanta, nearest_eq, magnitude_ofCode, hexact, Nat.min_eq_left (by omega)]

theorem log2_shiftLeft {n : Nat} (h : n ≠ 0) (k : Nat) : (n <<< k).log2 = n.log2 + k := by
  have hne : n <<< k ≠ 0 := by
    rw [Nat.shiftLeft_eq]
    exact Nat.mul_ne_zero h (Nat.ne_of_gt (Nat.two_pow_pos k))
  rw [Nat.log2_eq_iff hne, Nat.shiftLeft_eq, Nat.pow_add, Nat.add_right_comm, Nat.pow_add]
  exact ⟨Nat.mul_le_mul_right _ (Nat.log2_self_le h),
    Nat.mul_lt_mul_of_pos_right Nat.lt_log2_self (Nat.two_pow_pos k)⟩

/-- From `2 ^ 53` to `2 ^ 54`, every other integer is a double. -/
theorem nearestCode_natural {n : Nat} (hle : 9007199254740992 ≤ n) (hlt : n < 18014398509481984) :
    nearestCode (n * quantaPerUnit) 1 = codeOf 1075 (n / 2 + n % 2 * (n / 2 % 2)) := by
  have hlog : n.log2 = 53 := (Nat.log2_eq_iff (by omega)).mpr ⟨hle, hlt⟩
  have hshift : shiftOf (n * quantaPerUnit / 1) = 1075 := by
    rw [shiftOf, Nat.div_one, mul_quantaPerUnit, log2_shiftLeft (by omega), hlog]
  have hunit : 1 <<< 1075 = 2 * quantaPerUnit := by decide
  rw [nearestCode, hshift, hunit, roundQuotient_mul_two_mul n quantaPerUnit_pos]

theorem negative_ofInt (n : Int) : (ofInt n).negative = decide (n < 0) := rfl

theorem isFinite_ofInt {n : Int} (h : n.natAbs ≤ 1 <<< 1023) : (ofInt n).isFinite :=
  isFinite_nearest_natural h

theorem quanta_ofInt {n : Int} (hs : IsShort n.natAbs) (h : n.natAbs ≤ 1 <<< 1023) :
    (ofInt n).quanta = n.natAbs * quantaPerUnit := quanta_nearest_natural hs h

theorem toInt?_ofInt {n : Int} (hs : IsShort n.natAbs) (h : n.natAbs ≤ 1 <<< 1023) :
    (ofInt n).toInt? = some n := by
  rw [toInt?_eq_some_iff]
  refine ⟨isFinite_ofInt h, quanta_ofInt hs h, ?_⟩
  rw [negative_ofInt]
  split
  · next hlt => exact Int.le_of_lt (of_decide_eq_true hlt)
  · next hlt =>
    rw [decide_eq_true_eq] at hlt
    omega

/-! ### Integers that are rounded -/

theorem shiftLeft_lt_shiftLeft {m n j k : Nat} (h : m < n) (hle : j ≤ k) : m <<< j < n <<< k := by
  rw [Nat.shiftLeft_eq, Nat.shiftLeft_eq]
  calc m * 2 ^ j < n * 2 ^ j := Nat.mul_lt_mul_of_pos_right h (Nat.two_pow_pos j)
    _ ≤ n * 2 ^ k := Nat.mul_le_mul_left n (Nat.pow_le_pow_right (Nat.succ_pos 1) hle)

/-- From `2 ^ 53` on, there are no fractions among the doubles. -/
theorem quantaPerUnit_dvd_codeQuanta {code : Nat} (h : 1 <<< 53 * quantaPerUnit ≤ codeQuanta code) :
    quantaPerUnit ∣ codeQuanta code := by
  obtain ⟨exponent, significand, rfl, hn⟩ := exists_eq_codeOf code
  rw [codeQuanta_codeOf hn] at h ⊢
  have hle : 1074 ≤ exponent := by
    refine Nat.le_of_not_lt fun hlt => ?_
    rw [mul_quantaPerUnit] at h
    exact Nat.not_le_of_lt (shiftLeft_lt_shiftLeft hn.1 (Nat.le_of_lt hlt)) h
  refine ⟨significand <<< (exponent - 1074), ?_⟩
  rw [Nat.mul_comm, mul_quantaPerUnit, ← Nat.shiftLeft_add, Nat.sub_add_cancel hle]

theorem isShort_of_le {n : Nat} (h : n ≤ 1 <<< 53) : IsShort n := by
  simp only [Nat.reduceShiftLeft] at h
  by_cases heq : n = 9007199254740992
  · exact isShort_of_even (by omega) (by simp only [Nat.reduceShiftLeft]; omega)
  · exact isShort_of_lt (by simp only [Nat.reduceShiftLeft]; omega)

theorem quanta_ofInt_natCast {k : Nat} (hs : IsShort k) (h : k ≤ 1 <<< 1023) :
    (ofInt k).quanta = k * quantaPerUnit := quanta_ofInt hs h

/-- Integers up to `2 ^ 53` are doubles. -/
theorem toInt?_ofInt_of_le {n : Int} (h : n.natAbs ≤ 1 <<< 53) : (ofInt n).toInt? = some n :=
  toInt?_ofInt (isShort_of_le h) (Nat.le_trans h (by decide))

section

variable {m r : Int} {k : Nat}

/-- An integer that is at least a double in size is not rounded below it. -/
theorem le_natAbs_of_toInt?_ofInt (hk : IsShort k) (hmax : k ≤ 1 <<< 1023) (hm : k ≤ m.natAbs)
    (h : (ofInt m).toInt? = some r) : k ≤ r.natAbs := by
  have hquanta := (toInt?_eq_some_iff.mp h).2.1
  have hle : k * quantaPerUnit ≤ (ofInt m).quanta := by
    rw [← quanta_ofInt_natCast hk hmax]
    refine quanta_le_quanta_nearest (isFinite_ofInt hmax) (Nat.succ_pos 0) ?_
    rw [quanta_ofInt_natCast hk hmax, Nat.mul_one]
    exact Nat.mul_le_mul_right _ hm
  rw [hquanta] at hle
  exact Nat.le_of_mul_le_mul_right hle quantaPerUnit_pos

/-- An integer that is at most a double in size is not rounded above it. -/
theorem natAbs_le_of_toInt?_ofInt (hk : IsShort k) (hmax : k ≤ 1 <<< 1023) (hm : m.natAbs ≤ k)
    (h : (ofInt m).toInt? = some r) : r.natAbs ≤ k := by
  have hquanta := (toInt?_eq_some_iff.mp h).2.1
  have hle : (ofInt m).quanta ≤ k * quantaPerUnit := by
    rw [← quanta_ofInt_natCast hk hmax]
    refine quanta_nearest_le_quanta (Nat.succ_pos 0) ?_
    rw [quanta_ofInt_natCast hk hmax, Nat.mul_one]
    exact Nat.mul_le_mul_right _ hm
  rw [hquanta] at hle
  exact Nat.le_of_mul_le_mul_right hle quantaPerUnit_pos

theorem nonneg_of_toInt?_ofInt (hm : 0 ≤ m) (h : (ofInt m).toInt? = some r) : 0 ≤ r := by
  have hsign := (toInt?_eq_some_iff.mp h).2.2
  rwa [negative_ofInt, decide_eq_false (Int.not_lt.mpr hm), if_neg Bool.false_ne_true] at hsign

/-- **The double nearest to an integer is an integer.** -/
theorem exists_toInt?_ofInt (hmax : m.natAbs ≤ 1 <<< 1023) : ∃ r, (ofInt m).toInt? = some r := by
  by_cases hsmall : m.natAbs ≤ 1 <<< 53
  · exact ⟨m, toInt?_ofInt_of_le hsmall⟩
  · have hmin : (ofInt (1 <<< 53 : Nat)).quanta = 1 <<< 53 * quantaPerUnit :=
      quanta_ofInt_natCast (isShort_of_le (Nat.le_refl _)) (by decide)
    have hle : 1 <<< 53 * quantaPerUnit ≤ (ofInt m).quanta := by
      rw [← hmin]
      refine quanta_le_quanta_nearest (isFinite_ofInt (by decide)) (Nat.succ_pos 0) ?_
      rw [hmin, Nat.mul_one]
      exact Nat.mul_le_mul_right _ (Nat.le_of_not_le hsmall)
    have hrest : (ofInt m).quanta % quantaPerUnit = 0 :=
      Nat.mod_eq_zero_of_dvd (quantaPerUnit_dvd_codeQuanta hle)
    simp only [toInt?, isFinite_ofInt hmax, hrest]
    exact ⟨_, rfl⟩

end

end Binary64

end Abacus
