import Abacus.Decimal
import Abacus.Proofs.Rounding
import Mathlib.Algebra.Group.Nat.Defs

/-!
# The shortest digits read back

Every finite double is read back from the digits that are found for it (`readsBackAs_shortest`). A
decimal that the search returns is one that was tested, so it is only to be shown that the search does
not run out of grids.

What is less than half way to the next double is rounded down (`nearestCode_eq`). The last grid of the
search is so fine that the decimal above the number is less than half way to the next double: a step
of the grid is less than half of the distance of doubles there, which is at least the `2 ^ 53`rd part
of the number. Decimals and binary digits are compared by `10 ^ 59 < 2 ^ 196` and `2 ^ 93 < 10 ^ 28`.
-/

namespace Abacus

/-- A quotient that is less than a half above an integer is rounded to it. -/
theorem roundQuotient_eq {num den n : Nat} (hle : n * den ≤ num) (hlt : 2 * num < (2 * n + 1) * den) :
    roundQuotient num den = n := by
  have hsplit : (2 * n + 1) * den = 2 * (n * den) + den := by
    rw [Nat.add_mul, Nat.one_mul, Nat.mul_assoc]
  have hquotient : num / den = n := by
    refine Nat.div_eq_of_lt_le hle ?_
    rw [Nat.succ_mul]
    omega
  have hrest : num % den = num - n * den := by
    have hdiv := Nat.div_add_mod num den
    rw [hquotient, Nat.mul_comm] at hdiv
    omega
  rw [roundQuotient, hquotient, if_pos (by omega)]

namespace Binary64

/-- **What is less than half way to the next double is rounded down.** -/
theorem nearestCode_eq {exponent significand num den : Nat} (hn : IsNormal exponent significand)
    (hden : 0 < den) (hle : significand <<< exponent * den ≤ num)
    (hlt : 2 * num < (2 * significand + 1) <<< exponent * den) :
    nearestCode num den = codeOf exponent significand := by
  simp only [Nat.shiftLeft_eq] at hle hlt
  have hquotient : num / den < (significand + 1) * 2 ^ exponent := by
    rw [Nat.div_lt_iff_lt_mul hden]
    have hdouble : (2 * significand + 1) * 2 ^ exponent * den ≤
        2 * ((significand + 1) * 2 ^ exponent * den) := by
      rw [← Nat.mul_assoc, ← Nat.mul_assoc]
      exact Nat.mul_le_mul_right _ (Nat.mul_le_mul_right _ (by omega))
    omega
  have hshift : shiftOf (num / den) = exponent := by
    refine Nat.le_antisymm ?_ (le_shiftOf hn ?_)
    · by_cases hzero : num / den = 0
      · rw [hzero]
        exact Nat.zero_le _
      · have hsignificand := hn.1
        simp only [Nat.reduceShiftLeft] at hsignificand
        have hpow : num / den < 2 ^ (53 + exponent) := by
          rw [Nat.pow_add]
          exact Nat.lt_of_lt_of_le hquotient (Nat.mul_le_mul_right _ (by omega))
        have hlog := (Nat.log2_lt hzero).mpr hpow
        unfold shiftOf
        omega
    · rw [Nat.shiftLeft_eq, Nat.le_div_iff_mul_le hden]
      exact hle
  have hround : roundQuotient num (den <<< exponent) = significand := by
    refine roundQuotient_eq ?_ ?_
    · rw [Nat.shiftLeft_eq, Nat.mul_comm den, ← Nat.mul_assoc]
      exact hle
    · rw [Nat.shiftLeft_eq, Nat.mul_comm den, ← Nat.mul_assoc]
      exact hlt
  rw [nearestCode, hshift, hround]

/-- What lies above a double by less than half of the distance of doubles is rounded to it. -/
theorem nearest_of_close {x : Binary64} (hx : x.isFinite) (hne : x.quanta ≠ 0) {num den : Nat}
    (hden : 0 < den) (hle : x.quanta * den ≤ num)
    (hclose : 2 ^ 53 * num < 2 ^ 53 * (x.quanta * den) + 2 ^ x.quanta.log2 * den) :
    nearest x.negative num den = x := by
  obtain ⟨exponent, significand, hcode, hn⟩ := exists_eq_codeOf x.magnitude
  have hquanta : x.quanta = significand * 2 ^ exponent := by
    rw [quanta, hcode, codeQuanta_codeOf hn, Nat.shiftLeft_eq]
  -- a double has at most 53 binary digits before its exponent
  have hlog : 2 ^ x.quanta.log2 * den ≤ 2 ^ 52 * (2 ^ exponent * den) := by
    have hs := hn.1
    simp only [Nat.reduceShiftLeft] at hs
    have hpow : x.quanta < 2 ^ (53 + exponent) := by
      rw [hquanta, Nat.pow_add]
      exact Nat.mul_lt_mul_of_pos_right hs (Nat.two_pow_pos _)
    have hlog := (Nat.log2_lt hne).mpr hpow
    rw [← Nat.mul_assoc, ← Nat.pow_add]
    exact Nat.mul_le_mul_right _ (Nat.pow_le_pow_right (by decide) (by omega))
  have hround : nearestCode num den = x.magnitude := by
    rw [hcode]
    refine nearestCode_eq hn hden ?_ ?_
    · rw [Nat.shiftLeft_eq, ← hquanta]
      exact hle
    · have hsplit : (2 * significand + 1) * 2 ^ exponent * den =
          2 * (x.quanta * den) + 2 ^ exponent * den := by
        rw [hquanta, Nat.add_mul, Nat.one_mul, Nat.add_mul]
        simp only [Nat.mul_assoc]
      rw [Nat.shiftLeft_eq, hsplit]
      omega
  rw [nearest_eq, hround]
  rw [isFinite_iff] at hx
  obtain ⟨negative, magnitude, hlt⟩ := x
  simp only [ofCode, mk.injEq, true_and]
  exact Nat.min_eq_left (Nat.le_of_lt hx)

end Binary64

/-! ### Powers of ten and of two -/

theorem ten_pow_le_two_pow {k m : Nat} (h : 196 * k ≤ 59 * m) : 10 ^ k ≤ 2 ^ m := by
  rw [← Nat.pow_le_pow_iff_left (show 59 ≠ 0 by decide)]
  calc (10 ^ k) ^ 59 = (10 ^ 59) ^ k := by rw [← Nat.pow_mul, ← Nat.pow_mul, Nat.mul_comm]
    _ ≤ (2 ^ 196) ^ k := Nat.pow_le_pow_left (by decide) k
    _ = 2 ^ (196 * k) := by rw [← Nat.pow_mul]
    _ ≤ 2 ^ (59 * m) := Nat.pow_le_pow_right (by decide) h
    _ = (2 ^ m) ^ 59 := by rw [← Nat.pow_mul, Nat.mul_comm]

theorem two_pow_le_ten_pow {k m : Nat} (h : 28 * m ≤ 93 * k) : 2 ^ m ≤ 10 ^ k := by
  rw [← Nat.pow_le_pow_iff_left (show 28 ≠ 0 by decide)]
  calc (2 ^ m) ^ 28 = 2 ^ (28 * m) := by rw [← Nat.pow_mul, Nat.mul_comm]
    _ ≤ 2 ^ (93 * k) := Nat.pow_le_pow_right (by decide) h
    _ = (2 ^ 93) ^ k := by rw [← Nat.pow_mul]
    _ ≤ (10 ^ 28) ^ k := Nat.pow_le_pow_left (by decide) k
    _ = (10 ^ k) ^ 28 := by rw [← Nat.pow_mul, ← Nat.pow_mul, Nat.mul_comm]

theorem two_pow_mul_lt {a b c n : Nat} (hn : n ≤ 2 ^ b) (h : a + b < c) : 2 ^ a * n < 2 ^ c :=
  calc 2 ^ a * n ≤ 2 ^ a * 2 ^ b := Nat.mul_le_mul_left _ hn
    _ = 2 ^ (a + b) := (Nat.pow_add ..).symm
    _ < 2 ^ c := Nat.pow_lt_pow_right (by decide) h

theorem two_pow_lt_mul {a b c n : Nat} (hn : 2 ^ b ≤ n) (h : a < c + b) : 2 ^ a < 2 ^ c * n :=
  calc 2 ^ a < 2 ^ (c + b) := Nat.pow_lt_pow_right (by decide) h
    _ = 2 ^ c * 2 ^ b := Nat.pow_add ..
    _ ≤ 2 ^ c * n := Nat.mul_le_mul_left _ hn

namespace Decimal

open Binary64

/-! ### The last grid -/

/-- The exponent of the last of the twenty grids for a number with given binary digits. -/
def fineExponent (log : Nat) : Int := ((log : Int) - 1073) * 30103 / 100000 - 18

theorem two_pow_mul_quantaPerUnit : 2 ^ 53 * quantaPerUnit = 2 ^ 1127 := by decide +kernel

/-- A step of the last grid is less than half of the distance of doubles. -/
theorem step_fineExponent_lt {log : Nat} (h : log < 2098) :
    2 ^ 53 * quantaPerUnit * 10 ^ (fineExponent log).toNat <
      2 ^ log * 10 ^ (-fineExponent log).toNat := by
  rw [two_pow_mul_quantaPerUnit]
  have hfine : fineExponent log = ((log : Int) - 1073) * 30103 / 100000 - 18 := rfl
  by_cases hsign : 0 ≤ fineExponent log
  · have hzero : (-fineExponent log).toNat = 0 := by omega
    rw [hzero, Nat.pow_zero, Nat.mul_one]
    exact two_pow_mul_lt (ten_pow_le_two_pow (m := log - 1128) (by omega)) (by omega)
  · have hzero : (fineExponent log).toNat = 0 := by omega
    rw [hzero, Nat.pow_zero, Nat.mul_one]
    exact two_pow_lt_mul (two_pow_le_ten_pow (m := 1128 - log) (by omega)) (by omega)

variable {x : Binary64}

/-- On a grid that is fine enough, the decimal above a double reads back. -/
theorem readsBackAs_above (hx : x.isFinite) (hne : x.quanta ≠ 0) {exponent : Int}
    (hfine : 2 ^ 53 * quantaPerUnit * 10 ^ exponent.toNat <
      2 ^ x.quanta.log2 * 10 ^ (-exponent).toNat) :
    (Decimal.mk (x.quanta * Nat.pow 10 (-exponent).toNat /
      (quantaPerUnit * Nat.pow 10 exponent.toNat) + 1) exponent).readsBackAs x := by
  have hden : 0 < Nat.pow 10 (-exponent).toNat := Nat.pow_pos (by decide)
  have hstep : 0 < quantaPerUnit * Nat.pow 10 exponent.toNat :=
    Nat.mul_pos quantaPerUnit_pos (Nat.pow_pos (by decide))
  have hten : ∀ k, 10 ^ k = Nat.pow 10 k := fun _ => rfl
  rw [hten, hten, Nat.mul_assoc] at hfine
  rw [readsBackAs, beq_iff_eq, ofDecimal]
  generalize Nat.pow 10 (-exponent).toNat = den at hfine hden ⊢
  have hunit : ∀ a : Nat, a * Nat.pow 10 exponent.toNat * quantaPerUnit =
      quantaPerUnit * Nat.pow 10 exponent.toNat * a := by
    intro a
    rw [Nat.mul_assoc, Nat.mul_comm, Nat.mul_comm quantaPerUnit]
  simp only [hunit]
  generalize quantaPerUnit * Nat.pow 10 exponent.toNat = step at hfine hstep ⊢
  have hsplit := Nat.div_add_mod (x.quanta * den) step
  have hrest := Nat.mod_lt (x.quanta * den) hstep
  rw [Nat.mul_add, Nat.mul_one]
  refine nearest_of_close hx hne hden ?_ ?_
  · omega
  · omega

/-! ### The search -/

/-- Whatever is found on a grid reads back. -/
theorem readsBackAs_of_onGrid? {tie : Tie} {exponent : Int} {d : Decimal}
    (h : onGrid? tie x exponent = some d) : d.readsBackAs x := by
  have hnearer : ∀ n rest den, nearer tie n rest den = n ∨ nearer tie n rest den = n + 1 := by
    intro n rest den
    unfold nearer
    split
    · exact .inl rfl
    · split
      · exact .inr rfl
      · cases tie with
        | up => exact .inr rfl
        | even => simp only; omega
  simp only [onGrid?] at h
  split at h
  · next hbelow habove =>
    rw [← Option.some.inj h]
    rcases hnearer _ _ _ with heq | heq <;> rw [heq]
    · exact hbelow
    · exact habove
  · next hbelow _ =>
    rw [← Option.some.inj h]
    exact hbelow
  · next _ habove =>
    rw [← Option.some.inj h]
    exact habove
  · cases h

theorem isSome_onGrid?_of_above {tie : Tie} {exponent : Int}
    (h : (Decimal.mk (x.quanta * Nat.pow 10 (-exponent).toNat /
      (quantaPerUnit * Nat.pow 10 exponent.toNat) + 1) exponent).readsBackAs x) :
    (onGrid? tie x exponent).isSome := by
  simp only [onGrid?]
  split
  · rfl
  · rfl
  · rfl
  · next habove => rw [habove] at h; cases h

/-- If something reads back on one of its grids, the search finds something that does. -/
theorem readsBackAs_search {tie : Tie} {grids : Nat} {exponent : Int}
    (h : ∃ j < grids, (onGrid? tie x (exponent - j)).isSome) :
    (search tie x grids exponent).readsBackAs x := by
  induction grids generalizing exponent with
  | zero =>
    obtain ⟨j, hj, -⟩ := h
    omega
  | succ grids ih =>
    rw [search]
    cases hgrid : onGrid? tie x exponent with
    | some d => exact readsBackAs_of_onGrid? hgrid
    | none =>
      obtain ⟨j, hj, hsome⟩ := h
      refine ih ?_
      cases j with
      | zero =>
        rw [Int.natCast_zero, Int.sub_zero, hgrid] at hsome
        cases hsome
      | succ j =>
        refine ⟨j, by omega, ?_⟩
        rwa [show exponent - 1 - (j : Int) = exponent - ((j + 1 : Nat) : Int) by omega]

theorem log2_quanta_lt (hx : x.isFinite) : x.quanta.log2 < 2098 := by
  by_cases hne : x.quanta = 0
  · rw [hne]
    decide
  · have hlt : x.quanta < codeQuanta infinityCode := by
      rw [isFinite_iff] at hx
      rw [← Nat.not_le, quanta, codeQuanta_le_codeQuanta_iff]
      omega
    have hlog : ∀ k, codeQuanta infinityCode = 2 ^ k → x.quanta.log2 < k := by
      intro k hk
      rw [hk] at hlt
      exact (Nat.log2_lt hne).mpr hlt
    exact hlog 2098 (by decide +kernel)

/-- **The shortest digits of a finite double read back.** -/
theorem readsBackAs_shortest (tie : Tie) (hx : x.isFinite) : (shortest tie x).readsBackAs x := by
  rw [shortest]
  by_cases hzero : x.isZero
  · have hself := @nearest_quanta 1 x hx Nat.one_pos
    rw [isZero_iff.mp hzero] at hself
    rw [if_pos hzero, readsBackAs, beq_iff_eq]
    exact hself
  · rw [if_neg hzero]
    have hne : x.quanta ≠ 0 := by rwa [isZero_iff] at hzero
    refine readsBackAs_search ⟨19, by decide, isSome_onGrid?_of_above (readsBackAs_above hx hne ?_)⟩
    have hexponent : coarseExponent x - (19 : Nat) = fineExponent x.quanta.log2 := by
      rw [coarseExponent, fineExponent]
      omega
    rw [hexponent]
    exact step_fineExponent_lt (log2_quanta_lt hx)

end Decimal

end Abacus
