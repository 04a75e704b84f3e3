import Abacus.Proofs.SmallPower

/-!
# Values that have stood as literals

A value that has stood as a literal can come back as a value of another sort: a double becomes an
integer, an integer of 64 bits one of 32 bits or a double. It is still the same number, and the
literal for it is the same again (`Value.retype_keeps_number`). Its sort is then a matter of the
number alone: an integer below `10 ^ 15` is an integer, of 32 bits if they are enough, and every
other number is a double.

All this goes through the literal in between. It is one that reducing leaves (`Literal.IsReduced`),
and on those evaluating is undone by writing the value as a literal.

A number, here, is what a finite double stands for. Two doubles are the same number if they have the
same quanta, with their signs (`Binary64.IsSameNumber`), so the sign of a zero does not count.
-/

namespace Abacus

namespace Binary64

variable {x y : Binary64} {n : Int}

/-! ### Doubles as numbers -/

/-- The doubles are finite and equal as numbers; the two zeros are. -/
def IsSameNumber (x y : Binary64) : Prop :=
  x.isFinite ∧ y.isFinite ∧ x.signedQuanta = y.signedQuanta

theorem isSameNumber_self (h : x.isFinite) : IsSameNumber x x := ⟨h, h, rfl⟩

theorem signedQuanta_of_toInt? (h : x.toInt? = some n) : x.signedQuanta = n * quantaPerUnit := by
  obtain ⟨-, hquanta, hsign⟩ := toInt?_eq_some_iff.mp h
  rw [signedQuanta, hquanta, Int.natCast_mul]
  split at hsign
  · next hnegative =>
    rw [if_pos hnegative, Int.ofNat_natAbs_of_nonpos hsign, Int.neg_mul, Int.neg_neg]
  · next hnegative => rw [if_neg hnegative, Int.natAbs_of_nonneg hsign]

theorem natAbs_signedQuanta (x : Binary64) : x.signedQuanta.natAbs = x.quanta := by
  rw [signedQuanta]
  split <;> simp

/-- **A double is the integer whose units are its quanta**, sign and all. -/
theorem toInt?_eq_some_iff_signedQuanta :
    x.toInt? = some n ↔ x.isFinite ∧ x.signedQuanta = n * quantaPerUnit := by
  constructor
  · intro h
    exact ⟨(toInt?_eq_some_iff.mp h).1, signedQuanta_of_toInt? h⟩
  · rintro ⟨hfinite, hquanta⟩
    have hpos : (0 : Int) < quantaPerUnit := Int.natCast_pos.mpr quantaPerUnit_pos
    refine toInt?_eq_some_iff.mpr ⟨hfinite, ?_, ?_⟩
    · rw [← natAbs_signedQuanta, hquanta, Int.natAbs_mul, Int.natAbs_natCast]
    · rw [signedQuanta] at hquanta
      split at hquanta
      · next hnegative =>
        rw [if_pos hnegative]
        refine Int.not_lt.mp fun hn => ?_
        have := Int.mul_pos hn hpos
        omega
      · next hnegative =>
        rw [if_neg hnegative]
        refine Int.not_lt.mp fun hn => ?_
        have := Int.mul_neg_of_neg_of_pos hn hpos
        omega

/-- Doubles that are the same integer are the same number. -/
theorem isSameNumber_of_toInt? (hx : x.toInt? = some n) (hy : y.toInt? = some n) :
    IsSameNumber x y := by
  rw [toInt?_eq_some_iff_signedQuanta] at hx hy
  exact ⟨hx.1, hy.1, hx.2.trans hy.2.symm⟩

/-- Doubles that are the same number are the same integer, if they are one. -/
theorem IsSameNumber.toInt?_iff (h : IsSameNumber x y) :
    x.toInt? = some n ↔ y.toInt? = some n := by
  obtain ⟨hx, hy, hquanta⟩ := h
  rw [toInt?_eq_some_iff_signedQuanta, toInt?_eq_some_iff_signedQuanta, hquanta]
  simp only [hx, hy]

end Binary64

namespace Value

open Binary64

variable {v : Value} {n : Int}

/-! ### Literals as values -/

theorem toReal_ofInt64 (k : Int64) : (ofInt64 k).toReal = .ofInt k.toInt :=
  toReal_of_toInt? (toInt?_ofInt64 k)

/-- An integer has 32 bits if they are enough for it. -/
theorem exists_ofInt64_eq_int32_iff {k : Int64} :
    (∃ m, ofInt64 k = .int32 m) ↔ -2147483648 ≤ k.toInt ∧ k.toInt ≤ 2147483647 := by
  unfold ofInt64 fits32
  split <;> grind

theorem toLiteral_ofInt64 {k : Int64} (h : k.toInt.natAbs < literalBound) :
    (ofInt64 k).toLiteral = .int k := by
  unfold ofInt64
  split
  · next hfits =>
    simp only [fits32, Bool.and_eq_true, decide_eq_true_eq] at hfits
    have hk : (Int32.ofInt k.toInt).toInt64 = k := by
      rw [← Int64.toInt_inj, Int32.toInt_toInt64, Int32.toInt_ofInt_of_le (by omega) (by omega)]
    rw [toLiteral, hk]
  · rw [toLiteral, if_pos h]

/-- **A literal that reducing leaves is the literal for its value.** -/
theorem toLiteral_ofLiteral {l : Literal} (h : l.IsReduced) : (ofLiteral l).toLiteral = l := by
  cases l with
  | int k => exact toLiteral_ofInt64 h
  | real x =>
    rw [ofLiteral, toLiteral]
    cases hx : x.toInt? with
    | none => rfl
    | some n => exact if_neg (Nat.not_lt_of_le (h.2 n hx))

/-- The value of such a literal is an integer if the number is a small integer. -/
theorem toInt?_ofLiteral_iff {l : Literal} (h : l.IsReduced) :
    (ofLiteral l).toInt? = some n ↔
      (ofLiteral l).toReal.toInt? = some n ∧ n.natAbs < 1000000000000000 := by
  cases l with
  | int k =>
    have hk : k.toInt.natAbs < 1000000000000000 := h
    have hreal : (ofInt k.toInt).toInt? = some k.toInt :=
      toInt?_ofInt_of_le (Nat.le_trans (Nat.le_of_lt hk) (by decide))
    rw [ofLiteral, toInt?_ofInt64, toReal_ofInt64, hreal]
    constructor
    · rintro ⟨⟩
      exact ⟨rfl, hk⟩
    · rintro ⟨hn, -⟩
      exact hn
  | real x =>
    refine iff_of_false ?_ ?_
    · rintro ⟨⟩
    · rintro ⟨hn, hsmall⟩
      exact absurd hsmall (Nat.not_lt_of_le (h.2 n hn))

/-! ### Retyping -/

/-- **Retyping keeps the number.** -/
theorem isSameNumber_retype (h : v.toReal.isFinite) : IsSameNumber v.retype.toReal v.toReal := by
  cases v with
  | int32 m =>
    rw [retype, toLiteral, ofLiteral, toReal_ofInt64, Int32.toInt_toInt64]
    exact isSameNumber_self h
  | int64 m =>
    rw [retype, toLiteral]
    split
    · rw [ofLiteral, toReal_ofInt64]
      exact isSameNumber_self h
    · exact isSameNumber_self h
  | real x =>
    rw [retype, toLiteral]
    cases hx : x.toInt? with
    | none => exact isSameNumber_self h
    | some n =>
      simp only
      split
      · next hsmall =>
        rw [literalBound] at hsmall
        rw [ofLiteral, toReal_ofInt64, Int64.toInt_ofInt_of_le (by omega) (by omega)]
        have hn : (ofInt n).toInt? = some n :=
          toInt?_ofInt_of_le (Nat.le_trans (Nat.le_of_lt hsmall) (by decide))
        exact isSameNumber_of_toInt? hn hx
      · exact isSameNumber_self h

theorem isFinite_toReal (h : ∀ x, v = .real x → x.isFinite) : v.toReal.isFinite := by
  cases v with
  | int32 | int64 => exact isFinite_of_toInt? rfl
  | real x => exact h x rfl

/-- An integer that is left by retyping has 32 bits if they are enough. -/
theorem exists_retype_eq_int32_iff (h : v.retype.toInt? = some n) :
    (∃ m, v.retype = .int32 m) ↔ -2147483648 ≤ n ∧ n ≤ 2147483647 := by
  rw [retype] at h ⊢
  cases hl : v.toLiteral with
  | int k =>
    rw [hl, ofLiteral, toInt?_ofInt64] at h
    obtain rfl := Option.some.inj h
    exact exists_ofInt64_eq_int32_iff
  | real x =>
    rw [hl] at h
    cases h

/-- **A value is the same number after it has stood as a literal**, if it is an integer or a finite
double, and the literal for it is the same again. It is an integer if the number is one below
`10 ^ 15` in size, and then has 32 bits if they are enough. -/
theorem retype_keeps_number (v : Value) (h : ∀ x, v = .real x → x.isFinite) :
    IsSameNumber v.retype.toReal v.toReal ∧
    v.retype.toLiteral = v.toLiteral ∧
    (∀ n, v.retype.toInt? = some n ↔
      v.toReal.toInt? = some n ∧ n.natAbs < 1000000000000000) ∧
    ∀ n, v.retype.toInt? = some n →
      ((∃ m, v.retype = .int32 m) ↔ -2147483648 ≤ n ∧ n ≤ 2147483647) := by
  have hfinite := isFinite_toReal h
  have hreduced : v.toLiteral.IsReduced := isReduced_toLiteral hfinite
  have hnumber := isSameNumber_retype hfinite
  refine ⟨hnumber, toLiteral_ofLiteral hreduced, fun n => ?_, fun n => exists_retype_eq_int32_iff⟩
  rw [← hnumber.toInt?_iff]
  exact toInt?_ofLiteral_iff hreduced

/-- The negative zero is a double, and comes back as the integer 0. -/
theorem retype_keeps_number_of_negative_zero :
    (∀ x, real (zero true) = real x → x.isFinite) ∧ (real (zero true)).retype = int32 0 ∧
      IsSameNumber (int32 0).toReal (zero true) ∧
      (int32 0).toLiteral = (real (zero true)).toLiteral := by
  have hfinite : ∀ x, real (zero true) = real x → x.isFinite := by
    rintro x ⟨⟩
    rfl
  have hretype : (real (zero true)).retype = int32 0 := by decide
  obtain ⟨hnumber, hliteral, -⟩ := retype_keeps_number (real (zero true)) hfinite
  rw [hretype] at hnumber hliteral
  exact ⟨hfinite, hretype, hnumber, hliteral⟩

end Value

end Abacus
