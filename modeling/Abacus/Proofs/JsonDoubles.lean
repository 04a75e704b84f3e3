import Abacus.Proofs.JsonRoundTrip
import Abacus.Proofs.NumberText

/-!
# Any expression as JSON

An expression need not come from a text. One that was put together by hand may have chains without
links, chains of several levels, negative integers, doubles, and spans that lie anywhere. All of
that is written as JSON, and read back (`Expr.reads_back_from_json`).

One thing can fail, and it is the reader of numbers. Every finite double is written as a number that
JSON allows (`JsonNumber.isWellFormed_ofReal`): the digits found for it are not all zeros, so the
part before the point has no leading zero too many. But what is read from these digits is rounded
more than once on the way, and can be a neighbour of the double. So it is asked of each double in
the expression that it is read back from its own digits (`JsonNumber.ReadsBack`), and of nothing else
in it.
-/

namespace Abacus

namespace Decimal

variable {x : Binary64} {d : Decimal}

/-! ### Digits without leading zeros -/

/-- The digits of zero do not read back as any other number. -/
theorem digits_shortest_ne_zero (tie : Tie) (hx : x.isFinite) (hne : ¬ x.isZero) :
    (shortest tie x).digits ≠ 0 := by
  intro hzero
  have hread := readsBackAs_shortest tie hx
  rw [readsBackAs, beq_iff_eq, Binary64.ofDecimal, hzero, Nat.zero_mul, Nat.zero_mul] at hread
  have hle : (Binary64.nearest x.negative 0
      (Nat.pow 10 (-(shortest tie x).exponent).toNat)).quanta ≤ (Binary64.zero false).quanta :=
    Binary64.quanta_nearest_le_quanta (Nat.pow_pos (by decide)) (Nat.zero_le _)
  rw [hread] at hle
  exact hne (Binary64.isZero_iff.mpr (Nat.le_zero.mp hle))

/-- The digits of a number begin like the number. -/
theorem head?_ofNat_take {n k : Nat} (hn : n ≠ 0) : ((Text.ofNat n).take k).head? ≠ some '0' := by
  cases k with
  | zero => simp
  | succ k =>
    rw [List.head?_take, if_neg (Nat.succ_ne_zero k)]
    exact Text.head?_ofNat hn

/-- The digits before the point have no leading zero, unless there is nothing but a zero. -/
theorem isWhole_whole (h : d.digits ≠ 0) : JsonNumber.isWhole d.whole := by
  have hne : Text.ofNat d.digits ≠ [] := Nat.toDigits_ne_nil
  have hwhole : d.whole = ['0'] ∨ d.whole.head? ≠ some '0' := by
    simp only [whole]
    split
    · rw [List.head?_append_of_ne_nil _ hne]
      exact .inr (Text.head?_ofNat h)
    · split
      · exact .inr (head?_ofNat_take h)
      · exact .inl rfl
  rcases hwhole with hzero | hhead
  · rw [hzero]
    rfl
  · simp [JsonNumber.isWhole, whole_ne_nil, hhead]

end Decimal

namespace JsonNumber

variable {x : Binary64}

/-! ### Doubles as numbers of JSON -/

/-- A number with the digits of a decimal, and a zero after the point if nothing else is there. -/
theorem isWellFormed_plain {d : Decimal} (h : isWhole d.whole) (negative : Bool) :
    IsWellFormed ⟨negative, d.whole,
      some (if d.fraction.isEmpty then ['0'] else d.fraction), none⟩ where
  isWhole := h
  whole := fun c hc => Decimal.isDigit_of_mem_whole hc
  fraction := by
    intro places hplaces
    obtain rfl := Option.some.inj hplaces
    split
    · exact ⟨by decide, by simp⟩
    · next hne =>
      refine ⟨by simpa using hne, fun c hc => Decimal.isDigit_of_mem_fraction hc⟩

/-- A number with one digit before the point, and an exponent. -/
theorem isWellFormed_scientific {d : Decimal} (h : d.digits ≠ 0) (negative : Bool)
    (exponent : Int) : IsWellFormed ⟨negative, (Text.ofNat d.digits).take 1,
      if ((Text.ofNat d.digits).drop 1).isEmpty then none else some ((Text.ofNat d.digits).drop 1),
      some exponent⟩ where
  isWhole := by
    have hne : Text.ofNat d.digits ≠ [] := Nat.toDigits_ne_nil
    have hhead : ((Text.ofNat d.digits).take 1).head? ≠ some '0' := Decimal.head?_ofNat_take h
    simp [JsonNumber.isWhole, hne, hhead]
  whole := fun c hc => Text.isDigit_of_mem_ofNat (List.mem_of_mem_take hc)
  fraction := by
    intro places hplaces
    split at hplaces
    · cases hplaces
    · next hne =>
      obtain rfl := Option.some.inj hplaces
      exact ⟨by simpa using hne, fun c hc => Text.isDigit_of_mem_ofNat (List.mem_of_mem_drop hc)⟩

/-- **Every finite double is a number of JSON.** -/
theorem isWellFormed_ofReal (hx : x.isFinite) : (ofReal x).IsWellFormed := by
  by_cases hzero : x.isZero
  · have hdigits : Decimal.shortest .even x = ⟨0, 0⟩ := if_pos hzero
    simp only [ofReal, hdigits]
    exact isWellFormed_plain (d := ⟨0, 0⟩) (by decide) x.negative
  · have hdigits := Decimal.digits_shortest_ne_zero .even hx hzero
    simp only [ofReal]
    split
    · exact isWellFormed_scientific hdigits x.negative _
    · exact isWellFormed_plain (Decimal.isWhole_whole hdigits) x.negative

/-- A double is read back from the digits that are written for it. -/
def ReadsBack (x : Binary64) : Prop := (ofText? (ofReal x).text).bind toReal? = some x

instance (x : Binary64) : Decidable (ReadsBack x) :=
  inferInstanceAs (Decidable ((ofText? (ofReal x).text).bind toReal? = some x))

/-- One half is read back, and so is the negative zero. -/
example : ReadsBack (.ofBits 0x3fe0000000000000) ∧ ReadsBack (.zero true) := by decide +kernel

/-- Not every double is: this one is written as `31.480891024237202`. -/
example : ¬ ReadsBack (.ofBits 4629554300750006762) := by decide +kernel

end JsonNumber

/-- A finite double that is read back from its digits can be written and read back. -/
theorem Literal.isWritable_real {x : Binary64} (hx : x.isFinite) (h : JsonNumber.ReadsBack x) :
    (real x).IsWritable := by
  have hnumber := JsonNumber.isWellFormed_ofReal hx
  rw [JsonNumber.ReadsBack, JsonNumber.ofText?_text hnumber] at h
  exact ⟨hx, hnumber, h⟩

namespace Expr

/-- **Any expression is read back from its JSON text**, whatever its shape, if no more arrays and
objects are nested in the text than the reader enters; otherwise the reader gives up. The bounds of
the spans are asked to be numbers of 64 bits, and each double to be finite and read back from its
own digits. -/
theorem reads_back_from_json {e : Expr} (hspans : ∀ n : Expr, n.IsNodeOf e → n.span.IsWord)
    (hreals : ∀ x, .real x ∈ e.literals → x.isFinite ∧ JsonNumber.ReadsBack x) :
    ofJsonText? e.jsonText = if e.toJson.depth ≤ 127 then some e else none := by
  refine ofJsonText?_jsonText (isWritable_of_forall (fun value hv => ?_) hspans)
  cases value with
  | int n => exact trivial
  | real x =>
    obtain ⟨hfinite, hback⟩ := hreals x hv
    exact Literal.isWritable_real hfinite hback

/-- An expression that no text has: a chain of a sum and a power, a chain without links in it, the
least integer, a double, and reversed spans. -/
def handBuilt : Expr :=
  .chain (.literal (.int (-9223372036854775808)) ⟨5, 2⟩)
    [⟨.add, .chain (.literal (.real (.ofBits 0x3fe0000000000000)) ⟨0, 1⟩) [] ⟨7, 7⟩⟩,
      ⟨.pow, .literal (.int 3) ⟨18446744073709551615, 0⟩⟩] ⟨0, 9⟩

theorem reads_back_from_json_hand_built :
    (∀ n : Expr, n.IsNodeOf handBuilt → n.span.IsWord) ∧
      (∀ x, .real x ∈ handBuilt.literals → x.isFinite ∧ JsonNumber.ReadsBack x) ∧
      handBuilt.toJson.depth ≤ 127 ∧ ofJsonText? handBuilt.jsonText = some handBuilt := by
  have hspans : ∀ n : Expr, n.IsNodeOf handBuilt → n.span.IsWord := by
    simp [handBuilt, forall_isNodeOf_chain_iff, forall_isNodeOf_literal_iff, Expr.span, Span.IsWord]
  have hreals : ∀ x, .real x ∈ handBuilt.literals → x.isFinite ∧ JsonNumber.ReadsBack x := by
    intro x hx
    obtain rfl : x = .ofBits 0x3fe0000000000000 := by
      simpa [handBuilt, literals, linkLiterals] using hx
    decide +kernel
  have hdepth : handBuilt.toJson.depth ≤ 127 := by decide
  refine ⟨hspans, hreals, hdepth, ?_⟩
  rw [reads_back_from_json hspans hreals, if_pos hdepth]

end Expr

end Abacus
