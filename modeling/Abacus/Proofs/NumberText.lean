import Abacus.Proofs.IntegerText
import Abacus.Proofs.ShortestDigits
import Abacus.Proofs.Spelling

/-!
# What the text of a number tells

Different finite doubles have different texts (`Binary64.text_injective`). The shortest digits of a
double read back as the double, and they can be told from either notation: from plain digits up to
zeros, which count for nothing, and from scientific notation exactly.

The text of a literal consists of a sign, if it is negative, and its *numeral*, which is made of
digits, points and `e` and begins with a digit. Among the literals that reducing leaves, no integer
has the text of a double (`Literal.eq_of_text_eq`): a double that is written like a small integer is
that integer, and would have become it. For other literals this fails, as `1` is the text of both.
-/

namespace Abacus

/-! ### Splitting a text -/

/-- A text is split in one way where characters of a kind end. -/
theorem Text.append_inj_of_forall {p : Char → Bool} {s s' t t' : Text} (hs : ∀ c ∈ s, p c)
    (hs' : ∀ c ∈ s', p c) (ht : ∀ c ∈ t.head?, p c = false) (ht' : ∀ c ∈ t'.head?, p c = false)
    (h : s ++ t = s' ++ t') : s = s' ∧ t = t' := by
  have htake : ∀ {s t : Text}, (∀ c ∈ s, p c) → (∀ c ∈ t.head?, p c = false) →
      (s ++ t).takeWhile p = s := by
    intro s t hs ht
    rw [List.takeWhile_append_of_pos hs]
    cases t with
    | nil => simp
    | cons c t => simp [ht c rfl]
  have heq : s = s' := by rw [← htake hs ht, h, htake hs' ht']
  subst heq
  exact ⟨rfl, List.append_cancel_left h⟩

theorem Text.ofNat_injective {m n : Nat} (h : ofNat m = ofNat n) : m = n := by
  rw [← toNat_ofNat m, h, toNat_ofNat]

theorem Text.ofInt_injective {m n : Int} (h : ofInt m = ofInt n) : m = n := by
  have hhead : ∀ (k : Nat) (s : Text), ofNat k ≠ '-' :: s := by
    intro k s hk
    exact absurd (isDigit_of_mem_ofNat (hk ▸ List.mem_cons_self)) (by decide)
  unfold ofInt at h
  split at h
  · split at h
    · have := ofNat_injective (List.cons.inj h).2
      omega
    · exact absurd h.symm (hhead _ _)
  · split at h
    · exact absurd h (hhead _ _)
    · have := ofNat_injective h
      omega

namespace Decimal

variable {d d' : Decimal}

/-! ### Digits of a decimal -/

theorem isDigit_of_mem_whole {c : Char} (h : c ∈ d.whole) : c.isDigit := by
  simp only [whole] at h
  split at h
  · rcases List.mem_append.mp h with h | h
    · exact Text.isDigit_of_mem_ofNat h
    · rw [List.eq_of_mem_replicate h]
      decide
  · split at h
    · exact Text.isDigit_of_mem_ofNat (List.mem_of_mem_take h)
    · rw [List.mem_singleton.mp h]
      decide

theorem whole_ne_nil (d : Decimal) : d.whole ≠ [] := by
  have hne : Text.ofNat d.digits ≠ [] := Nat.toDigits_ne_nil
  simp only [whole]
  split
  · simp [hne]
  · split
    · next hlt => simp [List.take_eq_nil_iff, hne]; omega
    · simp

theorem isDigit_of_mem_fraction {c : Char} (h : c ∈ d.fraction) : c.isDigit := by
  simp only [fraction] at h
  split at h
  · cases h
  · split at h
    · exact Text.isDigit_of_mem_ofNat (List.mem_of_mem_drop h)
    · rcases List.mem_append.mp h with h | h
      · rw [List.eq_of_mem_replicate h]
        decide
      · exact Text.isDigit_of_mem_ofNat h

/-- A decimal has as many places after the point as its exponent says. -/
theorem length_fraction (d : Decimal) : d.fraction.length = (-d.exponent).toNat := by
  simp only [fraction]
  split
  · next h => simp [h]
  · split
    · next hlt => rw [List.length_drop]; omega
    · next hge => rw [List.length_append, List.length_replicate]; omega

/-- The digits before and after the point are those of the decimal, but for zeros. -/
theorem toNat_whole_append_fraction (d : Decimal) :
    Text.toNat (d.whole ++ d.fraction) = d.digits * Nat.pow 10 d.exponent.toNat := by
  simp only [whole, fraction]
  split
  · next hplaces =>
    rw [List.append_nil, Text.toNat, Nat.ofDigitChars_append, Nat.ofDigitChars_replicate_zero,
      ← Text.toNat, Text.toNat_ofNat, Nat.mul_comm]
    rfl
  · next hplaces =>
    have hzero : d.exponent.toNat = 0 := by omega
    have hone : d.digits * Nat.pow 10 d.exponent.toNat = d.digits := by
      rw [hzero]
      exact Nat.mul_one _
    rw [hone]
    split
    · rw [List.take_append_drop, Text.toNat_ofNat]
    · have hlead : Nat.ofDigitChars 10 ['0'] 0 = 0 := rfl
      rw [Text.toNat, Nat.ofDigitChars_append, Nat.ofDigitChars_append, hlead,
        Nat.ofDigitChars_replicate_zero, Nat.mul_zero, ← Text.toNat, Text.toNat_ofNat]

theorem pointed_eq (w f : Text) : pointed w f = w ++ if f = [] then [] else '.' :: f := by
  cases f <;> simp [pointed]

theorem pointed_injective {w w' f f' : Text} (hw : ∀ c ∈ w, c.isDigit) (hw' : ∀ c ∈ w', c.isDigit)
    (h : pointed w f = pointed w' f') : w = w' ∧ f = f' := by
  have hhead : ∀ f : Text,
      ∀ c ∈ (if f = [] then [] else '.' :: f : Text).head?, c.isDigit = false := by
    intro f c hc
    split at hc
    · cases hc
    · rw [← Option.some.inj hc]
      decide
  rw [pointed_eq, pointed_eq] at h
  obtain ⟨rfl, hf⟩ := Text.append_inj_of_forall hw hw' (hhead f) (hhead f') h
  refine ⟨rfl, ?_⟩
  by_cases hnil : f = []
  · by_cases hnil' : f' = []
    · rw [hnil, hnil']
    · simp [hnil, hnil'] at hf
  · by_cases hnil' : f' = []
    · simp [hnil, hnil'] at hf
    · simpa [hnil, hnil'] using hf

/-- Decimals that are written alike in plain digits are rounded alike. -/
theorem ofDecimal_eq_of_positional (h : d.positional = d'.positional) (negative : Bool) :
    Binary64.ofDecimal negative d.digits d.exponent =
      Binary64.ofDecimal negative d'.digits d'.exponent := by
  obtain ⟨hwhole, hfraction⟩ := pointed_injective (fun _ => isDigit_of_mem_whole)
    (fun _ => isDigit_of_mem_whole) h
  have hnum : d.digits * Nat.pow 10 d.exponent.toNat = d'.digits * Nat.pow 10 d'.exponent.toNat := by
    rw [← toNat_whole_append_fraction, hwhole, hfraction, toNat_whole_append_fraction]
  have hden : (-d.exponent).toNat = (-d'.exponent).toNat := by
    rw [← length_fraction, hfraction, length_fraction]
  rw [Binary64.ofDecimal, Binary64.ofDecimal, hnum, hden]

/-- Whether a character can be part of a number without a sign. -/
def isNumeralChar (c : Char) : Bool := c.isDigit || c = '.' || c = 'e'

theorem isNumeralChar_of_isDigit {c : Char} (h : c.isDigit) : isNumeralChar c := by
  simp [isNumeralChar, h]

/-- What is written before an exponent is no `e`. -/
theorem isDigit_or_eq_of_mem_pointed {w f : Text} (hw : ∀ c ∈ w, c.isDigit)
    (hf : ∀ c ∈ f, c.isDigit) {c : Char} (h : c ∈ pointed w f) : c.isDigit ∨ c = '.' := by
  rw [pointed_eq, List.mem_append] at h
  rcases h with h | h
  · exact .inl (hw c h)
  · split at h
    · cases h
    · rcases List.mem_cons.mp h with rfl | h
      · exact .inr rfl
      · exact .inl (hf c h)

theorem isDigit_or_eq_of_mem_positional {c : Char} (h : c ∈ d.positional) : c.isDigit ∨ c = '.' :=
  isDigit_or_eq_of_mem_pointed (fun _ => isDigit_of_mem_whole) (fun _ => isDigit_of_mem_fraction) h

theorem head?_pointed {w f : Text} (hw : ∀ c ∈ w, c.isDigit) (hne : w ≠ []) :
    ∃ c ∈ (pointed w f).head?, c.isDigit := by
  obtain ⟨c, w, rfl⟩ := List.exists_cons_of_ne_nil hne
  exact ⟨c, by rw [pointed_eq]; rfl, hw c List.mem_cons_self⟩

/-- Scientific notation tells a decimal. -/
theorem scientific_injective (h : d.scientific = d'.scientific) : d = d' := by
  have hfirst : ∀ d : Decimal, ∀ c ∈ (Text.ofNat d.digits).take 1, c.isDigit :=
    fun d c hc => Text.isDigit_of_mem_ofNat (List.mem_of_mem_take hc)
  have hothers : ∀ d : Decimal, ∀ c ∈ (Text.ofNat d.digits).drop 1, c.isDigit :=
    fun d c hc => Text.isDigit_of_mem_ofNat (List.mem_of_mem_drop hc)
  have hchar : ∀ d : Decimal, ∀ c ∈ pointed ((Text.ofNat d.digits).take 1)
      ((Text.ofNat d.digits).drop 1), (decide (c ≠ 'e')) = true := by
    intro d c hc
    rw [decide_eq_true_eq]
    rintro rfl
    rcases isDigit_or_eq_of_mem_pointed (hfirst d) (hothers d) hc with h | h
    · exact absurd h (by decide)
    · exact absurd h (by decide)
  obtain ⟨hpointed, hexponent⟩ :=
    Text.append_inj_of_forall (hchar d) (hchar d') (by simp) (by simp) h
  obtain ⟨htake, hdrop⟩ := pointed_injective (hfirst d) (hfirst d') hpointed
  have htext : Text.ofNat d.digits = Text.ofNat d'.digits := by
    rw [← List.take_append_drop 1 (Text.ofNat d.digits), htake, hdrop, List.take_append_drop]
  have hlead := Text.ofInt_injective (List.cons.inj hexponent).2
  obtain ⟨digits, exponent⟩ := d
  obtain ⟨digits', exponent'⟩ := d'
  obtain rfl : digits = digits' := Text.ofNat_injective htext
  rw [leadingExponent, leadingExponent] at hlead
  simp only at hlead
  obtain rfl : exponent = exponent' := by omega
  rfl

end Decimal

namespace Binary64

variable {x y : Binary64}

/-- The digits of a finite number, without its sign. -/
def numeral (x : Binary64) : Text :=
  if x.isHuge then (Decimal.shortest .up x).scientific else (Decimal.shortest .up x).positional

theorem text_eq_signText_append (hx : x.isFinite) : x.text = x.signText ++ x.numeral := by
  rw [numeral]
  cases hhuge : x.isHuge with
  | true => rw [text, if_pos hhuge, if_pos rfl]
  | false => rw [text_of_isHuge_eq_false hx hhuge]; rfl

/-- A numeral begins with a digit. -/
theorem head?_numeral (x : Binary64) : ∃ c ∈ x.numeral.head?, c.isDigit := by
  rw [numeral]
  split
  · have hne : Text.ofNat (Decimal.shortest .up x).digits ≠ [] := Nat.toDigits_ne_nil
    obtain ⟨c, hc, hdigit⟩ := @Decimal.head?_pointed
      ((Text.ofNat (Decimal.shortest .up x).digits).take 1)
      ((Text.ofNat (Decimal.shortest .up x).digits).drop 1)
      (fun c hc => Text.isDigit_of_mem_ofNat (List.mem_of_mem_take hc)) (by simpa using hne)
    refine ⟨c, ?_, hdigit⟩
    rw [Decimal.scientific, List.head?_append, hc]
    rfl
  · exact Decimal.head?_pointed (fun _ => Decimal.isDigit_of_mem_whole) (Decimal.whole_ne_nil _)

/-- The numeral of a double and its sign tell the double. -/
theorem numeral_injective (hx : x.isFinite) (hy : y.isFinite) (hsign : x.negative = y.negative)
    (h : x.numeral = y.numeral) : x = y := by
  have hround :
      ofDecimal x.negative (Decimal.shortest .up x).digits (Decimal.shortest .up x).exponent =
        ofDecimal y.negative (Decimal.shortest .up y).digits (Decimal.shortest .up y).exponent := by
    have hexponent : ∀ d d' : Decimal, d.scientific ≠ d'.positional := by
      intro d d' heq
      have hmem : 'e' ∈ d'.positional := by
        rw [← heq, Decimal.scientific]
        simp
      rcases Decimal.isDigit_or_eq_of_mem_positional hmem with h | h
      · exact absurd h (by decide)
      · exact absurd h (by decide)
    rw [numeral, numeral] at h
    rw [hsign]
    split at h
    · split at h
      · rw [Decimal.scientific_injective h]
      · exact absurd h (hexponent _ _)
    · split at h
      · exact absurd h.symm (hexponent _ _)
      · exact Decimal.ofDecimal_eq_of_positional h _
  have hreadx := Decimal.readsBackAs_shortest .up hx
  have hready := Decimal.readsBackAs_shortest .up hy
  rw [Decimal.readsBackAs, beq_iff_eq] at hreadx hready
  rw [← hreadx, hround, hready]

/-- **The text of a finite double tells the double.** -/
theorem text_injective (hx : x.isFinite) (hy : y.isFinite) (h : x.text = y.text) : x = y := by
  have hminus : ∀ (z : Binary64) (s : Text), z.numeral ≠ '-' :: s := by
    intro z s hz
    obtain ⟨c, hc, hdigit⟩ := head?_numeral z
    rw [hz] at hc
    rw [← Option.some.inj hc] at hdigit
    exact absurd hdigit (by decide)
  rw [text_eq_signText_append hx, text_eq_signText_append hy, signText, signText] at h
  cases hnx : x.negative with
  | true =>
    cases hny : y.negative with
    | true =>
      rw [hnx, hny] at h
      exact numeral_injective hx hy (hnx.trans hny.symm) (List.append_cancel_left h)
    | false =>
      rw [hnx, hny] at h
      exact absurd h.symm (hminus y _)
  | false =>
    cases hny : y.negative with
    | true =>
      rw [hnx, hny] at h
      exact absurd h (hminus x _)
    | false =>
      rw [hnx, hny] at h
      exact numeral_injective hx hy (hnx.trans hny.symm) (List.append_cancel_left h)

/-- A decimal with a negative exponent in front is not rounded to a number above one. -/
theorem quanta_le_of_leadingExponent_neg {d : Decimal} (hread : d.readsBackAs x)
    (hneg : d.leadingExponent < 0) : x.quanta ≤ quantaPerUnit := by
  have hlength : d.digits < 10 ^ (Text.ofNat d.digits).length :=
    (Nat.length_toDigits_le_iff (by decide) Nat.length_toDigits_pos).mp (Nat.le_refl _)
  have hpositive : 0 < (Text.ofNat d.digits).length := Nat.length_toDigits_pos
  rw [Decimal.leadingExponent] at hneg
  have hzero : d.exponent.toNat = 0 := by omega
  have hdigits : d.digits ≤ 10 ^ (-d.exponent).toNat :=
    Nat.le_trans (Nat.le_of_lt hlength) (Nat.pow_le_pow_right (by decide) (by omega))
  have hone : (ofInt 1).quanta = quantaPerUnit := by
    rw [quanta_ofInt (isShort_of_lt (by decide)) (by decide)]
    exact Nat.one_mul _
  rw [Decimal.readsBackAs, beq_iff_eq, ofDecimal] at hread
  rw [← hread, ← hone]
  refine quanta_nearest_le_quanta (Nat.pow_pos (by decide)) ?_
  rw [hone, hzero, Nat.mul_comm quantaPerUnit]
  exact Nat.mul_le_mul_right _ (by simpa using hdigits)

/-- The exponent of a number that is `10 ^ 16` or more needs no sign. -/
theorem leadingExponent_nonneg (hhuge : x.isHuge) :
    0 ≤ (Decimal.shortest .up x).leadingExponent := by
  rw [isHuge, Bool.and_eq_true, decide_eq_true_iff] at hhuge
  refine Int.not_lt.mp fun hneg => ?_
  have hsmall := quanta_le_of_leadingExponent_neg (Decimal.readsBackAs_shortest .up hhuge.1) hneg
  have hunit := quantaPerUnit_pos
  omega

theorem isNumeralChar_of_mem_numeral {c : Char} (h : c ∈ x.numeral) : Decimal.isNumeralChar c := by
  have hplain : ∀ {c : Char}, c.isDigit ∨ c = '.' → Decimal.isNumeralChar c := by
    rintro c (hdigit | rfl)
    · exact Decimal.isNumeralChar_of_isDigit hdigit
    · decide
  rw [numeral] at h
  split at h
  · next hhuge =>
    rw [Decimal.scientific, List.mem_append] at h
    rcases h with h | h
    · exact hplain (Decimal.isDigit_or_eq_of_mem_pointed
        (fun c hc => Text.isDigit_of_mem_ofNat (List.mem_of_mem_take hc))
        (fun c hc => Text.isDigit_of_mem_ofNat (List.mem_of_mem_drop hc)) h)
    · rcases List.mem_cons.mp h with rfl | h
      · decide
      · rw [Text.ofInt_of_nonneg (leadingExponent_nonneg hhuge)] at h
        exact Decimal.isNumeralChar_of_isDigit (Text.isDigit_of_mem_ofNat h)
  · exact hplain (Decimal.isDigit_or_eq_of_mem_positional h)

end Binary64

namespace Literal

variable {l l' : Literal}

/-- The digits of a literal, without its sign. -/
def numeral : Literal → Text
  | int n => Text.ofNat n.toInt.natAbs
  | real x => x.numeral

theorem text_eq_append (h : l.IsFinite) :
    l.text = (if l.isNegative then ['-'] else []) ++ l.numeral := by
  cases l with
  | int n =>
    have hsign : (Literal.int n).isNegative = decide (n.toInt < 0) := by
      rw [isNegative]
      exact decide_eq_decide.mpr Int64.lt_iff_toInt_lt
    rw [hsign, text, Text.ofInt, numeral]
    by_cases hneg : n.toInt < 0
    · simp [hneg]
    · simp [hneg]
  | real x => exact Binary64.text_eq_signText_append h

theorem isNumeralChar_of_mem_numeral {c : Char} (h : c ∈ l.numeral) : Decimal.isNumeralChar c := by
  cases l with
  | int n => exact Decimal.isNumeralChar_of_isDigit (Text.isDigit_of_mem_ofNat h)
  | real x => exact Binary64.isNumeralChar_of_mem_numeral h

theorem numeral_ne_nil (l : Literal) : l.numeral ≠ [] := by
  cases l with
  | int n => exact Nat.toDigits_ne_nil
  | real x =>
    obtain ⟨c, hc, -⟩ := x.head?_numeral
    intro hnil
    rw [numeral] at hnil
    rw [hnil] at hc
    cases hc

/-- **The text of a literal that reducing leaves tells the literal**, its sort included: a double
that is written like an integer is that integer, and is below the bound from which on integers are
doubles. -/
theorem eq_of_text_eq (hl : l.IsReduced) (hl' : l'.IsReduced) (h : l.text = l'.text) : l = l' := by
  have hsorts : ∀ {n : Int64} {x : Binary64}, (int n).IsReduced → (real x).IsReduced →
      (int n).text ≠ (real x).text := by
    intro n x hn hx heq
    rw [IsReduced] at hn
    have hshort : Binary64.IsShort n.toInt.natAbs := Binary64.isShort_of_lt (by
      simp only [Nat.reduceShiftLeft]
      omega)
    have hbound : n.toInt.natAbs ≤ 1 <<< 1023 := Nat.le_trans (Nat.le_of_lt hn) (by decide)
    have hdouble : Binary64.ofInt n.toInt = x := by
      refine Binary64.text_injective (Binary64.isFinite_ofInt hbound) hx.1 ?_
      rw [Binary64.text_ofInt hshort (by omega)]
      exact heq
    have hlarge := hx.2 n.toInt (hdouble ▸ Binary64.toInt?_ofInt hshort hbound)
    omega
  cases l with
  | int n =>
    cases l' with
    | int n' => rw [Int64.toInt_inj.mp (Text.ofInt_injective h)]
    | real x => exact absurd h (hsorts hl hl')
  | real x =>
    cases l' with
    | int n => exact absurd h.symm (hsorts hl' hl)
    | real y => rw [Binary64.text_injective hl.1 hl'.1 h]

/-- Literals of one sign are told by their numerals. -/
theorem eq_of_numeral_eq (hl : l.IsReduced) (hl' : l'.IsReduced)
    (hsign : l.isNegative = l'.isNegative) (h : l.numeral = l'.numeral) : l = l' := by
  refine eq_of_text_eq hl hl' ?_
  rw [text_eq_append hl.isFinite, text_eq_append hl'.isFinite, hsign, h]

end Literal

end Abacus
