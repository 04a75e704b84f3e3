import Abacus.Proofs.Failure
import Abacus.Proofs.Finite
import Abacus.Proofs.Slices

/-!
# Integers are exact

The sort of a value is decided by the whole expression it comes from. Without powers, the value is a
double if there is a quotient or a double anywhere in the expression, and otherwise it has 64 bits if
there is a literal of more than 32 anywhere, however small the value itself. An integer value is the
exact value of the expression (`Expr.exactValue?`), computed with integers of any size.

So an integer is never wrong, but it may be missing. Sums, differences and products of integers
overflow exactly if the exact result of one of them does not fit into the width of its operands
(`Expr.evaluate_exact`).

The proof carries along what is known of a value: whether something made it a double, whether
something made it wide, and which exact value it has (`Value.Matches`).
-/

namespace Abacus

/-- The exact sum, difference or product of two integers. -/
def Operator.exactResult? : Operator → Int → Int → Option Int
  | add, m, n => some (m + n)
  | sub, m, n => some (m - n)
  | mul, m, n => some (m * n)
  | div, _, _ => none
  | pow, _, _ => none

namespace Value

/-- An integer has the width of two values: 32 bits if both have 32 bits, and 64 bits if not. -/
def FitsWidth (a b : Value) (r : Int) : Prop :=
  match a, b with
  | int32 _, int32 _ => -2147483648 ≤ r ∧ r ≤ 2147483647
  | _, _ => -9223372036854775808 ≤ r ∧ r ≤ 9223372036854775807

/-- The value is a double if something made it one. If not, it is wide if something made it wide,
and is the exact integer. -/
def Matches (isReal isWide : Prop) (exact : Option Int) : Value → Prop
  | int32 n => ¬ isReal ∧ ¬ isWide ∧ exact = some n.toInt
  | int64 n => ¬ isReal ∧ isWide ∧ exact = some n.toInt
  | real _ => isReal

section

variable {pow : Binary64 → Binary64 → Binary64} {op : Operator} {a b v : Value}
  {isReal isReal' isWide isWide' : Prop} {exact exact' : Option Int}

/-! ### Joining integers -/

theorem exactResult?_eq_intResult (hdiv : op ≠ .div) (hpow : op ≠ .pow) (m n : Int) :
    op.exactResult? m n = some (intResult op m n) := by
  cases op with
  | add | sub | mul => rfl
  | div => exact absurd rfl hdiv
  | pow => exact absurd rfl hpow

theorem apply_eq_combine (hdiv : op ≠ .div) (hpow : op ≠ .pow) :
    apply pow op a b = combine op a b := by
  cases op with
  | add | sub | mul => rfl
  | div => exact absurd rfl hdiv
  | pow => exact absurd rfl hpow

theorem combine_eq_error_iff {m n : Int} {fault : ArithmeticFault} (ha : a.toInt? = some m)
    (hb : b.toInt? = some n) :
    combine op a b = .error fault ↔
      fault = .overflow ∧ ¬ FitsWidth a b (intResult op m n) := by
  cases a with
  | int32 a =>
    cases b with
    | int32 b =>
      obtain rfl := Option.some.inj ha
      obtain rfl := Option.some.inj hb
      exact checked32_eq_error_iff
    | int64 b =>
      obtain rfl := Option.some.inj ha
      obtain rfl := Option.some.inj hb
      exact checked64_eq_error_iff
    | real => cases hb
  | int64 a =>
    obtain rfl := Option.some.inj ha
    cases b with
    | int32 b | int64 b =>
      obtain rfl := Option.some.inj hb
      exact checked64_eq_error_iff
    | real => cases hb
  | real => cases ha

/-! ### What is known of a value -/

theorem matches_of_checked32 {r : Int} (h : checked32 r = .ok v) (hreal : ¬ isReal)
    (hwide : ¬ isWide) : v.Matches isReal isWide (some r) := by
  obtain ⟨⟨hle, hlt⟩, rfl⟩ := checked32_eq_ok_iff.mp h
  refine ⟨hreal, hwide, ?_⟩
  rw [Int32.toInt_ofInt_of_le (by omega) (by omega)]

theorem matches_of_checked64 {r : Int} (h : checked64 r = .ok v) (hreal : ¬ isReal)
    (hwide : isWide) : v.Matches isReal isWide (some r) := by
  obtain ⟨⟨hle, hlt⟩, rfl⟩ := checked64_eq_ok_iff.mp h
  refine ⟨hreal, hwide, ?_⟩
  rw [Int64.toInt_ofInt_of_le (by omega) (by omega)]

theorem matches_of_finite {x : Binary64} (h : finite x = .ok v) (hreal : isReal) :
    v.Matches isReal isWide exact := by
  obtain ⟨-, rfl⟩ := finite_eq_ok_iff.mp h
  exact hreal

theorem Matches.combine (ha : a.Matches isReal isWide exact) (hb : b.Matches isReal' isWide' exact')
    (hdiv : op ≠ .div) (hpow : op ≠ .pow) (h : Value.combine op a b = .ok v) :
    v.Matches (isReal ∨ isReal') (isWide ∨ isWide')
      (exact.bind fun m => exact'.bind fun n => op.exactResult? m n) := by
  cases a with
  | int32 a =>
    obtain ⟨hreal, hwide, rfl⟩ := ha
    cases b with
    | int32 b =>
      obtain ⟨hreal', hwide', rfl⟩ := hb
      rw [Option.bind_some, Option.bind_some, exactResult?_eq_intResult hdiv hpow]
      exact matches_of_checked32 h (not_or.mpr ⟨hreal, hreal'⟩) (not_or.mpr ⟨hwide, hwide'⟩)
    | int64 b =>
      obtain ⟨hreal', hwide', rfl⟩ := hb
      rw [Option.bind_some, Option.bind_some, exactResult?_eq_intResult hdiv hpow]
      exact matches_of_checked64 h (not_or.mpr ⟨hreal, hreal'⟩) (.inr hwide')
    | real => exact matches_of_finite h (.inr hb)
  | int64 a =>
    obtain ⟨hreal, hwide, rfl⟩ := ha
    cases b with
    | int32 b | int64 b =>
      obtain ⟨hreal', -, rfl⟩ := hb
      rw [Option.bind_some, Option.bind_some, exactResult?_eq_intResult hdiv hpow]
      exact matches_of_checked64 h (not_or.mpr ⟨hreal, hreal'⟩) (.inl hwide)
    | real => exact matches_of_finite h (.inr hb)
  | real => exact matches_of_finite h (.inl ha)

/-- **One operation**: what is known of its operands says what is known of its result. -/
theorem Matches.apply (ha : a.Matches isReal isWide exact) (hb : b.Matches isReal' isWide' exact')
    (hpow : op ≠ .pow) (h : Value.apply pow op a b = .ok v) :
    v.Matches (isReal ∨ op = .div ∨ isReal') (isWide ∨ isWide')
      (exact.bind fun m => exact'.bind fun n => op.exactResult? m n) := by
  by_cases hdiv : op = .div
  · subst hdiv
    replace h : divide a.toReal b.toReal = .ok v := h
    unfold divide at h
    split at h
    · cases h
    · exact matches_of_finite h (.inr (.inl rfl))
  · rw [apply_eq_combine hdiv hpow] at h
    rw [or_iff_right hdiv]
    exact ha.combine hb hdiv hpow h

theorem Matches.sort_and_exact (h : v.Matches isReal isWide exact) :
    ((∃ x, v = real x) ↔ isReal) ∧ ((∃ n, v = int64 n) ↔ ¬ isReal ∧ isWide) ∧
      ((∃ n, v = int32 n) ↔ ¬ isReal ∧ ¬ isWide) ∧ ∀ n, v.toInt? = some n → exact = some n := by
  cases v with
  | int32 n =>
    obtain ⟨hreal, hwide, rfl⟩ := h
    simp [hreal, hwide, toInt?]
  | int64 n =>
    obtain ⟨hreal, hwide, rfl⟩ := h
    simp [hreal, hwide, toInt?]
  | real x =>
    have hreal : isReal := h
    simp [hreal, toInt?]

theorem Matches.exists_toInt? (h : v.Matches isReal isWide exact) (hreal : ¬ isReal) :
    ∃ n, v.toInt? = some n ∧ exact = some n := by
  cases v with
  | int32 n | int64 n => exact ⟨n.toInt, rfl, h.2.2⟩
  | real => exact absurd h hreal

end

end Value

namespace Expr

variable {pow : Binary64 → Binary64 → Binary64}

/-! ### The exact value -/

mutual

/-- The exact value of an expression of sums, differences and products of integers. -/
def exactValue? : Expr → Option Int
  | literal (.int n) _ => some n.toInt
  | literal (.real _) _ => none
  | chain first links _ => first.exactValue?.bind fun m => linksExactValue? m links

/-- The exact value of links after an integer. -/
def linksExactValue? (acc : Int) : List Link → Option Int
  | [] => some acc
  | ⟨op, operand⟩ :: rest =>
    operand.exactValue?.bind fun n => (op.exactResult? acc n).bind fun r => linksExactValue? r rest

end

/-- There is a quotient, or a literal that is a double. -/
def HasReal (e : Expr) : Prop := e.count .div ≠ 0 ∨ ∃ x, Literal.real x ∈ e.literals

/-- There is an integer literal of more than 32 bits. -/
def HasWide (e : Expr) : Prop :=
  ∃ n, Literal.int n ∈ e.literals ∧ ¬ (-2147483648 ≤ n.toInt ∧ n.toInt ≤ 2147483647)

theorem hasReal_chain_iff {first : Expr} {links : List Link} {span : Span} :
    (chain first links span).HasReal ↔
      first.HasReal ∨ ∃ link ∈ links, link.operator = .div ∨ link.operand.HasReal := by
  unfold HasReal
  rw [Ne, count_chain_eq_zero_iff]
  simp only [mem_literals_chain_iff]
  grind

theorem hasWide_chain_iff {first : Expr} {links : List Link} {span : Span} :
    (chain first links span).HasWide ↔
      first.HasWide ∨ ∃ link ∈ links, link.operand.HasWide := by
  unfold HasWide
  simp only [mem_literals_chain_iff]
  grind

/-- What is known of the value of an expression without powers. -/
def Describes (e : Expr) (v : Value) : Prop := v.Matches e.HasReal e.HasWide e.exactValue?

theorem describes_ofLiteral (value : Literal) (span : Span) :
    (literal value span).Describes (.ofLiteral value) := by
  cases value with
  | int n =>
    have hreal : ¬ (literal (.int n) span).HasReal := by
      simp [HasReal, count, literals]
    have hwide : (literal (.int n) span).HasWide ↔ ¬ Value.fits32 n.toInt := by
      simp only [HasWide, literals, List.mem_singleton, Literal.int.injEq, exists_eq_left,
        Value.fits32, Bool.and_eq_true, decide_eq_true_eq]
      omega
    rw [Value.ofLiteral, Value.ofInt64]
    split
    · next hfits =>
      refine ⟨hreal, fun h => hwide.mp h hfits, ?_⟩
      simp only [Value.fits32, Bool.and_eq_true, decide_eq_true_eq] at hfits
      rw [exactValue?, Int32.toInt_ofInt_of_le (by omega) (by omega)]
    · next hfits => exact ⟨hreal, hwide.mpr hfits, rfl⟩
  | real x => exact .inr ⟨x, List.mem_singleton.mpr rfl⟩

theorem resume_of_ne_pow {op : Operator} (h : op ≠ .pow) (v : Value) : resume op v = v := by
  cases op with
  | pow => exact absurd rfl h
  | add | sub | mul | div => rfl

/-- What is known of a value after links. -/
theorem matches_of_linksValue? {links : List Link} (hops : ∀ link ∈ links, link.operator ≠ .pow)
    (hl : ∀ link ∈ links, ∀ b, link.operand.value? pow = some b → link.operand.Describes b)
    {isReal isWide : Prop} {exact : Option Int} {acc v : Value}
    (hacc : acc.Matches isReal isWide exact) (h : linksValue? pow acc links = some v) :
    v.Matches (isReal ∨ ∃ link ∈ links, link.operator = .div ∨ link.operand.HasReal)
      (isWide ∨ ∃ link ∈ links, link.operand.HasWide)
      (exact.bind fun m => linksExactValue? m links) := by
  induction links generalizing acc isReal isWide exact with
  | nil =>
    obtain rfl := Option.some.inj h
    simpa [linksExactValue?] using hacc
  | cons link rest ih =>
    obtain ⟨op, operand⟩ := link
    rw [List.forall_mem_cons] at hops hl
    rw [linksValue?, Option.bind_eq_some_iff] at h
    obtain ⟨right, hright, h⟩ := h
    rw [Option.bind_eq_some_iff] at h
    obtain ⟨result, happly, h⟩ := h
    rw [Except.toOption_eq_some_iff] at happly
    rw [resume_of_ne_pow hops.1] at h
    have hstep := ih hops.2 hl.2 (hacc.apply (hl.1 right hright) hops.1 happly) h
    simpa only [List.exists_mem_cons_iff, linksExactValue?, Option.bind_assoc, or_assoc] using hstep

/-- **What is known of a value**: the sort is decided by the literals and the quotients, and an
integer is the exact value. -/
theorem describes_of_evaluate {e : Expr} (hc : e.count .pow = 0) {v : Value}
    (h : e.value? pow = some v) : e.Describes v := by
  induction e using Expr.induction generalizing v with
  | literal value span =>
    rw [value?_literal] at h
    obtain rfl := Option.some.inj h
    exact describes_ofLiteral value span
  | chain first links span ihf ihl =>
    rw [count_chain_eq_zero_iff] at hc
    rw [value?_chain, Option.bind_eq_some_iff] at h
    obtain ⟨start, hstart, h⟩ := h
    rw [Describes, hasReal_chain_iff, hasWide_chain_iff, exactValue?]
    exact matches_of_linksValue? (fun link hm => (hc.2 link hm).1)
      (fun link hm b hb => ihl link hm (hc.2 link hm).2 hb) (ihf hc.1 hstart) h

/-! ### Integers that do not fit -/

/-- Only integers occur, and only sums, differences and products of them. -/
def IsInteger (e : Expr) : Prop := e.count .pow = 0 ∧ ¬ e.HasReal

theorem isInteger_chain_iff {first : Expr} {links : List Link} {span : Span} :
    (chain first links span).IsInteger ↔ first.IsInteger ∧
      ∀ link ∈ links, link.operator ≠ .pow ∧ link.operator ≠ .div ∧ link.operand.IsInteger := by
  unfold IsInteger
  rw [count_chain_eq_zero_iff, hasReal_chain_iff]
  grind

theorem IsInteger.take {first : Expr} {links : List Link} {span : Span}
    (h : (chain first links span).IsInteger) (n : Nat) :
    (chain first (links.take n) span).IsInteger := by
  rw [isInteger_chain_iff] at h ⊢
  exact ⟨h.1, fun link hm => h.2 link (List.mem_of_mem_take hm)⟩

theorem IsInteger.of_isNodeOf {n e : Expr} (h : e.IsInteger) (hn : n.IsNodeOf e) :
    n.IsInteger := by
  induction hn with
  | self => exact h
  | first _ ih => exact ih (isInteger_chain_iff.mp h).1
  | operand hm _ ih => exact ih ((isInteger_chain_iff.mp h).2 _ hm).2.2

/-- The value of integers is the exact integer. -/
theorem IsInteger.exists_toInt? {e : Expr} (h : e.IsInteger) {v : Value}
    (hv : e.value? pow = some v) : ∃ n, v.toInt? = some n ∧ e.exactValue? = some n :=
  (describes_of_evaluate h.1 hv).exists_toInt? h.2

/-- At link `index` of a chain, the operation on the chain before the link and on the operand of the
link does not fit: both have values, and the exact result does not have the width of the two. -/
def OverflowsAt (pow : Binary64 → Binary64 → Binary64) (first : Expr) (links : List Link)
    (span : Span) (index : Nat) : Prop :=
  ∃ link a b m n r, links[index]? = some link ∧
    (chain first (links.take index) span).evaluate pow = .ok a ∧
    link.operand.evaluate pow = .ok b ∧
    (chain first (links.take index) span).exactValue? = some m ∧ link.operand.exactValue? = some n ∧
    link.operator.exactResult? m n = some r ∧ ¬ a.FitsWidth b r

/-- An operation on integers has no value if and only if the exact result does not fit. -/
theorem IsInteger.apply_eq_error_iff {left right : Expr} (hl : left.IsInteger)
    (hr : right.IsInteger) {a b : Value} (ha : left.value? pow = some a)
    (hb : right.value? pow = some b) {op : Operator} (hpow : op ≠ .pow) (hdiv : op ≠ .div)
    {fault : ArithmeticFault} :
    Value.apply pow op a b = .error fault ↔ fault = .overflow ∧
      ∃ m n r, left.exactValue? = some m ∧ right.exactValue? = some n ∧ op.exactResult? m n = some r ∧
        ¬ a.FitsWidth b r := by
  obtain ⟨m, ham, hm⟩ := hl.exists_toInt? ha
  obtain ⟨n, hbn, hn⟩ := hr.exists_toInt? hb
  rw [Value.apply_eq_combine hdiv hpow, Value.combine_eq_error_iff ham hbn, hm, hn]
  refine and_congr_right fun _ => ⟨fun h => ?_, ?_⟩
  · exact ⟨m, n, _, rfl, rfl, Value.exactResult?_eq_intResult hdiv hpow m n, h⟩
  · rintro ⟨m', n', r, hm', hn', hexact, h⟩
    obtain rfl := Option.some.inj hm'
    obtain rfl := Option.some.inj hn'
    rw [Value.exactResult?_eq_intResult hdiv hpow] at hexact
    obtain rfl := Option.some.inj hexact
    exact h

/-- If integers have no value, then one operation does not fit, and that is an overflow. -/
theorem IsInteger.exists_overflowsAt {e : Expr} (h : e.IsInteger) {err : EvalError}
    (he : e.evaluate pow = .error err) :
    (∃ expression span, err = .overflow expression span) ∧
      ∃ first links span index, (chain first links span).IsNodeOf e ∧
        OverflowsAt pow first links span index := by
  induction e using Expr.induction with
  | literal => cases he
  | chain first links span ihf ihl =>
    have hparts := isInteger_chain_iff.mp h
    rw [evaluate, Except.bind_eq_error_iff] at he
    rcases he with he | ⟨start, hstart, he⟩
    · obtain ⟨hoverflow, f, l, s, i, hnode, hat⟩ := ihf hparts.1 he
      exact ⟨hoverflow, f, l, s, i, .first hnode, hat⟩
    · rcases evaluateLinks_eq_error he with ⟨link, hm, he⟩ |
        ⟨i, hi, fault, herr, -, a, b, ha, hb, hfault⟩
      · obtain ⟨hoverflow, f, l, s, i, hnode, hat⟩ := ihl link hm (hparts.2 link hm).2.2 he
        exact ⟨hoverflow, f, l, s, i, .operand hm hnode, hat⟩
      · obtain ⟨hpow, hdiv, hoperand⟩ := hparts.2 _ (List.getElem_mem hi)
        have hprefix : (chain first (links.take i) span).value? pow = some a := by
          rw [value?_chain, value?_eq_some_iff.mpr hstart, Option.bind_some, ha]
        obtain ⟨rfl, m, n, r, hm, hn, hr, hfits⟩ := (IsInteger.apply_eq_error_iff (h.take i) hoperand
          hprefix (value?_eq_some_iff.mpr hb) hpow hdiv).mp hfault
        refine ⟨⟨_, _, herr⟩, first, links, span, i, .self, _, a, b, m, n, r,
          List.getElem?_eq_getElem hi, value?_eq_some_iff.mp hprefix, hb, hm, hn, hr, hfits⟩

/-- An expression has no value if one of its nodes has none. -/
theorem IsNodeOf.value?_eq_none {n e : Expr} (h : n.IsNodeOf e) (hn : n.value? pow = none) :
    e.value? pow = none := by
  induction h with
  | self => exact hn
  | first _ ih => rw [value?_chain, ih, Option.bind_none]
  | operand hm _ ih =>
    obtain ⟨before, behind, rfl⟩ := List.append_of_mem hm
    simp [value?_chain, linksValue?_append, linksValue?, ih]

/-- If one operation on integers does not fit, the chain has no value. -/
theorem IsInteger.value?_of_overflowsAt {first : Expr} {links : List Link} {span : Span}
    {index : Nat} (h : (chain first links span).IsInteger)
    (hat : OverflowsAt pow first links span index) : (chain first links span).value? pow = none := by
  obtain ⟨link, a, b, m, n, r, hlink, ha, hb, hm, hn, hr, hfits⟩ := hat
  obtain ⟨hpow, hdiv, hoperand⟩ := (isInteger_chain_iff.mp h).2 link (List.mem_of_getElem? hlink)
  rw [← value?_eq_some_iff] at ha hb
  have hfault : Value.apply pow link.operator a b = .error .overflow :=
    (IsInteger.apply_eq_error_iff (h.take index) hoperand ha hb hpow hdiv).mpr
      ⟨rfl, m, n, r, hm, hn, hr, hfits⟩
  have hsplit : links = links.take index ++ link :: links.drop (index + 1) := by
    obtain ⟨hi, rfl⟩ := List.getElem?_eq_some_iff.mp hlink
    rw [← List.drop_eq_getElem_cons hi, List.take_append_drop]
  rw [value?_chain, Option.bind_eq_some_iff] at ha
  obtain ⟨start, hstart, ha⟩ := ha
  rw [value?_chain, hstart, Option.bind_some, hsplit, linksValue?_append, ha, Option.bind_some,
    linksValue?, hb, Option.bind_some, hfault]
  rfl

/-- **Integers are exact.** If an expression without powers has a value, then it is a double exactly
if there is a quotient or a double in the expression; otherwise it has 64 bits exactly if there is an
integer of more than 32 in the expression, and it is the exact integer. Sums, differences and products
of integers have no value if and only if one of the operations does not fit into the width of its
operands, and the error is an overflow. -/
theorem evaluate_exact (pow : Binary64 → Binary64 → Binary64) (e : Expr) (hc : e.count .pow = 0) :
    (∀ v, e.evaluate pow = .ok v →
      ((∃ x, v = .real x) ↔ e.HasReal) ∧
      ((∃ n, v = .int64 n) ↔ ¬ e.HasReal ∧ e.HasWide) ∧
      ((∃ n, v = .int32 n) ↔ ¬ e.HasReal ∧ ¬ e.HasWide) ∧
      ∀ n, v.toInt? = some n → e.exactValue? = some n) ∧
    (¬ e.HasReal →
      ((∃ err, e.evaluate pow = .error err) ↔
        ∃ first links span index, (chain first links span).IsNodeOf e ∧
          OverflowsAt pow first links span index) ∧
      ∀ err, e.evaluate pow = .error err → ∃ expression span, err = .overflow expression span) := by
  constructor
  · intro v hv
    exact (describes_of_evaluate hc (value?_eq_some_iff.mpr hv)).sort_and_exact
  · intro hreal
    have hinteger : e.IsInteger := ⟨hc, hreal⟩
    refine ⟨⟨?_, ?_⟩, fun err he => (hinteger.exists_overflowsAt he).1⟩
    · rintro ⟨err, he⟩
      exact (hinteger.exists_overflowsAt he).2
    · rintro ⟨first, links, span, index, hnode, hat⟩
      have hnone := hnode.value?_eq_none ((hinteger.of_isNodeOf hnode).value?_of_overflowsAt hat)
      rw [value?, Except.toOption_eq_none_iff] at hnone
      exact hnone

/-- `4294967296-4294967295` is 1, with 64 bits; `2147483647+1` does not fit into 32. -/
theorem evaluate_exact_of_difference_and_sum :
    (∃ e : Expr, e = .chain (.literal (.int 4294967296) ⟨0, 10⟩)
        [⟨.sub, .literal (.int 4294967295) ⟨11, 21⟩⟩] ⟨0, 21⟩ ∧
      e.count .pow = 0 ∧ e.evaluate (fun x _ => x) = .ok (.int64 1) ∧
      e.HasWide ∧ e.exactValue? = some 1) ∧
    ∃ e : Expr, e = .chain (.literal (.int 2147483647) ⟨0, 10⟩)
        [⟨.add, .literal (.int 1) ⟨11, 12⟩⟩] ⟨0, 12⟩ ∧
      e.count .pow = 0 ∧ ¬ e.HasReal ∧
      e.evaluate (fun x _ => x) = .error (.overflow "2147483647+1".toList ⟨0, 12⟩) ∧
      ∃ first links span index, (chain first links span).IsNodeOf e ∧
        OverflowsAt (fun x _ => x) first links span index := by
  constructor
  · have hvalue : (Expr.chain (.literal (.int 4294967296) ⟨0, 10⟩)
        [⟨.sub, .literal (.int 4294967295) ⟨11, 21⟩⟩] ⟨0, 21⟩).evaluate (fun x _ => x) =
          .ok (.int64 1) := rfl
    obtain ⟨-, hwide, -, hexact⟩ := (evaluate_exact (fun x _ => x) _ rfl).1 _ hvalue
    exact ⟨_, rfl, rfl, hvalue, (hwide.mp ⟨1, rfl⟩).2, hexact 1 rfl⟩
  · have hreal : ¬ (Expr.chain (.literal (.int 2147483647) ⟨0, 10⟩)
        [⟨.add, .literal (.int 1) ⟨11, 12⟩⟩] ⟨0, 12⟩).HasReal := by
      simp [HasReal, count, countLinks, literals, linkLiterals]
    have herror : (Expr.chain (.literal (.int 2147483647) ⟨0, 10⟩)
        [⟨.add, .literal (.int 1) ⟨11, 12⟩⟩] ⟨0, 12⟩).evaluate (fun x _ => x) =
          .error (.overflow "2147483647+1".toList ⟨0, 12⟩) := rfl
    exact ⟨_, rfl, rfl, hreal, herror,
      ((evaluate_exact (fun x _ => x) _ rfl).2 hreal).1.mp ⟨_, herror⟩⟩

end Expr

end Abacus
