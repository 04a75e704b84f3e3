import Abacus.Proofs.Blame
import Abacus.Proofs.Finite
import Abacus.Proofs.RoundTrip

/-!
# Finite results and powers without a value

The literals of a reduced text and the value of a text are finite
(`Calculator.results_are_finite`): the numbers in a text are small, and every operation on them
gives a finite value.

An operation other than a power is never undefined (`Value.apply_ne_undefined`), so the evaluation
of a reduced text is not: it has no powers. What is undefined is a power that is computed while
powers are reduced (`IsRegular.failsAtPower_of_reduceNode`). Its base and its exponent are values,
hence finite. So if `pow` has a value for all finite numbers but negative ones to powers that are no
integers, then the base is a negative number, and the exponent no integer.
-/

namespace Abacus

/-- A negative number, and a number that is no integer, both finite. -/
def Binary64.IsNegativeToFraction (base exponent : Binary64) : Prop :=
  base.isFinite ∧ base.signedQuanta < 0 ∧ exponent.isFinite ∧ exponent.toInt? = none

namespace Value

variable {pow : Binary64 → Binary64 → Binary64} {op : Operator} {a b : Value} {x y : Binary64}

/-! ### Operations that are not undefined -/

theorem finite_ne_undefined : finite x ≠ .error .undefined := by
  intro h
  cases (finite_eq_error_iff.mp h).1

theorem checked32_ne_undefined {n : Int} : checked32 n ≠ .error .undefined := by
  intro h
  cases (checked32_eq_error_iff.mp h).1

theorem checked64_ne_undefined {n : Int} : checked64 n ≠ .error .undefined := by
  intro h
  cases (checked64_eq_error_iff.mp h).1

theorem combine_ne_undefined : combine op a b ≠ .error .undefined := by
  unfold combine
  split
  · exact checked32_ne_undefined
  · split
    · exact checked64_ne_undefined
    · exact finite_ne_undefined

theorem divide_ne_undefined : divide x y ≠ .error .undefined := by
  unfold divide
  split
  · rintro ⟨⟩
  · exact finite_ne_undefined

/-- **Only powers are undefined.** -/
theorem apply_ne_undefined (h : op ≠ .pow) : apply pow op a b ≠ .error .undefined := by
  cases op with
  | add | sub | mul => exact combine_ne_undefined
  | div => exact divide_ne_undefined
  | pow => exact absurd rfl h

/-- A power is undefined only if `pow` has no value for it. -/
theorem isNaN_of_power_eq_undefined (h : power pow x y = .error .undefined) :
    (pow x y).isNaN := by
  unfold power at h
  split at h
  · cases h
  · split at h
    · next hnan => exact hnan
    · exact absurd h finite_ne_undefined

end Value

theorem EvalError.eq_undefined_of_ofFault {fault : ArithmeticFault} {expression expression' : Text}
    {span span' : Span} (h : undefined expression span = ofFault fault expression' span') :
    fault = .undefined ∧ expression' = expression ∧ span' = span := by
  cases fault with
  | overflow => cases h
  | undefined =>
    obtain ⟨rfl, rfl⟩ := EvalError.undefined.inj h
    exact ⟨rfl, rfl, rfl⟩

namespace Expr

variable {pow : Binary64 → Binary64 → Binary64} {expression : Text} {span : Span}

/-! ### Without powers -/

/-- An expression without powers may overflow, but is not undefined. -/
theorem evaluate_ne_undefined {e : Expr} (hc : e.count .pow = 0) :
    e.evaluate pow ≠ .error (.undefined expression span) := by
  induction e using Expr.induction with
  | literal => rintro ⟨⟩
  | chain first links whole ihf ihl =>
    rw [count_chain_eq_zero_iff] at hc
    intro h
    rw [evaluate, Except.bind_eq_error_iff] at h
    rcases h with h | ⟨start, -, h⟩
    · exact ihf hc.1 h
    · rcases evaluateLinks_eq_error h with ⟨link, hm, hlink⟩ |
        ⟨i, hi, fault, herr, -, a, b, -, -, happly⟩
      · exact ihl link hm (hc.2 link hm).2 hlink
      · obtain ⟨rfl, -⟩ := EvalError.eq_undefined_of_ofFault herr
        exact Value.apply_ne_undefined (hc.2 _ (List.getElem_mem hi)).1 happly

/-! ### The power that is undefined -/

/-- A power in `e` is undefined. It stands at a link of a chain in `e`, and is that of two reduced
expressions: `left`, for the chain before the link, and `right`, for the operand of the link. Their
values are `base` and `exponent`, the power of the two is blamed as `expression`, and `span` is the
part of the chain up to the link. -/
def FailsAtPower (pow : Binary64 → Binary64 → Binary64) (e : Expr) (expression : Text) (span : Span)
    (base exponent : Binary64) : Prop :=
  ∃ first links whole index link left right,
    (chain first links whole).IsNodeOf e ∧ links[index]? = some link ∧ link.operator = .pow ∧
    ((chain first (links.take index) whole).reduceNode pow).outcome = .ok left ∧
    (link.operand.reduceNode pow).outcome = .ok right ∧
    PowerFault pow left right base exponent .undefined expression ∧
    span = blamedSpan first links whole index

variable {base exponent : Binary64}

theorem FailsAtPower.power_eq {e : Expr} (h : FailsAtPower pow e expression span base exponent) :
    Value.power pow base exponent = .error .undefined := by
  obtain ⟨first, links, whole, index, link, left, right, -, -, -, -, -, hfault, -⟩ := h
  exact hfault.power_eq

theorem FailsAtPower.first {first : Expr} {links : List Link} {whole : Span}
    (h : FailsAtPower pow first expression span base exponent) :
    FailsAtPower pow (.chain first links whole) expression span base exponent := by
  obtain ⟨f, l, w, i, link, left, right, hnode, hlink⟩ := h
  exact ⟨f, l, w, i, link, left, right, .first hnode, hlink⟩

theorem FailsAtPower.operand {first : Expr} {links : List Link} {whole : Span} {link : Link}
    (hm : link ∈ links) (h : FailsAtPower pow link.operand expression span base exponent) :
    FailsAtPower pow (.chain first links whole) expression span base exponent := by
  obtain ⟨f, l, w, i, link, left, right, hnode, hlink⟩ := h
  exact ⟨f, l, w, i, link, left, right, .operand hm hnode, hlink⟩

theorem IsNodeOf.forall_mem_literals {n e : Expr} {p : Literal → Prop} (h : n.IsNodeOf e)
    (hl : ∀ l ∈ e.literals, p l) : ∀ l ∈ n.literals, p l := by
  induction h with
  | self => exact hl
  | first _ ih => exact ih (forall_mem_literals_chain_iff.mp hl).1
  | operand hm _ ih => exact ih ((forall_mem_literals_chain_iff.mp hl).2 _ hm)

/-- Each link is reduced to the one in its place. -/
theorem exists_getElem?_of_reduceLinks {links reduced : List Link}
    (h : (reduceLinks pow links).outcome = .ok reduced) {i : Nat} {link' : Link}
    (hi : reduced[i]? = some link') :
    ∃ link, links[i]? = some link ∧ link'.operator = link.operator ∧
      (link.operand.reduceNode pow).outcome = .ok link'.operand := by
  induction links generalizing reduced i with
  | nil =>
    obtain rfl := Except.ok.inj h
    cases hi
  | cons link rest ih =>
    obtain ⟨op, operand⟩ := link
    rw [outcome_reduceLinks_cons_eq_ok_iff] at h
    obtain ⟨operand', rest', ho, hr, rfl⟩ := h
    cases i with
    | zero =>
      obtain rfl := Option.some.inj hi
      exact ⟨_, rfl, rfl, ho⟩
    | succ i => exact ih hr hi

/-- What a chain of powers is folded to up to a link is what it is reduced to if it is cut there. If
nothing is left of the links, that is the first operand, but for its span. -/
theorem exists_reduceNode_take {first first' left : Expr} {links links' : List Link} {whole : Span}
    (hf : (first.reduceNode pow).outcome = .ok first')
    (hl : (reduceLinks pow links).outcome = .ok links')
    (hpow : links'.head?.any (·.operator = .pow)) {i : Nat}
    (h : (foldPowers pow whole first' (links'.take i)).outcome = .ok left) :
    ∃ span, ((chain first (links.take i) whole).reduceNode pow).outcome =
      .ok (left.withSpan span) := by
  simp only [outcome_reduceNode_chain_eq_ok_iff]
  cases i with
  | zero =>
    obtain rfl := Except.ok.inj h
    exact ⟨whole, first', [], hf, rfl, rfl⟩
  | succ i =>
    have hhead : (links'.take (i + 1)).head? = links'.head? := by
      cases links' <;> rfl
    have hself : left.withSpan left.span = left := by
      cases left <;> rfl
    refine ⟨left.span, first', links'.take (i + 1), hf, outcome_reduceLinks_take hl (i + 1), ?_⟩
    rw [outcome_rebuild_of_pow (by rwa [hhead]), h, hself]

/-- If folding the reduced operands of a chain is undefined, so is one of its powers. -/
theorem IsRegular.failsAtPower_of_foldPowers {first first' : Expr} {links links' : List Link}
    {whole : Span} (h : (chain first links whole).IsRegular)
    (ho : Span.Ascending (first.span :: linkSpans links))
    (hf : (first.reduceNode pow).outcome = .ok first')
    (hl : (reduceLinks pow links).outcome = .ok links')
    (hpow : links'.head?.any (·.operator = .pow))
    (he : (foldPowers pow whole first' links').outcome = .error (.undefined expression span)) :
    ∃ base exponent, FailsAtPower pow (chain first links whole) expression span base exponent := by
  obtain ⟨⟨-, hlevel⟩, hrf, hrl⟩ := everywhere_chain_iff.mp h
  have hspan : first'.span = first.span := IsRegular.span_reduceNode hrf hf
  have hspans : linkSpans links' = linkSpans links := linkSpans_reduceLinks hrl hl
  -- the operands have been reduced, so they have no powers
  rcases outcome_foldPowers_eq_error (by rwa [hspan, hspans]) he with hfirst | ⟨link', hm', hlink'⟩ |
    ⟨i, hi, fault, expression', herr, -, left, base, exponent, hleft, hfault⟩
  · exact absurd hfirst (evaluate_ne_undefined (IsRegular.count_pow_reduceNode hrf hf))
  · obtain ⟨link, hm, -, hlink⟩ := exists_of_mem_reduceLinks hl hm'
    exact absurd hlink' (evaluate_ne_undefined (IsRegular.count_pow_reduceNode (hrl link hm) hlink))
  · obtain ⟨rfl, rfl, hblamed⟩ := EvalError.eq_undefined_of_ofFault herr
    obtain ⟨link, hlink, hop, hright⟩ :=
      exists_getElem?_of_reduceLinks hl (List.getElem?_eq_getElem hi)
    obtain ⟨span', hcut⟩ := exists_reduceNode_take hf hl hpow hleft
    have hoperator : link.operator = .pow := by
      rw [← hop]
      exact hlevel.powersOnly.of_map_operator (map_operator_reduceLinks hl) hpow _
        (List.getElem_mem hi)
    exact ⟨base, exponent, first, links, whole, i, link, _, _, .self, hlink, hoperator, hcut, hright,
      hfault.withSpan span', hblamed.symm.trans (blamedSpan_congr hspan hspans whole i)⟩

/-- **If reducing is undefined, so is a power**: one in the expression. -/
theorem IsRegular.failsAtPower_of_reduceNode {e : Expr} (h : e.IsRegular)
    (ho : ∀ first links whole, (chain first links whole).IsNodeOf e →
      Span.Ascending (first.span :: linkSpans links))
    (he : (e.reduceNode pow).outcome = .error (.undefined expression span)) :
    ∃ base exponent, FailsAtPower pow e expression span base exponent := by
  induction h with
  | literal => cases he
  | @chain first links whole hn hrf hrl ihf ihl =>
    simp only [reduceNode, Traced.outcome_bind, Except.bind_eq_error_iff] at he
    rcases he with he | ⟨first', hf, he | ⟨links', hl, he⟩⟩
    · obtain ⟨base, exponent, hfails⟩ := ihf (fun f l w hm => ho f l w (.first hm)) he
      exact ⟨base, exponent, hfails.first⟩
    · obtain ⟨link, hm, he⟩ := exists_of_reduceLinks_eq_error he
      obtain ⟨base, exponent, hfails⟩ :=
        ihl link hm (fun f l w hn => ho f l w (.operand hm hn)) he
      exact ⟨base, exponent, hfails.operand hm⟩
    · have hne' := ne_nil_of_reduceLinks hn.1 hl
      by_cases hpow : links'.head?.any (·.operator = .pow)
      · rw [outcome_rebuild_of_pow hpow] at he
        exact IsRegular.failsAtPower_of_foldPowers (.chain hn hrf hrl) (ho _ _ _ .self) hf hl hpow he
      · rw [outcome_rebuild_of_not_pow hpow hne'] at he
        cases he

/-- A power that is undefined in an expression with reduced literals has finite operands. -/
theorem FailsAtPower.isFinite {e : Expr} (hl : ∀ l ∈ e.literals, l.IsReduced)
    (h : FailsAtPower pow e expression span base exponent) : base.isFinite ∧ exponent.isFinite := by
  obtain ⟨first, links, whole, index, link, left, right, hnode, hlink, -, hleft, hright, hfault, -⟩ := h
  have hnode' := forall_mem_literals_chain_iff.mp (hnode.forall_mem_literals hl)
  have hcut : ∀ l ∈ (chain first (links.take index) whole).literals, l.IsReduced :=
    forall_mem_literals_chain_iff.mpr
      ⟨hnode'.1, fun link hm => hnode'.2 link (List.mem_of_mem_take hm)⟩
  constructor
  · exact isFinite_of_evaluateReal
      (fun l hm => (isReduced_reduceNode hcut hleft l hm).isFinite) hfault.left_eq
  · exact isFinite_of_evaluateReal
      (fun l hm => (isReduced_reduceNode (hnode'.2 link (List.mem_of_getElem? hlink)) hright l
        hm).isFinite) hfault.right_eq

end Expr

namespace Calculator

open Abacus.Expr

variable {calculator : Calculator} {s : Text}

/-- The numbers in a text are small. -/
theorem isReduced_of_parse {e : Expr} (h : (calculator.parse s).outcome = .ok e) :
    ∀ l ∈ e.literals, l.IsReduced := by
  obtain ⟨hparse, hrange⟩ := (calculator.outcome_parse_eq_ok_iff s e).mp h
  obtain ⟨d, hd, htokens, -, rfl⟩ := exists_derivation_of_parse hparse
  have heverywhere : d.expr.Everywhere Literal.IsReduced _ := hd.everywhere_expr (by
    intro token hm n hk
    rw [htokens] at hm
    have hnonneg := toInt_nonneg_of_mem_tokenize hm hk
    have hle := Int64.le_iff_toInt_le.mp (hrange token hm n hk)
    have hbound : maxOperand.toInt = 2147483647 := rfl
    rw [Literal.IsReduced]
    omega)
  exact heverywhere.forall_mem_literals

theorem outcome_reduce_eq_ok_iff {reduced : Expr} :
    (calculator.reduce s).outcome = .ok reduced ↔
      ∃ e, (calculator.parse s).outcome = .ok e ∧
        (e.reduceNode calculator.pow).outcome = .ok reduced := by
  rw [Calculator.reduce, Traced.outcome_bind, Except.bind_eq_ok_iff]
  constructor
  · rintro ⟨e, hparse, h⟩
    have hregular := isRegular_of_parse ((calculator.outcome_parse_eq_ok_iff s e).mp hparse).1
    exact ⟨e, hparse, hregular.outcome_reduce ▸ h⟩
  · rintro ⟨e, hparse, h⟩
    have hregular := isRegular_of_parse ((calculator.outcome_parse_eq_ok_iff s e).mp hparse).1
    exact ⟨e, hparse, hregular.outcome_reduce.trans h⟩

theorem outcome_evaluate_eq_ok_iff {evaluation : Evaluation} :
    (calculator.evaluate s).outcome = .ok evaluation ↔
      ∃ reduced, (calculator.reduce s).outcome = .ok reduced ∧
        reduced.evaluate calculator.pow = .ok evaluation.value ∧
        evaluation.reduced = reduced.text := by
  simp only [evaluate, Traced.outcome_bind, Traced.outcome_lift, Traced.outcome_tell,
    Traced.outcome_pure, Except.bind_eq_ok_iff, Except.ok_bind, Except.ok.injEq]
  constructor
  · rintro ⟨reduced, hreduce, value, hvalue, rfl⟩
    exact ⟨reduced, hreduce, hvalue, rfl⟩
  · rintro ⟨reduced, hreduce, hvalue, htext⟩
    exact ⟨reduced, hreduce, _, hvalue, by rw [← htext]⟩

theorem isReduced_of_reduce {reduced : Expr} (h : (calculator.reduce s).outcome = .ok reduced) :
    ∀ l ∈ reduced.literals, l.IsReduced := by
  obtain ⟨e, hparse, hreduce⟩ := outcome_reduce_eq_ok_iff.mp h
  exact isReduced_reduceNode (isReduced_of_parse hparse) hreduce

/-- If a text is undefined, so is a power in its expression. -/
theorem exists_failsAtPower {expression : Text} {span : Span}
    (h : (calculator.evaluate s).outcome = .error (.undefined expression span)) :
    ∃ e base exponent, (calculator.parse s).outcome = .ok e ∧
      FailsAtPower calculator.pow e expression span base exponent := by
  have hfault : (calculator.evaluate s).outcome = .error (.ofFault .undefined expression span) := h
  obtain ⟨e, hparse⟩ := exists_outcome_parse_of_fault hfault
  have hread := ((calculator.outcome_parse_eq_ok_iff s e).mp hparse).1
  have hregular := isRegular_of_parse hread
  rw [outcome_evaluate_eq_error_iff hparse, settle, Except.bind_eq_error_iff] at h
  rcases h with h | ⟨reduced, hreduced, h⟩
  · obtain ⟨base, exponent, hfails⟩ := hregular.failsAtPower_of_reduceNode
      (fun f l w hm => (inOrder_of_isNodeOf hread hm).1.ascending) h
    exact ⟨e, base, exponent, hparse, hfails⟩
  · exact absurd h (evaluate_ne_undefined (hregular.count_pow_reduceNode hreduced))

/-- **Results are finite.** The literals of a reduced text are integers below `10 ^ 15` and finite
doubles that are no such integers, and the value of a text is finite. If `pow` has a value for all
finite numbers, unless the base is negative and the exponent no integer, then it is for such a power
that a text is undefined. An operation other than a power never is. -/
theorem results_are_finite (calculator : Calculator) (s : Text) :
    (∀ reduced, (calculator.reduce s).outcome = .ok reduced →
      ∀ l ∈ reduced.literals, l.IsReduced) ∧
    (∀ evaluation, (calculator.evaluate s).outcome = .ok evaluation →
      evaluation.value.toReal.isFinite) ∧
    ((∀ x y : Binary64, x.isFinite → y.isFinite → (calculator.pow x y).isNaN →
        x.IsNegativeToFraction y) →
      ∀ expression span, (calculator.evaluate s).outcome = .error (.undefined expression span) →
        ∃ e base exponent, (calculator.parse s).outcome = .ok e ∧
          FailsAtPower calculator.pow e expression span base exponent ∧
          base.IsNegativeToFraction exponent) ∧
    ∀ op, op ≠ .pow → ∀ a b, Value.apply calculator.pow op a b ≠ .error .undefined := by
  refine ⟨fun _ => isReduced_of_reduce, ?_, ?_, fun op hop a b => Value.apply_ne_undefined hop⟩
  · intro evaluation h
    obtain ⟨reduced, hreduce, hvalue, -⟩ := outcome_evaluate_eq_ok_iff.mp h
    exact isFinite_of_evaluate (fun l hm => (isReduced_of_reduce hreduce l hm).isFinite) hvalue
  · intro hpow expression span h
    obtain ⟨e, base, exponent, hparse, hfails⟩ := exists_failsAtPower h
    have hfinite := hfails.isFinite (isReduced_of_parse hparse)
    have hnan := Value.isNaN_of_power_eq_undefined hfails.power_eq
    exact ⟨e, base, exponent, hparse, hfails, hpow base exponent hfinite.1 hfinite.2 hnan⟩

/-- A power for which the theorem can be seen at work: it has no value where it must not have one,
and is the square elsewhere, whatever the exponent. -/
def squareOrNaN (x y : Binary64) : Binary64 :=
  if x.signedQuanta < 0 ∧ y.toInt? = none then .nan else x.mul x

/-- In `2^62+(1/2)^2` both powers are doubles when they are reduced, and so is the sum. The base of
`(0-8)^(1/3)` is negative, and its exponent no integer. -/
theorem results_are_finite_of_squareOrNaN :
    (∀ x y : Binary64, x.isFinite → y.isFinite → (squareOrNaN x y).isNaN →
      x.IsNegativeToFraction y) ∧
    (∃ reduced, ((Calculator.mk 1 squareOrNaN).reduce "2^62+(1/2)^2".toList).outcome = .ok reduced ∧
      ∀ l ∈ reduced.literals, l.IsReduced) ∧
    (∃ evaluation,
      ((Calculator.mk 1 squareOrNaN).evaluate "2^62+(1/2)^2".toList).outcome = .ok evaluation ∧
        evaluation.value.toReal.isFinite) ∧
    (∃ e base exponent, ((Calculator.mk 1 squareOrNaN).parse "(0-8)^(1/3)".toList).outcome = .ok e ∧
      FailsAtPower squareOrNaN e "(0-8)^(1/3)".toList ⟨0, 11⟩ base exponent ∧
      base.IsNegativeToFraction exponent) ∧
    Value.apply squareOrNaN .div (.int32 1) (.int32 0) ≠ .error .undefined := by
  have hpow : ∀ x y : Binary64, x.isFinite → y.isFinite → (squareOrNaN x y).isNaN →
      x.IsNegativeToFraction y := by
    intro x y hx hy hnan
    unfold squareOrNaN at hnan
    split at hnan
    · next h => exact ⟨hx, h.1, hy, h.2⟩
    · rw [Binary64.isNaN_mul hx hx] at hnan
      cases hnan
  have hsum := results_are_finite ⟨1, squareOrNaN⟩ "2^62+(1/2)^2".toList
  have hreduce :
      ((Calculator.mk 1 squareOrNaN).reduce "2^62+(1/2)^2".toList).outcome.toOption.isSome := by
    decide +kernel
  have hevaluate :
      ((Calculator.mk 1 squareOrNaN).evaluate "2^62+(1/2)^2".toList).outcome.toOption.isSome := by
    decide +kernel
  obtain ⟨reduced, hreduced⟩ := Option.isSome_iff_exists.mp hreduce
  obtain ⟨evaluation, hevaluation⟩ := Option.isSome_iff_exists.mp hevaluate
  rw [Except.toOption_eq_some_iff] at hreduced hevaluation
  refine ⟨hpow, ⟨reduced, hreduced, hsum.1 reduced hreduced⟩,
    ⟨evaluation, hevaluation, hsum.2.1 evaluation hevaluation⟩, ?_, hsum.2.2.2 .div (by decide) _ _⟩
  have hundefined : ((Calculator.mk 1 squareOrNaN).evaluate "(0-8)^(1/3)".toList).outcome =
      .error (.undefined "(0-8)^(1/3)".toList ⟨0, 11⟩) := by
    decide +kernel
  exact (results_are_finite ⟨1, squareOrNaN⟩ "(0-8)^(1/3)".toList).2.2.1 hpow _ _ hundefined

end Calculator

end Abacus
