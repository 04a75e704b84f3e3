import Abacus.Proofs.Failure
import Abacus.Proofs.Slices
import Abacus.Proofs.Validated

/-!
# What an error blames

The error of an operation without a value carries a span. The slice of the text there is evaluated
with the same error: the fault and the expression are the same, and the span is that of the whole
slice (`Calculator.evaluate_blamed_slice`).

Whichever stage fails, what is blamed is a part of the parsed expression, a node or a chain up to
one of its links, and settling that part alone fails in the same way
(`IsRegular.exists_blamed_part`). The part stands in the text at its span, and moving it to the
front changes nothing but spans.
-/

namespace Abacus

/-- An error that is the fault of an operation when it is moved, is one before. -/
theorem EvalError.eq_ofFault_of_shift {offset : Nat} {err : EvalError}
    {fault : ArithmeticFault} {expression : Text} {span : Span}
    (h : err.shift offset = ofFault fault expression span) :
    ∃ span', err = ofFault fault expression span' ∧ span'.shift offset = span := by
  cases fault with
  | overflow =>
    cases err with
    | overflow expression' span' =>
      obtain ⟨rfl, hspan⟩ := EvalError.overflow.inj h
      exact ⟨span', rfl, hspan⟩
    | invalid | malformed | undefined | nestingTooDeep => cases h
  | undefined =>
    cases err with
    | undefined expression' span' =>
      obtain ⟨rfl, hspan⟩ := EvalError.undefined.inj h
      exact ⟨span', rfl, hspan⟩
    | invalid | malformed | overflow | nestingTooDeep => cases h

namespace Expr

variable {pow : Binary64 → Binary64 → Binary64}

/-! ### The part that is blamed -/

theorem isPartOf_leading (first : Expr) {links : List Link} (span : Span) {index : Nat}
    (h : index < links.length) :
    (leading first links span index).IsPartOf (chain first links span) := by
  by_cases hlast : index + 1 = links.length
  · rw [leading, blamedSpan, if_pos hlast, hlast, List.take_length]
    exact .node .self
  · rw [leading, blamedSpan, if_neg hlast]
    exact .cut .self h

theorem IsPartOf.first {n first : Expr} {links : List Link} {span : Span}
    (h : n.IsPartOf first) : n.IsPartOf (chain first links span) := by
  cases h with
  | node hn => exact .node (.first hn)
  | cut hn hi => exact .cut (.first hn) hi

theorem IsPartOf.operand {n first : Expr} {links : List Link} {span : Span} {link : Link}
    (hm : link ∈ links) (h : n.IsPartOf link.operand) : n.IsPartOf (chain first links span) := by
  cases h with
  | node hn => exact .node (.operand hm hn)
  | cut hn hi => exact .cut (.operand hm hn) hi

/-- **What fails is a part that fails by itself**: if settling an expression fails, there is a part
of it, with the span of the error, that fails with the same error. -/
theorem IsRegular.exists_blamed_part {e : Expr} (h : e.IsRegular)
    (ho : ∀ first links span, (chain first links span).IsNodeOf e →
      Span.Ascending (first.span :: linkSpans links))
    {err : EvalError} (he : settle pow e = .error err) :
    ∃ n : Expr, n.IsPartOf e ∧ settle pow n = .error err ∧ err.span = n.span := by
  induction h with
  | literal => cases he
  | @chain first links span hn hf hl ihf ihl =>
    rcases settle_chain_eq_error (.chain hn hf hl) (ho _ _ _ .self) he with he | ⟨link, hm, he⟩ |
      ⟨i, hi, hspan, hcut⟩
    · obtain ⟨n, hpart, hfails⟩ := ihf (fun f l s hm => ho f l s (.first hm)) he
      exact ⟨n, hpart.first, hfails⟩
    · obtain ⟨n, hpart, hfails⟩ := ihl link hm (fun f l s hn => ho f l s (.operand hm hn)) he
      exact ⟨n, hpart.operand hm, hfails⟩
    · exact ⟨leading first links span i, isPartOf_leading first span hi, hcut, hspan⟩

theorem settle_shift {offset : Nat} (e : Expr) :
    settle pow (e.shift offset) = EvalError.moved offset id (settle pow e) := by
  rw [settle, settle, outcome_reduceNode_shift]
  exact EvalError.moved_bind (fun reduced => evaluate_shift reduced) _

end Expr

namespace Calculator

open Abacus.Expr

variable {calculator : Calculator} {s : Text} {e : Expr}

/-- Evaluating a text that is read fails as settling its expression does. -/
theorem outcome_evaluate_eq_error_iff (h : (calculator.parse s).outcome = .ok e)
    {err : EvalError} :
    (calculator.evaluate s).outcome = .error err ↔ settle calculator.pow e = .error err := by
  have hregular := isRegular_of_parse ((calculator.outcome_parse_eq_ok_iff s e).mp h).1
  simp only [evaluate, Calculator.reduce, Traced.outcome_bind, Traced.outcome_lift,
    Traced.outcome_tell, Traced.outcome_pure, h, Except.ok_bind, hregular.outcome_reduce, settle]
  cases (e.reduceNode calculator.pow).outcome with
  | error err' => simp only [Except.error_bind, Except.error.injEq]
  | ok reduced =>
    simp only [Except.ok_bind]
    cases reduced.evaluate calculator.pow with
    | error err' => simp only [Except.error_bind, Except.error.injEq]
    | ok value =>
      constructor
      · rintro ⟨⟩
      · rintro ⟨⟩

/-- A text is not rejected by the fault of an operation. -/
theorem outcome_parse_ne_fault (calculator : Calculator) (s : Text) (fault : ArithmeticFault)
    (expression : Text) (span : Span) :
    (calculator.parse s).outcome ≠ .error (.ofFault fault expression span) := by
  intro h
  rw [outcome_parse] at h
  cases hvalid : validate s with
  | error err =>
    rw [hvalid] at h
    cases fault <;> cases h
  | ok =>
    cases hparse : Expr.parse calculator.maxDepth (tokenize s) with
    | ok e =>
      rw [hvalid, hparse] at h
      cases h
    | error err =>
      rw [hvalid, hparse] at h
      have herr : EvalError.ofSyntaxError err = .ofFault fault expression span :=
        Except.error.inj h
      unfold EvalError.ofSyntaxError at herr
      split at herr <;> cases fault <;> cases herr

/-- A text that fails by the fault of an operation is read. -/
theorem exists_outcome_parse_of_fault {fault : ArithmeticFault} {expression : Text} {span : Span}
    (h : (calculator.evaluate s).outcome = .error (.ofFault fault expression span)) :
    ∃ e, (calculator.parse s).outcome = .ok e := by
  cases hparse : (calculator.parse s).outcome with
  | ok e => exact ⟨e, rfl⟩
  | error err =>
    rw [evaluate, Calculator.reduce, Traced.outcome_bind, Traced.outcome_bind, hparse] at h
    obtain rfl := Except.error.inj h
    exact absurd hparse (outcome_parse_ne_fault calculator s fault expression span)

/-- A part of an expression that is read from a text is read, on its own, from the slice at its
span. -/
theorem exists_outcome_parse_slice (h : (calculator.parse s).outcome = .ok e) {n : Expr}
    (hn : n.IsPartOf e) :
    s.slice? n.span.start n.span.stop = some (n.span.slice s) ∧
      ∃ e', (calculator.parse (n.span.slice s)).outcome = .ok e' ∧ e'.shift n.span.start = n := by
  rw [outcome_parse_eq_ok_iff] at h
  obtain ⟨hparse, hrange⟩ := h
  obtain ⟨hslice, htokens, e', hparse', hshift⟩ := slice_of_isPartOf hparse hn
  refine ⟨hslice, e', (calculator.outcome_parse_eq_ok_iff _ _).mpr ⟨hparse', ?_⟩, hshift⟩
  intro token hm value hk
  obtain ⟨token', hm', hk'⟩ := htokens token hm
  exact hrange token' hm' value (hk'.trans hk)

/-- **What an error blames**: if evaluating a text fails by the fault of an operation, the span of
the error is one of the text, and evaluating the slice there fails by the same fault, with the same
expression and the span of the whole slice. -/
theorem evaluate_blamed_slice {fault : ArithmeticFault} {expression : Text} {span : Span}
    (h : (calculator.evaluate s).outcome = .error (.ofFault fault expression span)) :
    s.slice? span.start span.stop = some (span.slice s) ∧
      (calculator.evaluate (span.slice s)).outcome =
        .error (.ofFault fault expression ⟨0, Text.byteSize (span.slice s)⟩) := by
  obtain ⟨e, hparse⟩ := exists_outcome_parse_of_fault h
  have hread := ((calculator.outcome_parse_eq_ok_iff s e).mp hparse).1
  rw [outcome_evaluate_eq_error_iff hparse] at h
  obtain ⟨n, hpart, hfails, hspan⟩ := (isRegular_of_parse hread).exists_blamed_part
    (fun f l sp hm => (inOrder_of_isNodeOf hread hm).1.ascending) h
  obtain rfl : span = n.span := (EvalError.span_ofFault fault expression span).symm.trans hspan
  obtain ⟨hslice, e', hparse', hshift⟩ := exists_outcome_parse_slice hparse hpart
  refine ⟨hslice, (outcome_evaluate_eq_error_iff hparse').mpr ?_⟩
  -- the part is the expression of the slice further on, and so is the error
  rw [← hshift, settle_shift, span_shift] at hfails
  cases hsettle : settle calculator.pow e' with
  | ok value =>
    rw [hsettle] at hfails
    cases hfails
  | error err =>
    rw [hsettle] at hfails
    obtain ⟨span', rfl, hspan'⟩ := EvalError.eq_ofFault_of_shift (Except.error.inj hfails)
    have hread' := ((calculator.outcome_parse_eq_ok_iff _ e').mp hparse').1
    rw [Span.shift_injective _ hspan', span_of_parse hread']

/-- In `3*(2147483647+1)^2` the sum in parentheses is blamed, and it fails by itself. -/
theorem evaluate_blamed_sum :
    ((Calculator.standard 1).evaluate "3*(2147483647+1)^2".toList).outcome =
      .error (.ofFault .overflow "2147483647+1".toList ⟨2, 16⟩) ∧
    ((Calculator.standard 1).evaluate "(2147483647+1)".toList).outcome =
      .error (.ofFault .overflow "2147483647+1".toList ⟨0, 14⟩) := by
  have h : ((Calculator.standard 1).evaluate "3*(2147483647+1)^2".toList).outcome =
      .error (.ofFault .overflow "2147483647+1".toList ⟨2, 16⟩) := rfl
  exact ⟨h, (evaluate_blamed_slice h).2⟩

end Calculator

end Abacus
