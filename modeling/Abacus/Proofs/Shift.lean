import Abacus.Expr.Reduce
import Abacus.Proofs.Splice

/-!
# Moving an expression

The same expression may stand further on in a text: its spans are then shifted, and nothing else
is different. Nothing that is computed depends on where an expression stands. So evaluating a
shifted expression has the same value, or the same error with its span shifted
(`evaluate_shift`), and reducing it gives the shifted result (`outcome_reduceNode_shift`).
-/

namespace Abacus

/-! ### Shifted spans -/

/-- The span as many bytes further on. -/
def Span.shift (offset : Nat) (span : Span) : Span := ⟨span.start + offset, span.stop + offset⟩

theorem Span.shift_cover (offset : Nat) (a b : Span) :
    (a.cover b).shift offset = (a.shift offset).cover (b.shift offset) := by
  simp only [Span.shift, Span.cover, Span.mk.injEq]
  omega

theorem Span.shift_injective (offset : Nat) {a b : Span} (h : a.shift offset = b.shift offset) :
    a = b := by
  obtain ⟨start, stop⟩ := a
  obtain ⟨start', stop'⟩ := b
  simp only [Span.shift, Span.mk.injEq] at h ⊢
  omega

namespace EvalError

/-- The error of an operation as many bytes further on; evaluating makes no other errors. -/
def shift (offset : Nat) : EvalError → EvalError
  | overflow expression span => overflow expression (span.shift offset)
  | undefined expression span => undefined expression (span.shift offset)
  | other => other

theorem shift_ofFault (offset : Nat) (fault : ArithmeticFault) (expression : Text) (span : Span) :
    (ofFault fault expression span).shift offset =
      ofFault fault expression (span.shift offset) := by
  cases fault <;> rfl

/-- The outcome as many bytes further on, where `move` says what becomes of a result. -/
def moved {α : Type} (offset : Nat) (move : α → α) : Except EvalError α → Except EvalError α
  | .error e => .error (e.shift offset)
  | .ok a => .ok (move a)

theorem moved_bind {α β : Type} {offset : Nat} {move : α → α} {move' : β → β}
    {f f' : α → Except EvalError β} (h : ∀ a, f' (move a) = moved offset move' (f a))
    (x : Except EvalError α) : moved offset move x >>= f' = moved offset move' (x >>= f) := by
  cases x with
  | error e => rfl
  | ok a => exact h a

end EvalError

namespace Expr

open EvalError

/-! ### Shifted expressions -/

mutual

/-- The expression as many bytes further on. -/
def shift (offset : Nat) : Expr → Expr
  | literal value span => .literal value (span.shift offset)
  | chain first links span =>
    .chain (first.shift offset) (shiftLinks offset links) (span.shift offset)

/-- Links as many bytes further on. -/
def shiftLinks (offset : Nat) : List Link → List Link
  | [] => []
  | ⟨operator, operand⟩ :: rest => ⟨operator, operand.shift offset⟩ :: shiftLinks offset rest

end

variable {offset : Nat}

theorem shiftLinks_eq_map (links : List Link) :
    shiftLinks offset links = links.map (Link.map (shift offset)) := by
  induction links with
  | nil => rfl
  | cons link rest ih =>
    obtain ⟨operator, operand⟩ := link
    rw [shiftLinks, List.map_cons, ih]
    rfl

@[simp] theorem span_shift (e : Expr) : (e.shift offset).span = e.span.shift offset := by
  cases e <;> rfl

theorem shift_withSpan (span : Span) (e : Expr) :
    (e.withSpan span).shift offset = (e.shift offset).withSpan (span.shift offset) := by
  cases e <;> rfl

theorem shift_ofChain (first : Expr) (links : List Link) :
    (ofChain first links).shift offset = ofChain (first.shift offset) (shiftLinks offset links) := by
  rw [shiftLinks_eq_map]
  rcases List.eq_nil_or_concat links with rfl | ⟨init, last, rfl⟩
  · rfl
  · rw [List.concat_eq_append, List.map_append, List.map_singleton, ofChain_concat, ofChain_concat,
      shift, shiftLinks_eq_map, Span.shift_cover, List.map_append, List.map_singleton,
      Link.operand_map, span_shift, span_shift]

theorem eraseSpans_shift (e : Expr) : (e.shift offset).eraseSpans = e.eraseSpans := by
  induction e using Expr.induction with
  | literal value span => rfl
  | chain first links span ihf ihl =>
    rw [shift, eraseSpans, eraseSpans, ihf, shiftLinks_eq_map, eraseLinkSpans_eq_map,
      eraseLinkSpans_eq_map, List.map_map]
    congr 1
    exact List.map_congr_left fun link hm => by simp [Link.map, ihl link hm]

theorem samePrint_shift (e : Expr) : SamePrint (e.shift offset) e := by
  have h := samePrint_eraseSpans (e.shift offset)
  rw [eraseSpans_shift] at h
  exact h.symm.trans (samePrint_eraseSpans e)

theorem leadingText_shift (first : Expr) (links : List Link) (index : Nat) :
    leadingText (first.shift offset) (shiftLinks offset links) index =
      leadingText first links index := by
  rw [shiftLinks_eq_map]
  exact leadingText_map (samePrint_shift first) (fun link _ => samePrint_shift link.operand) index

theorem leadingSpan_shift (first : Expr) (links : List Link) (index : Nat) :
    leadingSpan (first.shift offset) (shiftLinks offset links) index =
      (leadingSpan first links index).shift offset := by
  rw [leadingSpan, leadingSpan, shiftLinks_eq_map, List.getElem?_map]
  cases links[index]? with
  | none => exact span_shift first
  | some link => simp [Span.shift_cover]

/-! ### Evaluating -/

variable {pow : Binary64 → Binary64 → Binary64}

theorem blame_shift (first : Expr) (links : List Link) (span : Span) (index : Nat)
    (fault : ArithmeticFault) :
    blame (first.shift offset) (shiftLinks offset links) (span.shift offset) index fault =
      (blame first links span index fault).shift offset := by
  have hlength : (shiftLinks offset links).length = links.length := by
    rw [shiftLinks_eq_map, List.length_map]
  rw [blame, blame, shift_ofFault, leadingText_shift, leadingSpan_shift, hlength]
  split <;> rfl

theorem evaluateLinks_shift {links : List Link}
    (hl : ∀ link ∈ links, (link.operand.shift offset).evaluate pow =
      moved offset id (link.operand.evaluate pow))
    {blame blame' : Nat → ArithmeticFault → EvalError}
    (hb : ∀ index fault, blame' index fault = (blame index fault).shift offset)
    (acc : Value) (index : Nat) :
    evaluateLinks pow blame' acc index (shiftLinks offset links) =
      moved offset id (evaluateLinks pow blame acc index links) := by
  induction links generalizing acc index with
  | nil => rfl
  | cons link rest ih =>
    obtain ⟨op, operand⟩ := link
    rw [List.forall_mem_cons] at hl
    rw [shiftLinks, evaluateLinks, evaluateLinks, hl.1]
    refine moved_bind (fun right => ?_) _
    rw [id_eq]
    cases Value.apply pow op acc right with
    | error fault => exact congrArg Except.error (hb index fault)
    | ok result => exact ih hl.2 _ _

/-- **The value does not depend on where an expression stands**, and neither does the error, but
for its span. -/
theorem evaluate_shift (e : Expr) :
    (e.shift offset).evaluate pow = moved offset id (e.evaluate pow) := by
  induction e using Expr.induction with
  | literal value span => rfl
  | chain first links span ihf ihl =>
    rw [shift, evaluate, evaluate, ihf]
    exact moved_bind (fun start => evaluateLinks_shift ihl (blame_shift first links span) start 0) _

theorem evaluateReal_shift (e : Expr) :
    (e.shift offset).evaluateReal pow = moved offset id (e.evaluateReal pow) := by
  rw [evaluateReal, evaluateReal, evaluate_shift]
  cases e.evaluate pow <;> rfl

/-! ### Reducing -/

theorem text_binary_shift (left right : Expr) (op : Operator) :
    (binary (left.shift offset) op (right.shift offset)).text = (binary left op right).text := by
  have h : binary (left.shift offset) op (right.shift offset) = (binary left op right).shift offset :=
    (shift_ofChain left [⟨op, right⟩]).symm
  rw [h]
  exact (samePrint_shift _).1

theorem outcome_foldPowers_shift (span : Span) (acc : Expr) (links : List Link) :
    (foldPowers pow (span.shift offset) (acc.shift offset) (shiftLinks offset links)).outcome =
      moved offset (shift offset) (foldPowers pow span acc links).outcome := by
  induction links generalizing acc with
  | nil => rfl
  | cons link rest ih =>
    obtain ⟨op, operand⟩ := link
    have hempty : (shiftLinks offset rest).isEmpty = rest.isEmpty := by
      rw [shiftLinks_eq_map, List.isEmpty_map]
    simp only [shiftLinks, foldPowers, Traced.outcome_bind, Traced.outcome_lift, hempty,
      evaluateReal_shift, span_shift, text_binary_shift, ← Span.shift_cover]
    refine moved_bind (fun base => ?_) _
    refine moved_bind (fun exponent => ?_) _
    rw [id_eq, id_eq]
    have hspan : (if rest.isEmpty then span.shift offset
        else (acc.span.cover operand.span).shift offset) =
        (if rest.isEmpty then span else acc.span.cover operand.span).shift offset := by
      split <;> rfl
    rw [hspan]
    cases Value.power pow base exponent with
    | error fault => exact congrArg Except.error (shift_ofFault ..).symm
    | ok value => exact ih (.literal value.toLiteral _)

theorem outcome_rebuild_shift (first : Expr) (links : List Link) (span : Span) :
    (rebuild pow (first.shift offset) (shiftLinks offset links) (span.shift offset)).outcome =
      moved offset (shift offset) (rebuild pow first links span).outcome := by
  have hpow : (shiftLinks offset links).head?.any (·.operator = .pow) =
      links.head?.any (·.operator = .pow) := by
    rw [shiftLinks_eq_map, List.head?_map, Option.any_map]
    rfl
  rw [rebuild, rebuild, hpow]
  split
  · exact outcome_foldPowers_shift span first links
  · rw [← shift_ofChain, ← shift_withSpan]
    rfl

theorem outcome_reduceLinks_shift {links : List Link}
    (hl : ∀ link ∈ links, ((link.operand.shift offset).reduceNode pow).outcome =
      moved offset (shift offset) (link.operand.reduceNode pow).outcome) :
    (reduceLinks pow (shiftLinks offset links)).outcome =
      moved offset (shiftLinks offset) (reduceLinks pow links).outcome := by
  induction links with
  | nil => rfl
  | cons link rest ih =>
    obtain ⟨op, operand⟩ := link
    rw [List.forall_mem_cons] at hl
    simp only [shiftLinks, reduceLinks, Traced.outcome_bind, Traced.outcome_pure]
    rw [hl.1, ih hl.2]
    refine moved_bind (fun operand' => ?_) _
    refine moved_bind (fun rest' => ?_) _
    rfl

/-- **Reducing does not depend on where an expression stands.** -/
theorem outcome_reduceNode_shift (e : Expr) :
    ((e.shift offset).reduceNode pow).outcome =
      moved offset (shift offset) (e.reduceNode pow).outcome := by
  induction e using Expr.induction with
  | literal value span => rfl
  | chain first links span ihf ihl =>
    simp only [shift, reduceNode, Traced.outcome_bind]
    rw [ihf, outcome_reduceLinks_shift ihl]
    refine moved_bind (fun first' => ?_) _
    exact moved_bind (fun links' => outcome_rebuild_shift first' links' span) _

end Expr

end Abacus
