import Abacus.Expr.Evaluate
import Abacus.Proofs.Splice

/-!
# The value of a spliced expression

An expression that is spliced has the same value as before (`sameOutcome_splice`), and so has
one whose spans are forgotten (`sameOutcome_eraseSpans`). When there is no value the error is of
the same kind and names the same part of the text, since what is printed up to an operation is
the same. Its span may be another one: the operation may have been the last of a chain, and be
in the middle of a longer chain afterwards.
-/

namespace Abacus

namespace EvalError

/-- The error of an operation without its span; evaluating makes no other errors. -/
def withoutSpan : EvalError → EvalError
  | overflow expression _ => overflow expression default
  | undefined expression _ => undefined expression default
  | other => other

@[simp] theorem withoutSpan_ofFault (fault : ArithmeticFault) (expression : Text) (span : Span) :
    (ofFault fault expression span).withoutSpan = ofFault fault expression default := by
  cases fault <;> rfl

end EvalError

namespace Expr

/-! ### Outcomes up to spans -/

/-- The same value, or errors that differ in nothing but their spans. -/
def SameOutcome (x y : Except EvalError Value) : Prop :=
  x.mapError EvalError.withoutSpan = y.mapError EvalError.withoutSpan

theorem SameOutcome.refl (x : Except EvalError Value) : SameOutcome x x := rfl

theorem SameOutcome.symm {x y : Except EvalError Value} (h : SameOutcome x y) :
    SameOutcome y x := Eq.symm h

theorem SameOutcome.trans {x y z : Except EvalError Value} (h : SameOutcome x y)
    (h' : SameOutcome y z) : SameOutcome x z := Eq.trans h h'

theorem SameOutcome.bind {x y : Except EvalError Value} {f g : Value → Except EvalError Value}
    (h : SameOutcome x y) (hfg : ∀ value, SameOutcome (f value) (g value)) :
    SameOutcome (x >>= f) (y >>= g) := by
  cases x with
  | error e =>
    cases y with
    | error e' => exact h
    | ok value => cases h
  | ok value =>
    cases y with
    | error e' => cases h
    | ok value' =>
      obtain rfl : value = value' := Except.ok.inj h
      exact hfg value

variable {pow : Binary64 → Binary64 → Binary64}

/-! ### Evaluating links -/

/-- Evaluating goes through a chain in one pass, so it can be cut anywhere. -/
theorem evaluateLinks_append (blame : Nat → ArithmeticFault → EvalError) (links links' : List Link)
    (acc : Value) (index : Nat) :
    evaluateLinks pow blame acc index (links ++ links') =
      evaluateLinks pow blame acc index links >>= fun value =>
        evaluateLinks pow blame value (index + links.length) links' := by
  induction links generalizing acc index with
  | nil => rfl
  | cons link rest ih =>
    obtain ⟨op, operand⟩ := link
    rw [List.cons_append, evaluateLinks, evaluateLinks, bind_assoc]
    congr 1
    funext right
    cases Value.apply pow op acc right with
    | error fault => rfl
    | ok result =>
      simp only
      rw [ih, List.length_cons, Nat.add_assoc, Nat.add_comm 1]

/-- Links have the same outcome if their operands have, and if the errors of their operations
are the same up to spans. Only the errors at these links matter. -/
theorem sameOutcome_evaluateLinks {f : Expr → Expr} {links : List Link}
    (hl : ∀ link ∈ links, SameOutcome ((f link.operand).evaluate pow) (link.operand.evaluate pow))
    {blame blame' : Nat → ArithmeticFault → EvalError} {index index' : Nat}
    (hb : ∀ i < links.length, ∀ fault,
      (blame' (index' + i) fault).withoutSpan = (blame (index + i) fault).withoutSpan)
    (acc : Value) :
    SameOutcome (evaluateLinks pow blame' acc index' (links.map (Link.map f)))
      (evaluateLinks pow blame acc index links) := by
  induction links generalizing acc index index' with
  | nil => exact .refl _
  | cons link rest ih =>
    obtain ⟨op, operand⟩ := link
    rw [List.forall_mem_cons] at hl
    rw [List.map_cons, Link.map, evaluateLinks, evaluateLinks]
    refine hl.1.bind fun right => ?_
    cases Value.apply pow op acc right with
    | error fault =>
      have hfirst := hb 0 (by simp) fault
      exact congrArg Except.error hfirst
    | ok result =>
      refine ih hl.2 (fun i hi fault => ?_) _
      have hnext := hb (i + 1) (by rw [List.length_cons]; omega) fault
      rwa [show index' + 1 + i = index' + (i + 1) by omega,
        show index + 1 + i = index + (i + 1) by omega]

/-- What an operation is blamed on matters up to the span only. -/
theorem sameOutcome_evaluateLinks_of_blame {links : List Link}
    {blame blame' : Nat → ArithmeticFault → EvalError} {index index' : Nat}
    (hb : ∀ i < links.length, ∀ fault,
      (blame' (index' + i) fault).withoutSpan = (blame (index + i) fault).withoutSpan)
    (acc : Value) :
    SameOutcome (evaluateLinks pow blame' acc index' links)
      (evaluateLinks pow blame acc index links) := by
  have h : SameOutcome (evaluateLinks pow blame' acc index' (links.map (Link.map id)))
      (evaluateLinks pow blame acc index links) :=
    sameOutcome_evaluateLinks (fun _ _ => .refl _) hb acc
  rwa [Link.map_id, List.map_id] at h

theorem withoutSpan_blame (first : Expr) (links : List Link) (span : Span) (index : Nat)
    (fault : ArithmeticFault) :
    (blame first links span index fault).withoutSpan =
      .ofFault fault (leadingText first links index) default :=
  EvalError.withoutSpan_ofFault _ _ _

/-- Chains whose operands have the same outcomes, and are printed alike, have the same
outcome. -/
theorem sameOutcome_chain {f : Expr → Expr} {first first' : Expr} {links : List Link}
    (hf : SameOutcome (first'.evaluate pow) (first.evaluate pow)) (hpf : SamePrint first' first)
    (hl : ∀ link ∈ links, SameOutcome ((f link.operand).evaluate pow) (link.operand.evaluate pow))
    (hpl : ∀ link ∈ links, SamePrint (f link.operand) link.operand) (span' span : Span) :
    SameOutcome ((chain first' (links.map (Link.map f)) span').evaluate pow)
      ((chain first links span).evaluate pow) := by
  rw [evaluate, evaluate]
  refine hf.bind fun acc => sameOutcome_evaluateLinks hl (fun i _ fault => ?_) acc
  rw [withoutSpan_blame, withoutSpan_blame, leadingText_map hpf hpl]

/-- **Forgetting spans keeps the value**, and the error up to its span. -/
theorem sameOutcome_eraseSpans (e : Expr) :
    SameOutcome (e.eraseSpans.evaluate pow) (e.evaluate pow) := by
  induction e using Expr.induction with
  | literal value span => exact .refl _
  | chain first links span ihf ihl =>
    rw [eraseSpans, eraseLinkSpans_eq_map]
    exact sameOutcome_chain ihf (samePrint_eraseSpans first) ihl
      (fun link _ => samePrint_eraseSpans link.operand) default span

/-! ### Evaluating a spliced chain -/

/-- In a joined chain the text up to a link of the first operand is the text inside of it. -/
theorem leadingText_append_left {links links' : List Link} (h : level links' = level links)
    (first : Expr) {index : Nat} (hi : index < links'.length) :
    leadingText first (links' ++ links) index = leadingText first links' index := by
  rw [leadingText, leadingText, level_append h, h, List.take_append_of_le_length (by omega)]

/-- In a joined chain the text up to a link of the chain around is the text up to it there. -/
theorem leadingText_append_right {links links' : List Link} (h : level links' = level links)
    (first : Expr) (span : Span) (index : Nat) :
    leadingText first (links' ++ links) (links'.length + index) =
      leadingText (chain first links' span) links index := by
  rw [leadingText, leadingText, level_append h, wrapIf_isWrapped_of_level_eq h,
    Nat.add_assoc, List.take_length_add_append, linksText_append, List.append_assoc]

theorem sameOutcome_join (first : Expr) (links : List Link) (span : Span) :
    SameOutcome ((join first links span).evaluate pow) ((chain first links span).evaluate pow) := by
  cases first with
  | literal value span' => exact .refl _
  | chain first' links' span' =>
    rw [join]
    by_cases h : level links' = level links
    · rw [if_pos h]
      simp only [evaluate, evaluateLinks_append, bind_assoc]
      refine (SameOutcome.refl _).bind fun start => SameOutcome.bind ?_ fun acc => ?_
      · -- the links of the first operand
        refine sameOutcome_evaluateLinks_of_blame (fun i hi fault => ?_) start
        rw [withoutSpan_blame, withoutSpan_blame, Nat.zero_add, leadingText_append_left h first' hi]
      · -- the links of the chain around it
        refine sameOutcome_evaluateLinks_of_blame (fun i _ fault => ?_) acc
        rw [withoutSpan_blame, withoutSpan_blame, Nat.zero_add, Nat.zero_add,
          leadingText_append_right h first' span']
    · rw [if_neg h]
      exact .refl _

/-- **Splicing keeps the value**, and the error up to its span. -/
theorem sameOutcome_splice (e : Expr) :
    SameOutcome (e.splice.evaluate pow) (e.evaluate pow) := by
  induction e using Expr.induction with
  | literal value span => exact .refl _
  | chain first links span ihf ihl =>
    rw [splice, spliceLinks_eq_map]
    exact (sameOutcome_join _ _ span).trans (sameOutcome_chain ihf (samePrint_splice first) ihl
      (fun link _ => samePrint_splice link.operand) span span)

end Expr

end Abacus
