import Mathlib.Data.List.Forall2
import Abacus.Proofs.Reduct

/-!
# Expressions that can be interchanged

Two expressions can be interchanged if nothing that is computed from them differs but the texts and
the spans in errors. Both can be reduced, or neither can; what they are reduced to has the same value,
or neither has one; and where something fails, the errors are of one kind (`Interchangeable`).

What matters is that a chain does not look into its operands. If the operands of two chains can be
interchanged one by one, and the operators are the same, then so can the chains
(`Interchangeable.chain`). Reducing goes through the operands and then puts the chain together again,
either by folding powers, which evaluates the reduced operands, or as a chain that is evaluated later.
Both are runs in lockstep, and one rule for a sequence of two steps (`Agree.bind`) takes them apart.
-/

namespace Abacus

/-- The kinds of errors. -/
inductive ErrorKind where
  | illegalCharacter
  | signedOperand
  | operandOutOfRange
  | malformed
  | overflow
  | undefined
  | nestingTooDeep
  deriving DecidableEq

namespace EvalError

/-- The kind of an error. Syntax errors are all of one kind, but for parentheses that are nested too
deeply. -/
def kind : EvalError → ErrorKind
  | invalid (.illegalCharacter ..) => .illegalCharacter
  | invalid (.signedOperand ..) => .signedOperand
  | invalid (.operandOutOfRange ..) => .operandOutOfRange
  | malformed _ => .malformed
  | overflow .. => .overflow
  | undefined .. => .undefined
  | nestingTooDeep .. => .nestingTooDeep

theorem kind_ofFault (fault : ArithmeticFault) (expression expression' : Text) (span span' : Span) :
    (ofFault fault expression span).kind = (ofFault fault expression' span').kind := by
  cases fault <;> rfl

end EvalError

/-! ### Outcomes that agree -/

/-- Both computations fail with errors of one kind, or both succeed with results that are related. -/
inductive Agree {α β : Type} (R : α → β → Prop) : Except EvalError α → Except EvalError β → Prop where
  | error {e e' : EvalError} : e.kind = e'.kind → Agree R (.error e) (.error e')
  | ok {a : α} {b : β} : R a b → Agree R (.ok a) (.ok b)

namespace Agree

variable {α β α' β' : Type} {R : α → β → Prop} {S : α' → β' → Prop}

/-- Sequences of two steps agree if the first steps do, and the second ones do after results that are
related. -/
theorem bind {x : Except EvalError α} {y : Except EvalError β} (h : Agree R x y)
    {f : α → Except EvalError α'} {g : β → Except EvalError β'}
    (hfg : ∀ a b, R a b → Agree S (f a) (g b)) : Agree S (x >>= f) (y >>= g) := by
  cases h with
  | error he => exact .error he
  | ok hr => exact hfg _ _ hr

/-- What is only a view of two results can be looked at later. -/
theorem of_bind_ok {x : Except EvalError α} {y : Except EvalError β} {f : α → α'} {g : β → β'}
    (h : Agree S (x >>= fun a => .ok (f a)) (y >>= fun b => .ok (g b))) :
    Agree (fun a b => S (f a) (g b)) x y := by
  cases x with
  | error e =>
    cases y with
    | error e' =>
      cases h with
      | error he => exact .error he
    | ok b => cases h
  | ok a =>
    cases y with
    | error e' => cases h
    | ok b =>
      cases h with
      | ok hs => exact .ok hs

theorem refl {R : α → α → Prop} (hR : ∀ a, R a a) (x : Except EvalError α) : Agree R x x := by
  cases x with
  | error e => exact .error rfl
  | ok a => exact .ok (hR a)

theorem symm {R : α → α → Prop} (hR : ∀ a b, R a b → R b a) {x y : Except EvalError α}
    (h : Agree R x y) : Agree R y x := by
  cases h with
  | error he => exact .error he.symm
  | ok hr => exact .ok (hR _ _ hr)

theorem trans {R : α → α → Prop} (hR : ∀ a b c, R a b → R b c → R a c)
    {x y z : Except EvalError α} (h : Agree R x y) (h' : Agree R y z) : Agree R x z := by
  cases h with
  | error he =>
    cases h' with
    | error he' => exact .error (he.trans he')
  | ok hr =>
    cases h' with
    | ok hr' => exact .ok (hR _ _ _ hr hr')

end Agree

namespace Expr

variable {pow : Binary64 → Binary64 → Binary64} {first first' e e' e'' : Expr}
  {links links' : List Link}

/-- The same operators, with operands that are related. -/
def LinksRelated (R : Expr → Expr → Prop) : List Link → List Link → Prop :=
  List.Forall₂ fun link link' => link.operator = link'.operator ∧ R link.operand link'.operand

theorem LinksRelated.refl {R : Expr → Expr → Prop} (hR : ∀ e, R e e) (links : List Link) :
    LinksRelated R links links :=
  List.forall₂_same.mpr fun link _ => ⟨rfl, hR link.operand⟩

theorem LinksRelated.head?_any_pow {R : Expr → Expr → Prop} (h : LinksRelated R links links') :
    links'.head?.any (·.operator = .pow) = links.head?.any (·.operator = .pow) := by
  cases h with
  | nil => rfl
  | cons hlink _ => simp [hlink.1]

/-! ### Evaluating -/

/-- Evaluating gives the same value, or errors of one kind. -/
def EvaluateAlike (pow : Binary64 → Binary64 → Binary64) (e e' : Expr) : Prop :=
  Agree Eq (e.evaluate pow) (e'.evaluate pow)

theorem EvaluateAlike.refl (e : Expr) : EvaluateAlike pow e e := Agree.refl (fun _ => rfl) _

theorem EvaluateAlike.symm (h : EvaluateAlike pow e e') : EvaluateAlike pow e' e :=
  Agree.symm (R := Eq) (fun _ _ => Eq.symm) h

theorem EvaluateAlike.trans (h : EvaluateAlike pow e e') (h' : EvaluateAlike pow e' e'') :
    EvaluateAlike pow e e'' :=
  Agree.trans (R := Eq) (fun _ _ _ => Eq.trans) h h'

/-- The span of a literal does not matter. -/
theorem EvaluateAlike.literal (value : Literal) (span span' : Span) :
    EvaluateAlike pow (.literal value span) (.literal value span') := .ok rfl

/-- Links with operands that evaluate alike do the same to a value, if those to be blamed for an
operation make errors of one kind. -/
theorem agree_evaluateLinks (h : LinksRelated (EvaluateAlike pow) links links')
    {blame blame' : Nat → ArithmeticFault → EvalError}
    (hb : ∀ index fault, (blame index fault).kind = (blame' index fault).kind) (acc : Value)
    (index : Nat) :
    Agree Eq (evaluateLinks pow blame acc index links)
      (evaluateLinks pow blame' acc index links') := by
  induction h generalizing acc index with
  | nil => exact .ok rfl
  | @cons link link' rest rest' hlink _ ih =>
    obtain ⟨op, operand⟩ := link
    obtain ⟨op', operand'⟩ := link'
    obtain ⟨rfl, hoperand⟩ := hlink
    simp only [evaluateLinks]
    refine hoperand.bind fun right right' hright => ?_
    subst hright
    cases Value.apply pow op acc right with
    | error fault => exact .error (hb index fault)
    | ok result => exact ih _ _

/-- A chain evaluates like one with operands that evaluate alike. -/
theorem EvaluateAlike.chain (hf : EvaluateAlike pow first first')
    (hl : LinksRelated (EvaluateAlike pow) links links') (span span' : Span) :
    EvaluateAlike pow (.chain first links span) (.chain first' links' span') := by
  rw [EvaluateAlike, evaluate, evaluate]
  refine Agree.bind hf fun start start' hstart => ?_
  subst hstart
  exact agree_evaluateLinks hl (fun _ _ => EvalError.kind_ofFault _ _ _ _ _) _ _

theorem EvaluateAlike.withSpan (span : Span) (e : Expr) : EvaluateAlike pow (e.withSpan span) e := by
  cases e with
  | literal value s => exact .literal value span s
  | chain first links s => exact .chain (.refl _) (.refl EvaluateAlike.refl _) _ _

theorem agree_evaluateReal (h : EvaluateAlike pow e e') :
    Agree Eq (e.evaluateReal pow) (e'.evaluateReal pow) := by
  have hbind : ∀ e : Expr, e.evaluateReal pow = e.evaluate pow >>= fun v => .ok v.toReal := by
    intro e
    rw [evaluateReal]
    cases e.evaluate pow <;> rfl
  rw [hbind, hbind]
  exact h.bind fun v v' hv => .ok (congrArg Value.toReal hv)

/-! ### Reducing -/

/-- The two can be reduced to expressions that evaluate alike, or reducing fails with errors of one
kind. -/
def Interchangeable (pow : Binary64 → Binary64 → Binary64) (e e' : Expr) : Prop :=
  Agree (EvaluateAlike pow) (e.reduceNode pow).outcome (e'.reduceNode pow).outcome

theorem Interchangeable.refl (e : Expr) : Interchangeable pow e e :=
  Agree.refl EvaluateAlike.refl _

theorem Interchangeable.literal (value : Literal) (span span' : Span) :
    Interchangeable pow (.literal value span) (.literal value span') :=
  .ok (.literal value span span')

theorem Interchangeable.symm (h : Interchangeable pow e e') : Interchangeable pow e' e :=
  Agree.symm (R := EvaluateAlike pow) (fun _ _ => EvaluateAlike.symm) h

theorem Interchangeable.trans (h : Interchangeable pow e e') (h' : Interchangeable pow e' e'') :
    Interchangeable pow e e'' :=
  Agree.trans (R := EvaluateAlike pow) (fun _ _ _ => EvaluateAlike.trans) h h'

/-- Powers of operands that evaluate alike are folded alike. -/
theorem agree_foldPowers (hl : LinksRelated (EvaluateAlike pow) links links')
    (hf : EvaluateAlike pow first first') (span span' : Span) :
    Agree (EvaluateAlike pow) (foldPowers pow span first links).outcome
      (foldPowers pow span' first' links').outcome := by
  induction hl generalizing first first' with
  | nil => exact .ok hf
  | @cons link link' rest rest' hlink _ ih =>
    obtain ⟨op, operand⟩ := link
    obtain ⟨op', operand'⟩ := link'
    simp only [foldPowers, Traced.outcome_bind, Traced.outcome_lift]
    refine (agree_evaluateReal hf).bind fun base base' hbase => ?_
    refine (agree_evaluateReal hlink.2).bind fun exponent exponent' hexponent => ?_
    subst hbase hexponent
    cases Value.power pow base exponent with
    | error fault => exact .error (EvalError.kind_ofFault _ _ _ _ _)
    | ok value => exact ih (.literal _ _ _)

/-- Operands that evaluate alike are put together to chains that evaluate alike. -/
theorem agree_rebuild (hf : EvaluateAlike pow first first')
    (hl : LinksRelated (EvaluateAlike pow) links links') (span span' : Span) :
    Agree (EvaluateAlike pow) (rebuild pow first links span).outcome
      (rebuild pow first' links' span').outcome := by
  rw [rebuild, rebuild, hl.head?_any_pow]
  split
  · exact agree_foldPowers hl hf span span'
  · cases hl with
    | nil =>
      exact .ok ((EvaluateAlike.withSpan span first).trans
        (hf.trans (EvaluateAlike.withSpan span' first').symm))
    | cons hlink hrest =>
      obtain ⟨s, hs⟩ := exists_ofChain_eq first (List.cons_ne_nil _ _)
      obtain ⟨s', hs'⟩ := exists_ofChain_eq first' (List.cons_ne_nil _ _)
      rw [hs, hs']
      exact .ok (.chain hf (.cons hlink hrest) span span')

theorem agree_reduceLinks (hl : LinksRelated (Interchangeable pow) links links') :
    Agree (LinksRelated (EvaluateAlike pow)) (reduceLinks pow links).outcome
      (reduceLinks pow links').outcome := by
  induction hl with
  | nil => exact .ok .nil
  | @cons link link' rest rest' hlink _ ih =>
    obtain ⟨op, operand⟩ := link
    obtain ⟨op', operand'⟩ := link'
    obtain ⟨rfl, hoperand⟩ := hlink
    simp only [reduceLinks, Traced.outcome_bind, Traced.outcome_pure]
    exact Agree.bind hoperand fun r r' hr => ih.bind fun rs rs' hrs =>
      .ok (.cons ⟨rfl, hr⟩ hrs)

/-- **A chain does not look into its operands**: operands that can be interchanged make chains that
can be. -/
theorem Interchangeable.chain (hf : Interchangeable pow first first')
    (hl : LinksRelated (Interchangeable pow) links links') (span span' : Span) :
    Interchangeable pow (.chain first links span) (.chain first' links' span') := by
  simp only [Interchangeable, reduceNode, Traced.outcome_bind]
  exact Agree.bind hf fun r r' hr => (agree_reduceLinks hl).bind fun rs rs' hrs =>
    agree_rebuild hr hrs span span'

theorem Interchangeable.withSpan (h : Interchangeable pow e e') (span span' : Span) :
    Interchangeable pow (e.withSpan span) (e'.withSpan span') := by
  have hspan : ∀ (e : Expr) (span : Span), Interchangeable pow (e.withSpan span) e := by
    intro e span
    cases e with
    | literal value s => exact .literal value span s
    | chain first links s => exact .chain (.refl _) (.refl Interchangeable.refl _) _ _
  exact (hspan e span).trans (h.trans (hspan e' span').symm)

end Expr

end Abacus
