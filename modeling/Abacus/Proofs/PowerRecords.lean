import Mathlib.Data.List.Forall2
import Abacus.Proofs.Reduct

/-!
# What is told about powers

Reducing tells of each power that it computes. The powers of an expression can be listed without
computing anything, each as its two operands, where the left operand of a power is all that stands
before it in its chain (`Expr.powers`). What is told is then one record for each power of the list,
in the order of the list, with the values of its two operands and their power. If reducing fails,
it tells of the first powers of the list only, and not of all of them (`IsLevelled.records_reduce`).
So no power is left out, and none is computed twice, on the way or as a part of an operand.

In words this is one line `base^exponent = value` for each power (`PowerStep.text`), after a line
with the number of powers and the expression, and before one with the result.

For a computation this is one property (`TellsOf`), and it goes through sequences: lists of powers
are put together as the computations are. The operands that a power is computed from are reduced
ones, so the induction needs that reducing keeps values.
-/

namespace Abacus

namespace Expr

/-! ### The powers of an expression -/

/-- The powers among links that are applied to a left operand: of each its two operands, the left
one being all that stands before it. -/
def powersFrom (left : Expr) : List Link → List (Expr × Expr)
  | [] => []
  | ⟨op, operand⟩ :: rest =>
    (if op = .pow then [(left, operand)] else []) ++ powersFrom (binary left op operand) rest

mutual

/-- The powers of an expression, each as its two operands: those inside the operands of a chain
first, and then those of the chain itself, from left to right. -/
def powers : Expr → List (Expr × Expr)
  | literal .. => []
  | chain first links _ => first.powers ++ (linkPowers links ++ powersFrom first links)

/-- The powers inside the operands of links. -/
def linkPowers : List Link → List (Expr × Expr)
  | [] => []
  | ⟨_, operand⟩ :: rest => operand.powers ++ linkPowers rest

end

theorem length_powersFrom (left : Expr) (links : List Link) :
    (powersFrom left links).length = links.countP (·.operator = .pow) := by
  induction links generalizing left with
  | nil => rfl
  | cons link rest ih =>
    obtain ⟨op, operand⟩ := link
    rw [powersFrom, List.length_append, ih, List.countP_cons]
    by_cases h : op = .pow <;> simp [h, Nat.add_comm]

theorem length_linkPowers_add_countP {links : List Link}
    (h : ∀ link ∈ links, link.operand.powers.length = link.operand.count .pow) :
    (linkPowers links).length + links.countP (·.operator = .pow) = countLinks .pow links := by
  induction links with
  | nil => rfl
  | cons link rest ih =>
    obtain ⟨op, operand⟩ := link
    rw [List.forall_mem_cons] at h
    have hoperand : operand.powers.length = operand.count .pow := h.1
    have hrest := ih h.2
    rw [linkPowers, List.length_append, List.countP_cons, countLinks, hoperand, ← hrest]
    by_cases hop : op = .pow
    · simp only [hop, decide_true, if_true]
      omega
    · simp only [hop, decide_false, Bool.false_eq_true, if_false]
      omega

/-- There are as many powers as power operators. -/
theorem length_powers (e : Expr) : e.powers.length = e.count .pow := by
  induction e using Expr.induction with
  | literal => rfl
  | chain first links span ihf ihl =>
    rw [powers, count, List.length_append, List.length_append, length_powersFrom, ihf,
      length_linkPowers_add_countP ihl]

/-- A chain that has no power at its own level has no powers but those in its operands. -/
theorem powersFrom_eq_nil {links : List Link} (h : ∀ link ∈ links, link.operator ≠ .pow)
    (left : Expr) : powersFrom left links = [] := by
  rw [← List.length_eq_zero_iff, length_powersFrom, List.countP_eq_zero]
  intro link hm
  simpa using h link hm

/-! ### Records of powers -/

variable {pow : Binary64 → Binary64 → Binary64}

/-- One power that is computed. -/
structure PowerStep where
  base : Binary64
  exponent : Binary64
  value : Value

namespace PowerStep

/-- What is told of a step. -/
def record (step : PowerStep) : Record := .power step.base step.exponent step.value

/-- A step in words: its base and exponent, and the value of their power. -/
def text (step : PowerStep) : String :=
  String.ofList step.base.plain ++ "^" ++ String.ofList step.exponent.plain ++ " = " ++
    String.ofList step.value.text

end PowerStep

/-- The step computes the power of two operands: they have the base and the exponent as doubles,
and the value is that of the power. -/
def IsStepOf (pow : Binary64 → Binary64 → Binary64) (operands : Expr × Expr)
    (step : PowerStep) : Prop :=
  operands.1.evaluateReal pow = .ok step.base ∧ operands.2.evaluateReal pow = .ok step.exponent ∧
    Value.power pow step.base step.exponent = .ok step.value

/-- The record tells of a step that computes the power of two operands. -/
def IsRecordOf (pow : Binary64 → Binary64 → Binary64) (operands : Expr × Expr)
    (record : Record) : Prop :=
  ∃ step, IsStepOf pow operands step ∧ record = step.record

/-- Records of powers are the records of steps. -/
theorem exists_steps_of_records {powers : List (Expr × Expr)} {records : List Record}
    (h : List.Forall₂ (IsRecordOf pow) powers records) :
    ∃ steps, List.Forall₂ (IsStepOf pow) powers steps ∧
      records = steps.map PowerStep.record := by
  induction h with
  | nil => exact ⟨[], .nil, rfl⟩
  | cons hrecord _ ih =>
    obtain ⟨step, hstep, rfl⟩ := hrecord
    obtain ⟨steps, hsteps, rfl⟩ := ih
    exact ⟨step :: steps, .cons hstep hsteps, rfl⟩

/-- **What a reduction tells, in words**: the number of powers and the expression, and then each
step. -/
theorem map_message_reducing (powers : Nat) (expression : Text) (steps : List PowerStep) :
    (Record.reducing powers expression :: steps.map PowerStep.record).map Record.message =
      ("reducing " ++ toString powers ++ " exponent(s) in " ++ String.ofList expression) ::
        steps.map PowerStep.text := by
  rw [List.map_cons, List.map_map]
  rfl

/-- A computation tells of powers, in their order: of all of them if it succeeds, and if it fails of
those before the one at which it fails. -/
structure TellsOf {α : Type} (pow : Binary64 → Binary64 → Binary64) (powers : List (Expr × Expr))
    (x : Traced EvalError α) : Prop where
  ok : ∀ a, x.outcome = .ok a → List.Forall₂ (IsRecordOf pow) powers x.records
  error : ∀ err, x.outcome = .error err → x.records.length < powers.length ∧
    List.Forall₂ (IsRecordOf pow) (powers.take x.records.length) x.records

section TellsOf

variable {α β : Type} {powers powers' : List (Expr × Expr)} {x : Traced EvalError α}
  {f : α → Traced EvalError β}

theorem tellsOf_pure (a : α) : TellsOf pow [] (pure a : Traced EvalError α) where
  ok _ _ := .nil
  error _ h := by cases h

theorem tellsOf_fail (err : EvalError) (h : powers ≠ []) :
    TellsOf pow powers (Traced.fail err : Traced EvalError α) where
  ok _ h := by cases h
  error _ _ := ⟨List.length_pos_iff.mpr h, .nil⟩

/-- What is told in a sequence is told of the powers of both parts, one after the other. -/
theorem TellsOf.bind (hx : TellsOf pow powers x)
    (hf : ∀ a, x.outcome = .ok a → TellsOf pow powers' (f a)) :
    TellsOf pow (powers ++ powers') (x >>= f) := by
  cases hout : x.outcome with
  | error err =>
    have hrecords := Traced.records_bind_error hout f
    obtain ⟨hlt, hfirst⟩ := hx.error err hout
    refine ⟨fun b hb => ?_, fun err' _ => ?_⟩
    · rw [Traced.outcome_bind, hout] at hb
      cases hb
    · rw [hrecords, List.length_append, List.take_append_of_le_length (Nat.le_of_lt hlt)]
      exact ⟨Nat.lt_add_right _ hlt, hfirst⟩
  | ok a =>
    have hrecords := Traced.records_bind_ok hout f
    have hall := hx.ok a hout
    have hlength := hall.length_eq
    have houtcome : (x >>= f).outcome = (f a).outcome := by
      rw [Traced.outcome_bind, hout, Except.ok_bind]
    refine ⟨fun b hb => ?_, fun err herr => ?_⟩
    · rw [hrecords]
      exact List.rel_append hall ((hf a hout).ok b (houtcome ▸ hb))
    · obtain ⟨hlt, hrest⟩ := (hf a hout).error err (houtcome ▸ herr)
      rw [hrecords, List.length_append, List.length_append, ← hlength, List.take_length_add_append]
      exact ⟨Nat.add_lt_add_left hlt _, List.rel_append hall hrest⟩

/-- Before there is a value, nothing is told of a power. -/
theorem tellsOf_lift_bind {outcome : Except EvalError α} (h : powers ≠ [])
    (hf : ∀ a, outcome = .ok a → TellsOf pow powers (f a)) :
    TellsOf pow powers (Traced.lift outcome >>= f) := by
  cases outcome with
  | error err => exact tellsOf_fail err h
  | ok a => exact hf a rfl

end TellsOf

/-! ### Reducing -/

theorem evaluateReal_congr {e e' : Expr} (h : e'.value? pow = e.value? pow) {x : Binary64}
    (hx : e'.evaluateReal pow = .ok x) : e.evaluateReal pow = .ok x := by
  rw [← Except.toOption_eq_some_iff, toOption_evaluateReal] at hx ⊢
  rwa [← h]

theorem exists_value?_of_evaluateReal {e : Expr} {x : Binary64}
    (h : e.evaluateReal pow = .ok x) : ∃ v, e.value? pow = some v ∧ v.toReal = x := by
  rw [← Except.toOption_eq_some_iff, toOption_evaluateReal] at h
  exact Option.map_eq_some_iff.mp h

/-- The literal of a power has the value that the power has in its chain. -/
theorem value?_literal_of_power {left operand : Expr} {base exponent : Binary64} {value : Value}
    (hbase : left.evaluateReal pow = .ok base) (hexponent : operand.evaluateReal pow = .ok exponent)
    (hpower : Value.power pow base exponent = .ok value) (span : Span) :
    (literal value.toLiteral span).value? pow = (binary left .pow operand).value? pow := by
  obtain ⟨a, ha, rfl⟩ := exists_value?_of_evaluateReal hbase
  obtain ⟨b, hb, rfl⟩ := exists_value?_of_evaluateReal hexponent
  have happly : Value.apply pow .pow a b = .ok value := hpower
  rw [value?_literal_toLiteral, binary, value?_ofChain, ha, Option.bind_some, linksValue?, hb,
    Option.bind_some, happly]
  rfl

/-- The links have the same operators, and operands of the same values. -/
def SameValues (pow : Binary64 → Binary64 → Binary64) (link link' : Link) : Prop :=
  link'.operator = link.operator ∧ link'.operand.value? pow = link.operand.value? pow

/-- **Folding tells of the powers that it folds.** It computes them from operands with the same
values. -/
theorem tellsOf_foldPowers {links links' : List Link}
    (h : List.Forall₂ (SameValues pow) links links')
    (hops : ∀ link ∈ links, link.operator = .pow) {left acc : Expr}
    (hacc : acc.value? pow = left.value? pow) (span : Span) :
    TellsOf pow (powersFrom left links) (foldPowers pow span acc links') := by
  induction h generalizing left acc with
  | nil => exact tellsOf_pure acc
  | @cons link link' links links' hlink _ ih =>
    obtain ⟨op, operand⟩ := link
    obtain ⟨op', operand'⟩ := link'
    obtain ⟨-, hoperand⟩ := hlink
    rw [List.forall_mem_cons] at hops
    obtain ⟨hop, hops⟩ := hops
    obtain rfl : op = .pow := hop
    rw [powersFrom, if_pos rfl, foldPowers]
    refine tellsOf_lift_bind (by simp) fun base hbase => ?_
    refine tellsOf_lift_bind (by simp) fun exponent hexponent => ?_
    cases hpower : Value.power pow base exponent with
    | error fault => exact tellsOf_fail _ (by simp)
    | ok value =>
      have hleft := evaluateReal_congr hacc hbase
      have hright := evaluateReal_congr hoperand hexponent
      refine TellsOf.bind ⟨fun _ _ => ?_, fun err herr => by cases herr⟩ fun _ _ => ?_
      · exact .cons ⟨⟨base, exponent, value⟩, ⟨hleft, hright, hpower⟩, rfl⟩ .nil
      · exact ih hops (value?_literal_of_power hleft hright hpower _)

theorem value?_of_reduceNode {e e' : Expr} (h : e.IsLevelled)
    (hr : (e.reduceNode pow).outcome = .ok e') : e'.value? pow = e.value? pow := by
  rw [← value?_reduceNode h, hr]
  rfl

theorem sameValues_reduceLinks {links links' : List Link}
    (h : ∀ link ∈ links, link.operand.IsLevelled)
    (hr : (reduceLinks pow links).outcome = .ok links') :
    List.Forall₂ (SameValues pow) links links' := by
  induction links generalizing links' with
  | nil =>
    obtain rfl := Except.ok.inj hr
    exact .nil
  | cons link rest ih =>
    obtain ⟨op, operand⟩ := link
    rw [List.forall_mem_cons] at h
    simp only [reduceLinks, Traced.outcome_bind, Except.bind_eq_ok_iff, Traced.outcome_pure,
      Except.ok.injEq] at hr
    obtain ⟨operand', ho, rest', hrest, rfl⟩ := hr
    exact .cons ⟨rfl, value?_of_reduceNode h.1 ho⟩ (ih h.2 hrest)

theorem tellsOf_reduceLinks {links : List Link}
    (h : ∀ link ∈ links, TellsOf pow link.operand.powers (link.operand.reduceNode pow)) :
    TellsOf pow (linkPowers links) (reduceLinks pow links) := by
  induction links with
  | nil => exact tellsOf_pure []
  | cons link rest ih =>
    obtain ⟨op, operand⟩ := link
    rw [List.forall_mem_cons] at h
    rw [linkPowers, reduceLinks]
    refine h.1.bind fun operand' _ => ?_
    have hrest := (ih h.2).bind (f := fun rest' => pure (⟨op, operand'⟩ :: rest'))
      fun _ _ => tellsOf_pure _
    rwa [List.append_nil] at hrest

theorem SameLevel.operator_ne_pow {links : List Link} (h : SameLevel links)
    (hpow : ¬ links.head?.any (·.operator = .pow)) : ∀ link ∈ links, link.operator ≠ .pow := by
  rw [head?_any_pow_iff] at hpow
  intro link hm heq
  exact hpow (by rw [← h link hm, heq])

/-- Putting a chain together again tells of its own powers. -/
theorem tellsOf_rebuild {links links' : List Link} (hlevel : SameLevel links)
    (h : List.Forall₂ (SameValues pow) links links') {first first' : Expr}
    (hf : first'.value? pow = first.value? pow) (span : Span) :
    TellsOf pow (powersFrom first links) (rebuild pow first' links' span) := by
  have hhead : links'.head?.any (·.operator = .pow) = links.head?.any (·.operator = .pow) := by
    cases h with
    | nil => rfl
    | cons hlink _ => simp only [List.head?_cons, Option.any_some, hlink.1]
  rw [rebuild, hhead]
  split
  · next hpow => exact tellsOf_foldPowers h (hlevel.powersOnly hpow) hf span
  · next hpow =>
    rw [powersFrom_eq_nil (hlevel.operator_ne_pow hpow)]
    exact tellsOf_pure _

/-- **Reducing tells of the powers of an expression**, of each of them once. -/
theorem IsLevelled.tellsOf_reduceNode {e : Expr} (h : e.IsLevelled) :
    TellsOf pow e.powers (e.reduceNode pow) := by
  induction h with
  | literal => exact tellsOf_pure _
  | @chain first links span hlevel hf hl ihf ihl =>
    rw [powers, reduceNode]
    refine ihf.bind fun first' hfirst => ?_
    refine (tellsOf_reduceLinks ihl).bind fun links' hlinks => ?_
    exact tellsOf_rebuild hlevel (sameValues_reduceLinks hl hlinks)
      (value?_of_reduceNode hf hfirst) span

theorem records_reduce_of_count_eq_zero {e : Expr} (h : e.count .pow = 0) :
    (e.reduce pow).records = [] := by
  rw [reduce, if_pos h, Traced.records_pure]

/-- What is told besides the powers is told before them, and after them if there is a result. -/
theorem records_reduce_of_count_ne_zero {e : Expr} (h : e.count .pow ≠ 0) :
    (∀ reduced, (e.reduceNode pow).outcome = .ok reduced → (e.reduce pow).records =
      .reducing (e.count .pow) e.text :: (e.reduceNode pow).records ++ [.reduced reduced.text]) ∧
    ∀ err, (e.reduceNode pow).outcome = .error err → (e.reduce pow).records =
      .reducing (e.count .pow) e.text :: (e.reduceNode pow).records := by
  rw [reduce, if_neg h]
  constructor
  · intro reduced hr
    rw [Traced.records_bind_ok (Traced.outcome_tell _), Traced.records_bind_ok hr,
      Traced.records_bind_ok (Traced.outcome_tell _)]
    rfl
  · intro err herr
    rw [Traced.records_bind_ok (Traced.outcome_tell _), Traced.records_bind_error herr]
    rfl

/-- **Each power is computed exactly once.** If an expression has powers, its chains being of one
level each, then reducing it tells first how many powers there are and what the expression is. If
it succeeds, it goes on with one record for each power, in the order in which they are listed, and
the last record names the result. If it fails, it goes on with the records of the first powers, not
of all, and nothing follows them. If there are no powers, nothing is told. All this is said of the
records and of their messages. -/
theorem IsLevelled.records_reduce {e : Expr} (h : e.IsLevelled)
    (pow : Binary64 → Binary64 → Binary64) :
    (e.count .pow = 0 → (e.reduce pow).records = []) ∧
    (e.count .pow ≠ 0 →
      (∀ reduced, (e.reduce pow).outcome = .ok reduced → ∃ steps : List PowerStep,
        steps.length = e.count .pow ∧ List.Forall₂ (IsStepOf pow) e.powers steps ∧
        (e.reduce pow).records =
          .reducing (e.count .pow) e.text :: steps.map PowerStep.record ++
            [.reduced reduced.text] ∧
        (e.reduce pow).records.map Record.message =
          ("reducing " ++ toString (e.count .pow) ++ " exponent(s) in " ++ String.ofList e.text) ::
            steps.map PowerStep.text ++
            ["reduced expression: " ++ String.ofList reduced.text]) ∧
      ∀ err, (e.reduce pow).outcome = .error err → ∃ steps : List PowerStep,
        steps.length < e.count .pow ∧
        List.Forall₂ (IsStepOf pow) (e.powers.take steps.length) steps ∧
        (e.reduce pow).records =
          .reducing (e.count .pow) e.text :: steps.map PowerStep.record ∧
        (e.reduce pow).records.map Record.message =
          ("reducing " ++ toString (e.count .pow) ++ " exponent(s) in " ++ String.ofList e.text) ::
            steps.map PowerStep.text) := by
  have htells := @IsLevelled.tellsOf_reduceNode pow e h
  refine ⟨records_reduce_of_count_eq_zero, fun hcount => ?_⟩
  rw [outcome_reduce_of_count_ne_zero hcount]
  obtain ⟨hok, herror⟩ := @records_reduce_of_count_ne_zero pow e hcount
  constructor
  · intro reduced hr
    obtain ⟨steps, hsteps, hrecords⟩ := exists_steps_of_records (htells.ok reduced hr)
    have hall := hok reduced hr
    rw [hrecords] at hall
    refine ⟨steps, ?_, hsteps, hall, ?_⟩
    · rw [← hsteps.length_eq, length_powers]
    · rw [hall, List.map_append, map_message_reducing]
      rfl
  · intro err herr
    obtain ⟨hlt, htold⟩ := htells.error err herr
    obtain ⟨steps, hsteps, hrecords⟩ := exists_steps_of_records htold
    have hall := herror err herr
    rw [hrecords] at hall
    rw [hrecords, List.length_map] at hlt hsteps
    refine ⟨steps, ?_, hsteps, hall, ?_⟩
    · rwa [length_powers] at hlt
    · rw [hall, map_message_reducing]

/-- `2^(3^2)` has two powers, and is reduced to `512`. Of the two in `2^3^455`, where the power of
doubles has no value, only the first one is told. -/
theorem records_reduce_of_two_powers :
    ∃ e e' reduced err, parse 1 (tokenize "2^(3^2)".toList) = .ok e ∧
      parse 0 (tokenize "2^3^455".toList) = .ok e' ∧ e.IsLevelled ∧ e'.IsLevelled ∧
      e.count .pow = 2 ∧ e'.count .pow = 2 ∧
      (e.reduce fun _ _ => .nan).outcome = .ok reduced ∧
      (e'.reduce fun _ _ => .nan).outcome = .error err ∧
      (e.reduce fun _ _ => .nan).records.map Record.message =
        ["reducing 2 exponent(s) in 2^(3^2)", "3^2 = 9", "2^9 = 512", "reduced expression: 512"] ∧
      (e'.reduce fun _ _ => .nan).records.map Record.message =
        ["reducing 2 exponent(s) in 2^3^455", "2^3 = 8"] ∧
      (∃ steps : List PowerStep, steps.length = 2 ∧
        List.Forall₂ (IsStepOf fun _ _ => .nan) e.powers steps ∧
        steps.map PowerStep.text = ["3^2 = 9", "2^9 = 512"]) ∧
      ∃ steps : List PowerStep, steps.length < 2 ∧
        List.Forall₂ (IsStepOf fun _ _ => .nan) (e'.powers.take steps.length) steps ∧
        steps.map PowerStep.text = ["2^3 = 8"] := by
  let square : Expr := .chain (.literal (.int 3) ⟨3, 4⟩) [⟨.pow, .literal (.int 2) ⟨5, 6⟩⟩] ⟨2, 7⟩
  let e : Expr := .chain (.literal (.int 2) ⟨0, 1⟩) [⟨.pow, square⟩] ⟨0, 7⟩
  let e' : Expr := .chain (.literal (.int 2) ⟨0, 1⟩)
    [⟨.pow, .literal (.int 3) ⟨2, 3⟩⟩, ⟨.pow, .literal (.int 455) ⟨4, 7⟩⟩] ⟨0, 7⟩
  have hparse : parse 1 (tokenize "2^(3^2)".toList) = .ok e := rfl
  have hparse' : parse 0 (tokenize "2^3^455".toList) = .ok e' := rfl
  have hreduce : (e.reduce fun _ _ => .nan).outcome = .ok (.literal (.int 512) ⟨0, 7⟩) :=
    Except.toOption_eq_some_iff.mp (by decide +kernel)
  obtain ⟨err, herr⟩ : ∃ err, (e'.reduce fun _ _ => .nan).outcome = .error err :=
    Except.toOption_eq_none_iff.mp (by decide +kernel)
  have hlines : (e.reduce fun _ _ => .nan).records.map Record.message =
      ["reducing 2 exponent(s) in 2^(3^2)", "3^2 = 9", "2^9 = 512", "reduced expression: 512"] := by
    decide +kernel
  have hlines' : (e'.reduce fun _ _ => .nan).records.map Record.message =
      ["reducing 2 exponent(s) in 2^3^455", "2^3 = 8"] := by
    decide +kernel
  have hlevelled := isLevelled_of_parse hparse
  have hlevelled' := isLevelled_of_parse hparse'
  obtain ⟨steps, hlength, hsteps, -, htold⟩ :=
    ((hlevelled.records_reduce fun _ _ => .nan).2 (by decide)).1 _ hreduce
  obtain ⟨steps', hlength', hsteps', -, htold'⟩ :=
    ((hlevelled'.records_reduce fun _ _ => .nan).2 (by decide)).2 err herr
  rw [hlines, List.cons_append] at htold
  rw [hlines'] at htold'
  have htexts : ["3^2 = 9", "2^9 = 512"] = steps.map PowerStep.text :=
    (List.append_inj' (List.cons.inj htold).2 rfl).1
  exact ⟨e, e', _, err, hparse, hparse', hlevelled, hlevelled', rfl, rfl, hreduce, herr, hlines,
    hlines', ⟨steps, hlength, hsteps, htexts.symm⟩, steps', hlength', hsteps',
    (List.cons.inj htold').2.symm⟩

end Expr

end Abacus
