import Abacus.Expr.Reduce
import Abacus.Proofs.Recognition

/-!
# The value of a reduced expression

An expression has the same value whether or not its powers are reduced first, and has none in
the one way exactly if it has none in the other (`evaluate_eq_ok_iff_reduce`). The operators of
each chain have to be of one level, as they are in every expression that is parsed.

The two ways do the operations in different orders: evaluating goes through a chain operand by
operand, reducing goes through all operands first. So they may fail with different errors, and
what is compared is the value, if there is one (`value?`). Among computations that tell nothing
but whether they succeed, the order makes no difference (`Option.bind_comm`), and with it the
proof is a plain induction on the expression. Nothing about the arithmetic is used, only that a
power in a chain that is evaluated goes on as what its literal stands for.
-/

namespace Abacus

theorem Except.toOption_bind {ε α β : Type} (x : Except ε α) (f : α → Except ε β) :
    (x >>= f).toOption = x.toOption.bind fun a => (f a).toOption := by
  cases x <;> rfl

theorem Except.toOption_eq_some_iff {ε α : Type} {x : Except ε α} {a : α} :
    x.toOption = some a ↔ x = .ok a := by
  cases x <;> simp [Except.toOption]

theorem Except.toOption_eq_none_iff {ε α : Type} {x : Except ε α} :
    x.toOption = none ↔ ∃ e, x = .error e := by
  cases x <;> simp [Except.toOption]

theorem Except.ok_bind {ε α β : Type} (a : α) (f : α → Except ε β) :
    (Except.ok a >>= f) = f a := rfl

theorem Except.error_bind {ε α β : Type} (e : ε) (f : α → Except ε β) :
    (Except.error e >>= f) = .error e := rfl

theorem Except.bind_eq_ok_iff {ε α β : Type} {x : Except ε α} {f : α → Except ε β} {b : β} :
    x >>= f = .ok b ↔ ∃ a, x = .ok a ∧ f a = .ok b := by
  cases x with
  | error e => simp [bind, Except.bind]
  | ok a => simp [bind, Except.bind]

theorem Except.bind_eq_error_iff {ε α β : Type} {x : Except ε α} {f : α → Except ε β} {e : ε} :
    x >>= f = .error e ↔ x = .error e ∨ ∃ a, x = .ok a ∧ f a = .error e := by
  cases x with
  | error e' => simp [bind, Except.bind]
  | ok a => simp [bind, Except.bind]

namespace Expr

variable (pow : Binary64 → Binary64 → Binary64)

/-! ### Values without errors -/

/-- The value of an expression, if it has one. -/
def value? (e : Expr) : Option Value := (e.evaluate pow).toOption

/-- What links make of a value, if they make one of it. -/
def linksValue? (acc : Value) : List Link → Option Value
  | [] => some acc
  | link :: rest =>
    (link.operand.value? pow).bind fun right =>
      (Value.apply pow link.operator acc right).toOption.bind fun result =>
        linksValue? (resume link.operator result) rest

variable {pow}

theorem value?_eq_some_iff {e : Expr} {v : Value} :
    e.value? pow = some v ↔ e.evaluate pow = .ok v := Except.toOption_eq_some_iff

theorem linksValue?_append (links links' : List Link) (acc : Value) :
    linksValue? pow acc (links ++ links') =
      (linksValue? pow acc links).bind fun value => linksValue? pow value links' := by
  induction links generalizing acc with
  | nil => rfl
  | cons link rest ih =>
    simp only [List.cons_append, linksValue?, Option.bind_assoc, ih]

/-- Whether links have a value does not depend on whom they blame. -/
theorem toOption_evaluateLinks (blame : Nat → ArithmeticFault → EvalError) (links : List Link)
    (acc : Value) (index : Nat) :
    (evaluateLinks pow blame acc index links).toOption = linksValue? pow acc links := by
  induction links generalizing acc index with
  | nil => rfl
  | cons link rest ih =>
    obtain ⟨op, operand⟩ := link
    rw [evaluateLinks, Except.toOption_bind, linksValue?]
    congr 1
    funext right
    cases Value.apply pow op acc right with
    | ok result => exact ih (resume op result) (index + 1)
    | error fault => rfl

theorem value?_literal (value : Literal) (span : Span) :
    (literal value span).value? pow = some (.ofLiteral value) := by
  rw [value?, evaluate]
  rfl

theorem value?_chain (first : Expr) (links : List Link) (span : Span) :
    (chain first links span).value? pow =
      (first.value? pow).bind fun acc => linksValue? pow acc links := by
  rw [value?, evaluate, Except.toOption_bind]
  congr 1
  funext acc
  exact toOption_evaluateLinks _ _ _ _

theorem value?_withSpan (span : Span) (e : Expr) : (e.withSpan span).value? pow = e.value? pow := by
  cases e with
  | literal => rw [withSpan, value?_literal, value?_literal]
  | chain => rw [withSpan, value?_chain, value?_chain]

theorem value?_ofChain (first : Expr) (links : List Link) :
    (ofChain first links).value? pow =
      (first.value? pow).bind fun acc => linksValue? pow acc links := by
  by_cases h : links = []
  · rw [h, ofChain_nil]
    simp [linksValue?]
  · obtain ⟨span, hchain⟩ := exists_ofChain_eq first h
    rw [hchain, value?_chain]

/-! ### Folding powers -/

/-- A chain that begins with a power has no other operators. -/
def PowersOnly (links : List Link) : Prop :=
  links.head?.any (·.operator = .pow) → ∀ link ∈ links, link.operator = .pow

theorem SameLevel.powersOnly {links : List Link} (h : SameLevel links) : PowersOnly links := by
  intro hpow link hm
  cases links with
  | nil => cases hm
  | cons head rest =>
    have hlevel := h link hm
    have hhead : head.operator = .pow := by simpa using hpow
    simp only [level, List.head?_cons, Option.map_some, Option.getD_some, hhead] at hlevel
    cases hop : link.operator <;> simp_all [Operator.precedence]

/-- The literal of a folded power has the value with which evaluating the chain goes on. -/
theorem value?_literal_toLiteral (value : Value) (span : Span) :
    (literal value.toLiteral span).value? pow = some (resume .pow value) := by
  rw [value?_literal, resume, Value.retype]

theorem toOption_evaluateReal (e : Expr) :
    (e.evaluateReal pow).toOption = (e.value? pow).map Value.toReal := by
  rw [evaluateReal, value?]
  cases e.evaluate pow <;> rfl

/-- The literal to which powers are folded has the value of the chain. -/
theorem value?_foldPowers {links : List Link} (h : ∀ link ∈ links, link.operator = .pow)
    (span : Span) (acc : Expr) :
    ((foldPowers pow span acc links).outcome.toOption.bind (value? pow)) =
      (acc.value? pow).bind fun a => linksValue? pow a links := by
  induction links generalizing acc with
  | nil => simp [foldPowers, linksValue?, Except.toOption]
  | cons link rest ih =>
    obtain ⟨op, operand⟩ := link
    rw [List.forall_mem_cons] at h
    obtain ⟨rfl, hrest⟩ : op = .pow ∧ ∀ link ∈ rest, link.operator = .pow := h
    simp only [foldPowers, Traced.outcome_bind, Traced.outcome_lift, Except.toOption_bind,
      toOption_evaluateReal, Option.bind_map, Function.comp_def, Option.bind_assoc, linksValue?]
    congr 1
    funext base
    congr 1
    funext exponent
    simp only [Value.apply]
    cases Value.power pow base.toReal exponent.toReal with
    | error fault => rfl
    | ok value =>
      have hstep := ih hrest (.literal value.toLiteral
        (if rest.isEmpty then span else acc.span.cover operand.span))
      rw [value?_literal_toLiteral] at hstep
      exact hstep

theorem value?_rebuild {links : List Link} (h : PowersOnly links) (first : Expr) (span : Span) :
    ((rebuild pow first links span).outcome.toOption.bind (value? pow)) =
      (first.value? pow).bind fun a => linksValue? pow a links := by
  unfold rebuild
  split
  · next hpow => exact value?_foldPowers (h hpow) span first
  · rw [← value?_ofChain, ← value?_withSpan span]
    rfl

/-! ### Reducing -/

/-- Reducing the operands of links leaves their operators. -/
theorem map_operator_reduceLinks {links reduced : List Link}
    (h : (reduceLinks pow links).outcome = .ok reduced) :
    reduced.map Link.operator = links.map Link.operator := by
  induction links generalizing reduced with
  | nil =>
    cases h
    rfl
  | cons link rest ih =>
    obtain ⟨op, operand⟩ := link
    simp only [reduceLinks, Traced.outcome_bind, Except.bind_eq_ok_iff, Traced.outcome_pure,
      Except.ok.injEq] at h
    obtain ⟨operand', -, rest', hr, rfl⟩ := h
    rw [List.map_cons, List.map_cons, ih hr]

theorem PowersOnly.of_map_operator {links reduced : List Link} (h : PowersOnly links)
    (hops : reduced.map Link.operator = links.map Link.operator) : PowersOnly reduced := by
  intro hpow link hm
  have hhead : links.head?.any (·.operator = .pow) := by
    cases links <;> cases reduced <;> simp_all
  have hmem : link.operator ∈ links.map Link.operator := hops ▸ List.mem_map_of_mem hm
  obtain ⟨link', hm', heq⟩ := List.mem_map.mp hmem
  rw [← heq, h hhead link' hm']

variable (pow) in
/-- What links make of a value if each operand is reduced before it is evaluated. -/
def linksReducedValue? (acc : Value) : List Link → Option Value
  | [] => some acc
  | link :: rest =>
    ((link.operand.reduceNode pow).outcome.toOption.bind (value? pow)).bind fun right =>
      (Value.apply pow link.operator acc right).toOption.bind fun result =>
        linksReducedValue? (resume link.operator result) rest

/-- Links can be reduced all at once, or operand by operand while a value goes through them. -/
theorem bind_linksValue?_reduceLinks (links : List Link) (acc : Value) :
    ((reduceLinks pow links).outcome.toOption.bind (linksValue? pow acc)) =
      linksReducedValue? pow acc links := by
  induction links generalizing acc with
  | nil => rfl
  | cons link rest ih =>
    obtain ⟨op, operand⟩ := link
    simp only [reduceLinks, Traced.outcome_bind, Except.toOption_bind, Option.bind_assoc,
      Traced.outcome_pure, linksReducedValue?]
    congr 1
    funext operand'
    simp only [Except.toOption, Option.bind_some, linksValue?]
    rw [Option.bind_comm]
    congr 1
    funext right
    rw [Option.bind_comm]
    congr 1
    funext result
    exact ih _

/-- Reduced links make the same of a value, if the operands keep their values. -/
theorem linksReducedValue?_eq {links : List Link}
    (h : ∀ link ∈ links, ((link.operand.reduceNode pow).outcome.toOption.bind (value? pow)) =
      link.operand.value? pow) (acc : Value) :
    linksReducedValue? pow acc links = linksValue? pow acc links := by
  induction links generalizing acc with
  | nil => rfl
  | cons link rest ih =>
    rw [List.forall_mem_cons] at h
    rw [linksReducedValue?, linksValue?, h.1]
    congr 1
    funext right
    congr 1
    funext result
    exact ih h.2 _

/-- The value of a reduced chain, from the values of its reduced operands. -/
theorem value?_reduceNode_chain {links : List Link} (h : PowersOnly links) (first : Expr)
    (span : Span) :
    (((chain first links span).reduceNode pow).outcome.toOption.bind (value? pow)) =
      ((first.reduceNode pow).outcome.toOption.bind (value? pow)).bind fun acc =>
        linksReducedValue? pow acc links := by
  rw [reduceNode]
  simp only [Traced.outcome_bind, Except.toOption_bind, Option.bind_assoc]
  congr 1
  funext first'
  calc _ = (reduceLinks pow links).outcome.toOption.bind fun reduced =>
        (first'.value? pow).bind fun acc => linksValue? pow acc reduced := by
        refine Option.bind_congr fun reduced hr => ?_
        have hops := map_operator_reduceLinks (Except.toOption_eq_some_iff.mp hr)
        exact value?_rebuild (h.of_map_operator hops) first' span
    _ = (first'.value? pow).bind fun acc =>
        (reduceLinks pow links).outcome.toOption.bind (linksValue? pow acc) := Option.bind_comm _ _
    _ = (first'.value? pow).bind fun acc => linksReducedValue? pow acc links := by
        congr 1
        funext acc
        exact bind_linksValue?_reduceLinks links acc

/-- **Reducing keeps the value**, and keeps whether there is one. -/
theorem value?_reduceNode {e : Expr} (h : e.IsLevelled) :
    ((e.reduceNode pow).outcome.toOption.bind (value? pow)) = e.value? pow := by
  induction h with
  | literal => rfl
  | @chain first links span hlevel _ _ ihf ihl =>
    rw [value?_reduceNode_chain hlevel.powersOnly, ihf, value?_chain]
    congr 1
    funext acc
    exact linksReducedValue?_eq ihl acc

/-- An expression without powers is left as it is, and every other one is reduced. -/
theorem bind_value?_reduce (e : Expr) :
    ((e.reduce pow).outcome.toOption.bind (value? pow)) =
      if e.count .pow = 0 then e.value? pow
      else (e.reduceNode pow).outcome.toOption.bind (value? pow) := by
  unfold reduce
  split
  · rfl
  · simp only [Traced.outcome_bind, Traced.outcome_tell, Except.toOption_bind]
    congr 1
    cases (e.reduceNode pow).outcome <;> rfl

theorem value?_reduce {e : Expr} (h : e.IsLevelled) :
    ((e.reduce pow).outcome.toOption.bind (value? pow)) = e.value? pow := by
  rw [bind_value?_reduce, value?_reduceNode h, ite_self]

/-- Each chain of a parsed expression has at least one link and operators of one level. -/
theorem isRegular_of_parse {maxDepth : Nat} {tokens : List Token} {e : Expr}
    (h : parse maxDepth tokens = .ok e) : e.IsRegular := by
  obtain ⟨d, hd, -, -, rfl⟩ := exists_derivation_of_parse h
  exact hd.everywhere_expr fun _ _ _ _ => trivial

theorem isLevelled_of_parse {maxDepth : Nat} {tokens : List Token} {e : Expr}
    (h : parse maxDepth tokens = .ok e) : e.IsLevelled :=
  (isRegular_of_parse h).isLevelled

/-- **Evaluating with and without reducing**: every parsed expression is levelled, and a levelled
expression has a value if and only if it can be reduced and the reduced expression has that
value. One way fails exactly when the other does, whatever the power of doubles is. -/
theorem evaluate_eq_ok_iff_reduce (pow : Binary64 → Binary64 → Binary64) :
    (∀ maxDepth tokens e, parse maxDepth tokens = .ok e → e.IsLevelled) ∧
    ∀ e : Expr, e.IsLevelled →
      (∀ value, e.evaluate pow = .ok value ↔
        ∃ reduced, (e.reduce pow).outcome = .ok reduced ∧ reduced.evaluate pow = .ok value) ∧
      ((∃ error, e.evaluate pow = .error error) ↔
        (∃ error, (e.reduce pow).outcome = .error error) ∨
        ∃ reduced error, (e.reduce pow).outcome = .ok reduced ∧
          reduced.evaluate pow = .error error) := by
  refine ⟨fun _ _ _ => isLevelled_of_parse, fun e he => ?_⟩
  have hvalue := @value?_reduce pow e he
  constructor
  · intro value
    rw [← Except.toOption_eq_some_iff, ← value?, ← hvalue, Option.bind_eq_some_iff]
    simp only [value?, Except.toOption_eq_some_iff]
  · rw [← Except.toOption_eq_none_iff, ← value?, ← hvalue, Option.bind_eq_none_iff]
    cases hr : (e.reduce pow).outcome with
    | error error => simp [Except.toOption]
    | ok reduced => simp [Except.toOption, value?, ← Except.toOption_eq_none_iff]

/-- `2*3^2` has the value 18, and so has `2*9`, to which it is reduced. -/
theorem evaluate_reduced_product_with_power :
    (chain (.literal (.int 2) ⟨0, 1⟩) [⟨.mul, .chain (.literal (.int 3) ⟨2, 3⟩)
      [⟨.pow, .literal (.int 2) ⟨4, 5⟩⟩] ⟨2, 5⟩⟩] ⟨0, 5⟩).IsLevelled ∧
    ∃ reduced, ((chain (.literal (.int 2) ⟨0, 1⟩) [⟨.mul, .chain (.literal (.int 3) ⟨2, 3⟩)
      [⟨.pow, .literal (.int 2) ⟨4, 5⟩⟩] ⟨2, 5⟩⟩] ⟨0, 5⟩).reduce fun x _ => x).outcome =
        .ok reduced ∧
      reduced.evaluate (fun x _ => x) = .ok (.int32 18) :=
  have hlevelled := (evaluate_eq_ok_iff_reduce fun x _ => x).1 0 (tokenize "2*3^2".toList) _ rfl
  have hvalue := Except.toOption_eq_some_iff.mp (by decide +kernel)
  ⟨hlevelled, (((evaluate_eq_ok_iff_reduce fun x _ => x).2 _ hlevelled).1 _).mp hvalue⟩

end Expr

end Abacus
