import Abacus.Token
import Abacus.Proofs.Shape

/-!
# The grammar of expressions

The grammar, and the derivations in it:

    sum     := product (("+" | "-") product)*
    product := power (("*" | "/") power)*
    power   := operand ("^" operand)*
    operand := integer | "(" sum ")"

A derivation is kept as data: which rule was used, for which tokens, with which derivations
below it. `IsA phrase d` says that `d` is built by the rules as a derivation of `phrase`. The
tokens that are derived, how many parentheses are open at once and the expression that is
meant are functions of it. The expression has one chain for each repetition with an operator,
and nothing for a repetition without one or for parentheses, which only widen a span.

The grammar is unambiguous (`IsA.eq_of_tokens_append`): two derivations of a phrase that begin
the same tokens, each up to where the phrase can go no further, are the same derivation.
-/

namespace Abacus

/-- The phrases of the grammar. All but the last are repetitions of the next one. -/
inductive Phrase where
  | sum
  | product
  | power
  | operand
  deriving DecidableEq

namespace Phrase

/-- What a phrase is a repetition of. -/
def part : Phrase → Phrase
  | sum => product
  | product => power
  | power | operand => operand

/-- The operators between the parts of a phrase. -/
def operators : Phrase → List Operator
  | sum => [.add, .sub]
  | product => [.mul, .div]
  | power => [.pow]
  | operand => []

/-- How tight a phrase is. For a repetition it is the level of its operators. -/
def level : Phrase → Nat
  | sum => 1
  | product => 2
  | power => 3
  | operand => 4

theorem level_le_four (phrase : Phrase) : phrase.level ≤ 4 := by
  cases phrase <;> decide

theorem one_le_level (phrase : Phrase) : 1 ≤ phrase.level := by
  cases phrase <;> decide

theorem level_part {phrase : Phrase} (h : phrase ≠ operand) :
    phrase.part.level = phrase.level + 1 := by
  cases phrase <;> first | rfl | exact absurd rfl h

theorem eq_of_level_eq {phrase phrase' : Phrase} (h : phrase.level = phrase'.level) :
    phrase = phrase' := by
  cases phrase <;> cases phrase' <;> first | rfl | exact absurd h (by decide)

theorem mem_operators_iff {phrase : Phrase} {op : Operator} :
    op ∈ phrase.operators ↔ op.precedence = phrase.level := by
  cases phrase <;> cases op <;> decide

end Phrase

/-- The phrase whose parts an operator stands between. -/
def Operator.phrase : Operator → Phrase
  | .add | .sub => .sum
  | .mul | .div => .product
  | .pow => .power

@[simp] theorem Operator.level_phrase (op : Operator) : op.phrase.level = op.precedence := by
  cases op <;> rfl

theorem Operator.phrase_ne_operand (op : Operator) : op.phrase ≠ .operand := by
  cases op <;> decide

mutual

/-- A derivation: the rule that was used, and what it was used for. -/
inductive Derivation where
  /-- `operand := integer`. -/
  | number (token : Token) (value : Int64)
  /-- `operand := "(" sum ")"`. -/
  | group (opening : Token) (inner : Derivation) (closing : Token)
  /-- `phrase := part (operator part)*`. -/
  | repetition (first : Derivation) (steps : List Step)

/-- An operator in a repetition, and the part after it. -/
structure Step where
  token : Token
  operator : Operator
  part : Derivation

end

/-- The token of a step is its operator, and one of the phrase. -/
def Step.Joins (phrase : Phrase) (step : Step) : Prop :=
  step.token.kind = .operator step.operator ∧ step.operator ∈ phrase.operators

namespace Derivation

mutual

/-- The tokens that are derived. -/
def tokens : Derivation → List Token
  | number token _ => [token]
  | group opening inner closing => opening :: (inner.tokens ++ [closing])
  | repetition first steps => first.tokens ++ stepTokens steps

/-- The tokens of the steps of a repetition. -/
def stepTokens : List Step → List Token
  | [] => []
  | ⟨token, _, part⟩ :: rest => token :: (part.tokens ++ stepTokens rest)

end

mutual

/-- How many parentheses are open at once. -/
def depth : Derivation → Nat
  | number .. => 0
  | group _ inner _ => inner.depth + 1
  | repetition first steps => max first.depth (stepDepth steps)

/-- How many parentheses are open at once in the steps of a repetition. -/
def stepDepth : List Step → Nat
  | [] => 0
  | ⟨_, _, part⟩ :: rest => max part.depth (stepDepth rest)

end

mutual

/-- The expression that is meant, with the spans of its tokens. -/
def expr : Derivation → Expr
  | number token value => .literal (.int value) token.span
  | group opening inner closing => inner.expr.withSpan (opening.span.cover closing.span)
  | repetition first steps => .ofChain first.expr (stepLinks steps)

/-- The links that are meant by the steps of a repetition. -/
def stepLinks : List Step → List Link
  | [] => []
  | ⟨_, operator, part⟩ :: rest => ⟨operator, part.expr⟩ :: stepLinks rest

end

mutual

/-- The expression that is meant, without spans: one flat chain for each repetition that has
an operator, in the order of the tokens, and no node for anything else. -/
def tree : Derivation → Expr
  | number _ value => .literal (.int value) default
  | group _ inner _ => inner.tree
  | repetition first [] => first.tree
  | repetition first (step :: rest) => .chain first.tree (stepTrees (step :: rest)) default

/-- The links that are meant by the steps of a repetition, without spans. -/
def stepTrees : List Step → List Link
  | [] => []
  | ⟨_, operator, part⟩ :: rest => ⟨operator, part.tree⟩ :: stepTrees rest

end

/-- The rules of the grammar. -/
inductive IsA : Phrase → Derivation → Prop where
  | number {token : Token} {value : Int64} :
      token.kind = .integer value → IsA .operand (.number token value)
  | group {opening closing : Token} {inner : Derivation} :
      opening.kind = .leftParen → IsA .sum inner → closing.kind = .rightParen →
      IsA .operand (.group opening inner closing)
  | repetition {phrase : Phrase} {first : Derivation} {steps : List Step} :
      phrase ≠ .operand → IsA phrase.part first →
      (∀ step ∈ steps, step.Joins phrase) →
      (∀ step ∈ steps, IsA phrase.part step.part) →
      IsA phrase (.repetition first steps)

theorem stepTokens_cons (step : Step) (rest : List Step) :
    stepTokens (step :: rest) = step.token :: (step.part.tokens ++ stepTokens rest) := by
  obtain ⟨token, operator, part⟩ := step
  rw [stepTokens]

theorem mem_stepTokens {steps : List Step} {step : Step} (hm : step ∈ steps) {token : Token}
    (ht : token ∈ step.part.tokens) : token ∈ stepTokens steps := by
  induction hm with
  | head => simp [stepTokens_cons, ht]
  | tail _ _ ih => simp [stepTokens_cons, ih]

@[simp] theorem stepTokens_append (steps steps' : List Step) :
    stepTokens (steps ++ steps') = stepTokens steps ++ stepTokens steps' := by
  induction steps with
  | nil => rfl
  | cons step rest ih =>
    obtain ⟨token, operator, part⟩ := step
    simp [stepTokens, ih]

@[simp] theorem stepDepth_append (steps steps' : List Step) :
    stepDepth (steps ++ steps') = max (stepDepth steps) (stepDepth steps') := by
  induction steps with
  | nil => simp [stepDepth]
  | cons step rest ih =>
    obtain ⟨token, operator, part⟩ := step
    simp [stepDepth, ih, Nat.max_assoc]

theorem depth_le_stepDepth {steps : List Step} {step : Step} (hm : step ∈ steps) :
    step.part.depth ≤ stepDepth steps := by
  induction steps with
  | nil => cases hm
  | cons head rest ih =>
    obtain ⟨token, op, part⟩ := head
    rw [stepDepth]
    rcases List.mem_cons.mp hm with rfl | hm
    · exact Nat.le_max_left _ _
    · exact Nat.le_trans (ih hm) (Nat.le_max_right _ _)

theorem stepLinks_eq_map (steps : List Step) :
    stepLinks steps = steps.map fun step => ⟨step.operator, step.part.expr⟩ := by
  induction steps with
  | nil => rfl
  | cons step rest ih =>
    obtain ⟨token, operator, part⟩ := step
    rw [stepLinks, ih, List.map_cons]

theorem stepLinks_ne_nil {steps : List Step} (h : steps ≠ []) : stepLinks steps ≠ [] := by
  rwa [stepLinks_eq_map, Ne, List.map_eq_nil_iff]

theorem forall_mem_stepLinks {p : Link → Prop} {steps : List Step} :
    (∀ link ∈ stepLinks steps, p link) ↔ ∀ step ∈ steps, p ⟨step.operator, step.part.expr⟩ := by
  rw [stepLinks_eq_map, List.forall_mem_map]

/-- The links of a repetition have operators of the level of the phrase. -/
theorem precedence_of_mem_stepLinks {phrase : Phrase} {steps : List Step}
    (h : ∀ step ∈ steps, step.Joins phrase) :
    ∀ link ∈ stepLinks steps, link.operator.precedence = phrase.level :=
  forall_mem_stepLinks.mpr fun step hm => Phrase.mem_operators_iff.mp (h step hm).2

mutual

/-- Forgetting the spans of the expression that is meant gives the tree that is meant. -/
theorem eraseSpans_expr : ∀ d : Derivation, d.expr.eraseSpans = d.tree
  | number _ _ => rfl
  | group _ inner _ => by rw [expr, tree, Expr.eraseSpans_withSpan, eraseSpans_expr inner]
  | repetition first [] => by rw [expr, tree, stepLinks, Expr.ofChain_nil, eraseSpans_expr first]
  | repetition first (⟨t, op, part⟩ :: rest) => by
    rw [expr, tree, Expr.eraseSpans_ofChain _ (by simp [stepLinks]), eraseSpans_expr first,
      eraseLinkSpans_stepLinks (⟨t, op, part⟩ :: rest)]

/-- Forgetting the spans of the links that are meant. -/
theorem eraseLinkSpans_stepLinks :
    ∀ steps : List Step, Expr.eraseLinkSpans (stepLinks steps) = stepTrees steps
  | [] => rfl
  | ⟨_, _, part⟩ :: rest => by
    rw [stepLinks, stepTrees, Expr.eraseLinkSpans, eraseSpans_expr part,
      eraseLinkSpans_stepLinks rest]

end

theorem IsA.tokens_ne_nil {phrase : Phrase} {d : Derivation} (h : IsA phrase d) : d.tokens ≠ [] := by
  induction h with
  | number | group => simp [tokens]
  | repetition _ _ _ _ ih => simp [tokens, ih]

/-! ### A tighter phrase as a weaker one -/

/-- The derivation, as one of a phrase that is a number of levels weaker. -/
def lift : Nat → Derivation → Derivation
  | 0, d => d
  | n + 1, d => .repetition (lift n d) []

@[simp] theorem tokens_lift (n : Nat) (d : Derivation) : (lift n d).tokens = d.tokens := by
  induction n with
  | zero => rfl
  | succ n ih => rw [lift, tokens, ih, stepTokens, List.append_nil]

@[simp] theorem depth_lift (n : Nat) (d : Derivation) : (lift n d).depth = d.depth := by
  induction n with
  | zero => rfl
  | succ n ih => rw [lift, depth, ih, stepDepth, Nat.max_zero]

@[simp] theorem expr_lift (n : Nat) (d : Derivation) : (lift n d).expr = d.expr := by
  induction n with
  | zero => rfl
  | succ n ih => rw [lift, expr, ih, stepLinks, Expr.ofChain_nil]

@[simp] theorem tree_lift (n : Nat) (d : Derivation) : (lift n d).tree = d.tree := by
  induction n with
  | zero => rfl
  | succ n ih => rw [lift, tree, ih]

theorem IsA.lift {phrase : Phrase} {d : Derivation} (h : IsA phrase d) {n : Nat}
    {weaker : Phrase} (hn : weaker.level + n = phrase.level) : IsA weaker (lift n d) := by
  induction n generalizing weaker with
  | zero => rwa [Phrase.eq_of_level_eq (show weaker.level = phrase.level from hn)]
  | succ n ih =>
    have hw : weaker ≠ .operand := by
      rintro rfl
      have := phrase.level_le_four
      simp only [Phrase.level] at hn this
      omega
    refine .repetition hw (ih ?_) (by simp) (by simp)
    rw [Phrase.level_part hw]
    omega

/-- A derivation of a phrase is one of every weaker phrase, for the same tokens. -/
theorem IsA.exists_weaker {phrase : Phrase} {d : Derivation} (h : IsA phrase d)
    (weaker : Phrase) (hw : weaker.level ≤ phrase.level) :
    ∃ d', IsA weaker d' ∧ d'.tokens = d.tokens ∧ d'.depth = d.depth ∧ d'.tree = d.tree :=
  ⟨d.lift (phrase.level - weaker.level), h.lift (by omega), by simp, by simp, by simp⟩

/-! ### One more operand -/

/-- A derivation of a phrase goes on with an operator of its level, or a tighter one, and
another operand. -/
theorem IsA.exists_extension {phrase : Phrase} {d : Derivation} (h : IsA phrase d) {token : Token}
    {op : Operator} {operand : Derivation} (hk : token.kind = .operator op)
    (ho : IsA .operand operand) (hp : phrase.level ≤ op.precedence) :
    ∃ d', IsA phrase d' ∧ d'.tokens = d.tokens ++ token :: operand.tokens ∧
      d'.depth = max d.depth operand.depth := by
  induction h with
  | number | group => exact absurd hp (by cases op <;> decide)
  | @repetition phrase first steps hne hf hs hparts ihf ihs =>
    by_cases hop : op ∈ phrase.operators
    · -- the operator is of this level: the repetition gets one more step
      obtain ⟨part, hpart, ht, hd, -⟩ := ho.exists_weaker phrase.part phrase.part.level_le_four
      refine ⟨.repetition first (steps ++ [⟨token, op, part⟩]), .repetition hne hf ?_ ?_, ?_, ?_⟩
      · rw [List.forall_mem_append, List.forall_mem_singleton]
        exact ⟨hs, hk, hop⟩
      · rw [List.forall_mem_append, List.forall_mem_singleton]
        exact ⟨hparts, hpart⟩
      · simp [tokens, stepTokens, ht]
      · simp [depth, stepDepth, hd, Nat.max_assoc]
    · -- the operator is tighter: it goes to the last part
      have hlevel : phrase.part.level ≤ op.precedence := by
        rw [Phrase.mem_operators_iff] at hop
        rw [Phrase.level_part hne]
        omega
      rcases List.eq_nil_or_concat steps with rfl | ⟨init, ⟨t, o, last⟩, rfl⟩
      · obtain ⟨first', hf', ht, hd⟩ := ihf hlevel
        refine ⟨.repetition first' [], .repetition hne hf' (by simp) (by simp), ?_, ?_⟩
        · simp [tokens, stepTokens, ht]
        · simp [depth, stepDepth, hd]
      · rw [List.concat_eq_append, List.forall_mem_append, List.forall_mem_singleton]
          at hs hparts ihs
        obtain ⟨last', hl', ht, hd⟩ := ihs.2 hlevel
        refine ⟨.repetition first (init ++ [⟨t, o, last'⟩]), .repetition hne hf ?_ ?_, ?_, ?_⟩
        · rw [List.forall_mem_append, List.forall_mem_singleton]
          exact hs
        · rw [List.forall_mem_append, List.forall_mem_singleton]
          exact ⟨hparts.1, hl'⟩
        · simp [tokens, stepTokens, ht]
        · simp [depth, stepDepth, hd, Nat.max_assoc]

/-! ### Unambiguity -/

/-- The phrase cannot go on with the tokens: they do not begin with an operator of its level
or a tighter one. -/
def Stops (phrase : Phrase) (tokens : List Token) : Prop :=
  ∀ token ∈ tokens.head?, ∀ op, token.kind = .operator op → op.precedence < phrase.level

theorem stops_nil (phrase : Phrase) : Stops phrase [] := by
  simp [Stops]

theorem stops_cons_rightParen (phrase : Phrase) {token : Token} (h : token.kind = .rightParen)
    (rest : List Token) : Stops phrase (token :: rest) := by
  simp [Stops, h]

/-- A part of a phrase cannot go on with the steps of the phrase. -/
theorem Stops.stepTokens_append {phrase : Phrase} (hp : phrase ≠ .operand) {steps : List Step}
    (hs : ∀ step ∈ steps, step.Joins phrase) {rest : List Token} (hr : Stops phrase rest) :
    Stops phrase.part (stepTokens steps ++ rest) := by
  rw [Stops, Phrase.level_part hp]
  cases steps with
  | nil => exact fun token ht op hk => Nat.lt_succ_of_lt (hr token ht op hk)
  | cons step steps =>
    obtain ⟨hk, hop⟩ := hs step (by simp)
    rw [Phrase.mem_operators_iff] at hop
    intro token ht op hk'
    obtain rfl : step.token = token := by simpa [stepTokens_cons] using ht
    rw [hk, TokenKind.operator.injEq] at hk'
    rw [← hk', hop]
    exact Nat.lt_succ_self _

/-- A step does not begin where a phrase stops. -/
theorem Stops.ne_stepTokens_cons_append {phrase : Phrase} {rest : List Token}
    (hr : Stops phrase rest) {step : Step} (hs : step.Joins phrase) (steps : List Step)
    (rest' : List Token) : rest ≠ stepTokens (step :: steps) ++ rest' := by
  rintro rfl
  have := hr step.token (by simp [stepTokens_cons]) step.operator hs.1
  rw [Phrase.mem_operators_iff.mp hs.2] at this
  exact Nat.lt_irrefl _ this

/-- Two repetitions that agree in how their parts are read agree in their steps. -/
theorem steps_eq_of_stepTokens_append {phrase : Phrase} (hp : phrase ≠ .operand)
    {steps steps' : List Step} {r r' : List Token}
    (hs : ∀ step ∈ steps, step.Joins phrase) (hs' : ∀ step ∈ steps', step.Joins phrase)
    (hi : ∀ step ∈ steps, ∀ {d' : Derivation}, IsA phrase.part d' → ∀ {r r' : List Token},
      step.part.tokens ++ r = d'.tokens ++ r' → Stops phrase.part r → Stops phrase.part r' →
      step.part = d' ∧ r = r')
    (hi' : ∀ step ∈ steps', IsA phrase.part step.part)
    (h : stepTokens steps ++ r = stepTokens steps' ++ r') (hr : Stops phrase r)
    (hr' : Stops phrase r') : steps = steps' ∧ r = r' := by
  induction steps generalizing steps' with
  | nil =>
    cases steps' with
    | nil => exact ⟨rfl, h⟩
    | cons step' steps' =>
      exact absurd h (hr.ne_stepTokens_cons_append (hs' _ (by simp)) _ _)
  | cons step steps ih =>
    cases steps' with
    | nil => exact absurd h.symm (hr'.ne_stepTokens_cons_append (hs _ (by simp)) _ _)
    | cons step' steps' =>
      obtain ⟨token, op, part⟩ := step
      obtain ⟨token', op', part'⟩ := step'
      rw [List.forall_mem_cons] at hs hs' hi hi'
      simp only [stepTokens, List.cons_append, List.append_assoc, List.cons.injEq] at h
      obtain ⟨rfl, h⟩ := h
      obtain ⟨hpart, h⟩ := hi.1 hi'.1 h (hr.stepTokens_append hp hs.2)
        (hr'.stepTokens_append hp hs'.2)
      obtain ⟨rfl, rfl⟩ := ih hs.2 hs'.2 hi.2 hi'.2 h
      have hop : op = op' := by simpa using hs.1.1.symm.trans hs'.1.1
      simp only at hpart
      subst hop hpart
      exact ⟨rfl, rfl⟩

/-- **The grammar is unambiguous**: derivations of a phrase that begin the same tokens, each up
to where the phrase cannot go on, are equal. -/
theorem IsA.eq_of_tokens_append {phrase : Phrase} {d d' : Derivation} (h : IsA phrase d)
    (h' : IsA phrase d') {r r' : List Token} (heq : d.tokens ++ r = d'.tokens ++ r')
    (hr : Stops phrase r) (hr' : Stops phrase r') : d = d' ∧ r = r' := by
  induction h generalizing d' r r' with
  | number hk =>
    cases h' with
    | number hk' =>
      simp only [tokens, List.cons_append, List.nil_append, List.cons.injEq] at heq
      obtain ⟨rfl, rfl⟩ := heq
      obtain rfl := TokenKind.integer.inj (hk.symm.trans hk')
      exact ⟨rfl, rfl⟩
    | group ho _ _ =>
      simp only [tokens, List.cons_append, List.nil_append, List.cons.injEq] at heq
      rw [heq.1, ho] at hk
      cases hk
    | repetition hne => exact absurd rfl hne
  | group ho _ hc ih =>
    cases h' with
    | number hk' =>
      simp only [tokens, List.cons_append, List.nil_append, List.cons.injEq] at heq
      rw [heq.1, hk'] at ho
      cases ho
    | group ho' hi' hc' =>
      simp only [tokens, List.cons_append, List.append_assoc, List.nil_append, List.cons.injEq]
        at heq
      obtain ⟨rfl, htokens⟩ := heq
      obtain ⟨rfl, hclosing⟩ := ih hi' htokens (stops_cons_rightParen _ hc _)
        (stops_cons_rightParen _ hc' _)
      obtain ⟨rfl, rfl⟩ := List.cons.inj hclosing
      exact ⟨rfl, rfl⟩
    | repetition hne => exact absurd rfl hne
  | repetition hne _ hs _ ihf ihs =>
    cases h' with
    | number | group => exact absurd rfl hne
    | repetition _ hf' hs' hp' =>
      simp only [tokens, List.append_assoc] at heq
      obtain ⟨rfl, hsteps⟩ := ihf hf' heq (hr.stepTokens_append hne hs)
        (hr'.stepTokens_append hne hs')
      obtain ⟨rfl, rfl⟩ := steps_eq_of_stepTokens_append hne hs hs' ihs hp' hsteps hr hr'
      exact ⟨rfl, rfl⟩

/-- There is at most one derivation of a phrase for given tokens. -/
theorem IsA.eq_of_tokens_eq {phrase : Phrase} {d d' : Derivation} (h : IsA phrase d)
    (h' : IsA phrase d') (heq : d.tokens = d'.tokens) : d = d' :=
  (h.eq_of_tokens_append h' (by rw [heq]) (stops_nil phrase) (stops_nil phrase)).1

end Derivation

end Abacus
