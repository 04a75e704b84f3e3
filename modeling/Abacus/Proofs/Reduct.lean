import Abacus.Proofs.ReducedValue

/-!
# What reducing makes of an expression

Reducing takes an expression apart and puts it together again, and what comes out is the same
expression but for its powers. `IsReduct` says so without the algorithm: each outermost chain of
powers has become a literal, which has the span of the chain and its value, and every other node
is as it was. No power is left (`IsRegular.count_pow_reduceNode`).

Where the chains are regular nothing else can happen. In an expression put together by hand a
chain may have no links, or begin with one operator and go on with another, and then powers may
be left. Still there is nothing more to be done after the first time (`reduceNode_reduceNode`).
-/

namespace Abacus

namespace Expr

variable {pow : Binary64 → Binary64 → Binary64}

/-! ### What happens at one node -/

/-- A chain is reduced by reducing its operands and putting the results together. -/
theorem outcome_reduceNode_chain_eq_ok_iff {first : Expr} {links : List Link} {span : Span}
    {reduced : Expr} :
    ((chain first links span).reduceNode pow).outcome = .ok reduced ↔
      ∃ first' links', (first.reduceNode pow).outcome = .ok first' ∧
        (reduceLinks pow links).outcome = .ok links' ∧
        (rebuild pow first' links' span).outcome = .ok reduced := by
  simp only [reduceNode, Traced.outcome_bind, Except.bind_eq_ok_iff]
  constructor
  · rintro ⟨first', hf, links', hl, hr⟩
    exact ⟨first', links', hf, hl, hr⟩
  · rintro ⟨first', links', hf, hl, hr⟩
    exact ⟨first', hf, links', hl, hr⟩

theorem outcome_reduceLinks_cons_eq_ok_iff {op : Operator} {operand : Expr} {rest : List Link}
    {reduced : List Link} :
    (reduceLinks pow (⟨op, operand⟩ :: rest)).outcome = .ok reduced ↔
      ∃ operand' rest', (operand.reduceNode pow).outcome = .ok operand' ∧
        (reduceLinks pow rest).outcome = .ok rest' ∧ reduced = ⟨op, operand'⟩ :: rest' := by
  simp only [reduceLinks, Traced.outcome_bind, Except.bind_eq_ok_iff, Traced.outcome_pure,
    Except.ok.injEq]
  constructor
  · rintro ⟨operand', ho, rest', hr, rfl⟩
    exact ⟨operand', rest', ho, hr, rfl⟩
  · rintro ⟨operand', rest', ho, hr, rfl⟩
    exact ⟨operand', ho, rest', hr, rfl⟩

/-- Folding a power computes it, and goes on with the literal of its value. -/
theorem outcome_foldPowers_cons_eq_ok_iff {span : Span} {acc : Expr} {link : Link}
    {rest : List Link} {reduced : Expr} :
    (foldPowers pow span acc (link :: rest)).outcome = .ok reduced ↔
      ∃ base exponent value, acc.evaluateReal pow = .ok base ∧
        link.operand.evaluateReal pow = .ok exponent ∧
        Value.power pow base exponent = .ok value ∧
        (foldPowers pow span (.literal value.toLiteral
          (if rest.isEmpty then span else acc.span.cover link.operand.span)) rest).outcome =
            .ok reduced := by
  obtain ⟨op, operand⟩ := link
  simp only [foldPowers, Traced.outcome_bind, Traced.outcome_lift, Except.bind_eq_ok_iff]
  constructor
  · rintro ⟨base, hb, exponent, he, h⟩
    cases hp : Value.power pow base exponent with
    | error fault => simp [hp] at h
    | ok value =>
      rw [hp] at h
      exact ⟨base, exponent, value, hb, he, hp, h⟩
  · rintro ⟨base, exponent, value, hb, he, hp, h⟩
    refine ⟨base, hb, exponent, he, ?_⟩
    rw [hp]
    exact h

/-- Powers are folded to a literal. It has the span of the chain, which is not used otherwise. -/
theorem exists_literal_of_foldPowers {span : Span} {acc : Expr} {links : List Link}
    {reduced : Expr} (hne : links ≠ [])
    (h : (foldPowers pow span acc links).outcome = .ok reduced) :
    ∃ value, reduced = .literal value span ∧
      ∀ span', (foldPowers pow span' acc links).outcome = .ok (.literal value span') := by
  induction links generalizing acc with
  | nil => exact absurd rfl hne
  | cons link rest ih =>
    rw [outcome_foldPowers_cons_eq_ok_iff] at h
    obtain ⟨base, exponent, value, hb, he, hp, h⟩ := h
    simp only [outcome_foldPowers_cons_eq_ok_iff]
    cases rest with
    | nil =>
      obtain rfl := Except.ok.inj h
      exact ⟨value.toLiteral, rfl, fun span' => ⟨base, exponent, value, hb, he, hp, rfl⟩⟩
    | cons next rest =>
      obtain ⟨value', hreduced, h'⟩ := ih (List.cons_ne_nil next rest) h
      exact ⟨value', hreduced, fun span' => ⟨base, exponent, value, hb, he, hp, h' span'⟩⟩

/-- A chain that does not begin with a power is put together again with its own span. -/
theorem outcome_rebuild_of_not_pow {first : Expr} {links : List Link} {span : Span}
    (h : ¬ links.head?.any (·.operator = .pow)) (hne : links ≠ []) :
    (rebuild pow first links span).outcome = .ok (.chain first links span) := by
  obtain ⟨span', hchain⟩ := exists_ofChain_eq first hne
  rw [rebuild, if_neg h, hchain, withSpan, Traced.outcome_pure]

theorem outcome_rebuild_of_pow {first : Expr} {links : List Link} {span : Span}
    (h : links.head?.any (·.operator = .pow)) :
    (rebuild pow first links span).outcome = (foldPowers pow span first links).outcome := by
  rw [rebuild, if_pos h]

theorem ne_nil_of_head?_any {links : List Link} {p : Link → Bool} (h : links.head?.any p) :
    links ≠ [] := by
  rintro rfl
  cases h

theorem head?_any_pow_iff {links : List Link} :
    links.head?.any (·.operator = .pow) ↔ level links = Operator.pow.precedence := by
  cases links with
  | nil => simp [level, Operator.precedence]
  | cons link rest =>
    rw [level_cons, List.head?_cons, Option.any_some, decide_eq_true_eq]
    cases link.operator <;> decide

theorem level_eq_of_map_operator {links links' : List Link}
    (h : links'.map Link.operator = links.map Link.operator) : level links' = level links := by
  cases links <;> cases links' <;> simp_all [level]

theorem ne_nil_of_reduceLinks {links reduced : List Link} (hne : links ≠ [])
    (h : (reduceLinks pow links).outcome = .ok reduced) : reduced ≠ [] := by
  rintro rfl
  exact hne (List.map_eq_nil_iff.mp (map_operator_reduceLinks h).symm)

/-- A chain with links becomes a literal with its span if it is one of powers, and if not a chain
of its reduced operands. -/
theorem reduceNode_chain_cases {first : Expr} {links : List Link} {span : Span} {reduced : Expr}
    (hne : links ≠ []) (h : ((chain first links span).reduceNode pow).outcome = .ok reduced) :
    (level links = Operator.pow.precedence ∧ ∃ value, reduced = .literal value span) ∨
      (level links ≠ Operator.pow.precedence ∧ ∃ first' links',
        (first.reduceNode pow).outcome = .ok first' ∧
        (reduceLinks pow links).outcome = .ok links' ∧ reduced = .chain first' links' span) := by
  rw [outcome_reduceNode_chain_eq_ok_iff] at h
  obtain ⟨first', links', hf, hl, hr⟩ := h
  have hops := map_operator_reduceLinks hl
  have hne' := ne_nil_of_reduceLinks hne hl
  rw [← level_eq_of_map_operator hops, Ne, ← head?_any_pow_iff]
  by_cases hpow : links'.head?.any (·.operator = .pow)
  · rw [outcome_rebuild_of_pow hpow] at hr
    obtain ⟨value, hliteral, -⟩ := exists_literal_of_foldPowers hne' hr
    exact .inl ⟨hpow, value, hliteral⟩
  · rw [outcome_rebuild_of_not_pow hpow hne'] at hr
    exact .inr ⟨hpow, first', links', hf, hl, (Except.ok.inj hr).symm⟩

/-- Each reduced link has the operator of a link whose operand was reduced to its own. -/
theorem exists_of_mem_reduceLinks {links reduced : List Link}
    (h : (reduceLinks pow links).outcome = .ok reduced) {link' : Link} (hm : link' ∈ reduced) :
    ∃ link ∈ links, link'.operator = link.operator ∧
      (link.operand.reduceNode pow).outcome = .ok link'.operand := by
  induction links generalizing reduced with
  | nil =>
    obtain rfl := Except.ok.inj h
    cases hm
  | cons link rest ih =>
    obtain ⟨op, operand⟩ := link
    rw [outcome_reduceLinks_cons_eq_ok_iff] at h
    obtain ⟨operand', rest', ho, hr, rfl⟩ := h
    rcases List.mem_cons.mp hm with rfl | hm
    · exact ⟨⟨op, operand⟩, List.mem_cons_self, rfl, ho⟩
    · obtain ⟨link, hl, hop, hoperand⟩ := ih hr hm
      exact ⟨link, List.mem_cons_of_mem _ hl, hop, hoperand⟩

/-! ### Reducing twice -/

/-- The span of an expression matters for nothing but the span of the result. -/
theorem reduceNode_withSpan {e reduced : Expr} (h : (e.reduceNode pow).outcome = .ok reduced)
    (span : Span) : ((e.withSpan span).reduceNode pow).outcome = .ok (reduced.withSpan span) := by
  cases e with
  | literal value span' =>
    obtain rfl := Except.ok.inj h
    rfl
  | chain first links span' =>
    rw [outcome_reduceNode_chain_eq_ok_iff] at h
    obtain ⟨first', links', hf, hl, hr⟩ := h
    rw [withSpan, outcome_reduceNode_chain_eq_ok_iff]
    refine ⟨first', links', hf, hl, ?_⟩
    by_cases hpow : links'.head?.any (·.operator = .pow)
    · rw [outcome_rebuild_of_pow hpow] at hr ⊢
      obtain ⟨value, rfl, hvalue⟩ := exists_literal_of_foldPowers (ne_nil_of_head?_any hpow) hr
      exact hvalue span
    · rw [rebuild, if_neg hpow] at hr ⊢
      obtain rfl := Except.ok.inj hr
      cases ofChain first' links' <;> rfl

theorem reduceLinks_reduceLinks {links reduced : List Link}
    (hl : ∀ link ∈ links, ∀ reduced, (link.operand.reduceNode pow).outcome = .ok reduced →
      (reduced.reduceNode pow).outcome = .ok reduced)
    (h : (reduceLinks pow links).outcome = .ok reduced) :
    (reduceLinks pow reduced).outcome = .ok reduced := by
  induction links generalizing reduced with
  | nil =>
    obtain rfl := Except.ok.inj h
    rfl
  | cons link rest ih =>
    obtain ⟨op, operand⟩ := link
    rw [List.forall_mem_cons] at hl
    rw [outcome_reduceLinks_cons_eq_ok_iff] at h
    obtain ⟨operand', rest', ho, hr, rfl⟩ := h
    rw [outcome_reduceLinks_cons_eq_ok_iff]
    exact ⟨operand', rest', hl.1 operand' ho, ih hl.2 hr, rfl⟩

/-- **Nothing is left to reduce**, whatever the expression. -/
theorem reduceNode_reduceNode {e reduced : Expr} (h : (e.reduceNode pow).outcome = .ok reduced) :
    (reduced.reduceNode pow).outcome = .ok reduced := by
  induction e using Expr.induction generalizing reduced with
  | literal value span =>
    obtain rfl := Except.ok.inj h
    rfl
  | chain first links span ihf ihl =>
    rw [outcome_reduceNode_chain_eq_ok_iff] at h
    obtain ⟨first', links', hf, hl, hr⟩ := h
    have hf' := ihf hf
    have hl' := reduceLinks_reduceLinks (fun link hm _ => ihl link hm) hl
    by_cases hpow : links'.head?.any (·.operator = .pow)
    · -- a literal
      rw [outcome_rebuild_of_pow hpow] at hr
      obtain ⟨value, rfl, -⟩ := exists_literal_of_foldPowers (ne_nil_of_head?_any hpow) hr
      rfl
    · by_cases hne : links' = []
      · -- no links, so nothing but the first operand with another span
        subst hne
        obtain rfl := Except.ok.inj hr
        exact reduceNode_withSpan hf' span
      · rw [outcome_rebuild_of_not_pow hpow hne] at hr
        obtain rfl := Except.ok.inj hr
        rw [outcome_reduceNode_chain_eq_ok_iff]
        exact ⟨first', links', hf', hl', outcome_rebuild_of_not_pow hpow hne⟩

/-! ### Without powers -/

theorem countLinks_eq_zero_iff {op : Operator} {links : List Link} :
    countLinks op links = 0 ↔ ∀ link ∈ links, link.operator ≠ op ∧ link.operand.count op = 0 := by
  induction links with
  | nil => simp [countLinks]
  | cons link rest ih =>
    obtain ⟨operator, operand⟩ := link
    rw [countLinks, List.forall_mem_cons, ← ih]
    by_cases h : operator = op
    · simp [h]
    · simp [h]

theorem count_chain_eq_zero_iff {op : Operator} {first : Expr} {links : List Link} {span : Span} :
    (chain first links span).count op = 0 ↔ first.count op = 0 ∧
      ∀ link ∈ links, link.operator ≠ op ∧ link.operand.count op = 0 := by
  rw [count, Nat.add_eq_zero_iff, countLinks_eq_zero_iff]

theorem not_head?_any_pow {links : List Link} (h : ∀ link ∈ links, link.operator ≠ .pow) :
    ¬ links.head?.any (·.operator = .pow) := by
  cases links with
  | nil => simp
  | cons link rest => simpa using h link (by simp)

theorem outcome_reduceLinks_of_forall {links : List Link}
    (h : ∀ link ∈ links, (link.operand.reduceNode pow).outcome = .ok link.operand) :
    (reduceLinks pow links).outcome = .ok links := by
  induction links with
  | nil => rfl
  | cons link rest ih =>
    obtain ⟨op, operand⟩ := link
    rw [List.forall_mem_cons] at h
    rw [outcome_reduceLinks_cons_eq_ok_iff]
    exact ⟨operand, rest, h.1, ih h.2, rfl⟩

/-- A regular expression without powers is left as it is. -/
theorem IsRegular.outcome_reduceNode_of_count {e : Expr} (h : e.IsRegular)
    (hc : e.count .pow = 0) : (e.reduceNode pow).outcome = .ok e := by
  induction h with
  | literal => rfl
  | @chain first links span hn _ _ ihf ihl =>
    rw [count_chain_eq_zero_iff] at hc
    obtain ⟨hcf, hcl⟩ := hc
    rw [outcome_reduceNode_chain_eq_ok_iff]
    refine ⟨first, links, ihf hcf, ?_, ?_⟩
    · exact outcome_reduceLinks_of_forall fun link hm => ihl link hm (hcl link hm).2
    · exact outcome_rebuild_of_not_pow (not_head?_any_pow fun link hm => (hcl link hm).1) hn.1

theorem outcome_reduce_of_count_ne_zero {e : Expr} (h : e.count .pow ≠ 0) :
    (e.reduce pow).outcome = (e.reduceNode pow).outcome := by
  rw [reduce, if_neg h]
  simp only [Traced.outcome_bind, Traced.outcome_tell, Traced.outcome_pure]
  cases (e.reduceNode pow).outcome <;> rfl

/-- An expression is left as it is, or is reduced from its root on. -/
theorem outcome_reduce_cases {e reduced : Expr}
    (hr : (e.reduce pow).outcome = .ok reduced) :
    reduced = e ∨ (e.reduceNode pow).outcome = .ok reduced := by
  by_cases hc : e.count .pow = 0
  · rw [reduce, if_pos hc] at hr
    exact .inl (Except.ok.inj hr).symm
  · rw [outcome_reduce_of_count_ne_zero hc] at hr
    exact .inr hr

/-- For a regular expression the test for powers that comes first makes no difference. -/
theorem IsRegular.outcome_reduce {e : Expr} (h : e.IsRegular) :
    (e.reduce pow).outcome = (e.reduceNode pow).outcome := by
  by_cases hc : e.count .pow = 0
  · rw [h.outcome_reduceNode_of_count hc, reduce, if_pos hc, Traced.outcome_pure]
  · exact outcome_reduce_of_count_ne_zero hc

/-! ### What is replaced -/

mutual

/-- The second expression is the first one with each outermost chain of powers replaced by a
literal that has its span and its value. All other nodes are the same, with the same spans. -/
inductive IsReduct (pow : Binary64 → Binary64 → Binary64) : Expr → Expr → Prop where
  | literal {value : Literal} {span : Span} :
      IsReduct pow (.literal value span) (.literal value span)
  | power {first : Expr} {links : List Link} {span : Span} {value : Literal} :
      level links = Operator.pow.precedence →
      (Expr.chain first links span).evaluate pow = .ok (.ofLiteral value) →
      IsReduct pow (.chain first links span) (.literal value span)
  | chain {first first' : Expr} {links links' : List Link} {span : Span} :
      level links ≠ Operator.pow.precedence → IsReduct pow first first' →
      AreReducts pow links links' → IsReduct pow (.chain first links span) (.chain first' links' span)

/-- The same operators, with operands that are related in this way. -/
inductive AreReducts (pow : Binary64 → Binary64 → Binary64) : List Link → List Link → Prop where
  | nil : AreReducts pow [] []
  | cons {op : Operator} {operand operand' : Expr} {rest rest' : List Link} :
      IsReduct pow operand operand' → AreReducts pow rest rest' →
      AreReducts pow (⟨op, operand⟩ :: rest) (⟨op, operand'⟩ :: rest')

end

theorem areReducts_of_reduceLinks {links reduced : List Link}
    (hl : ∀ link ∈ links, ∀ reduced, (link.operand.reduceNode pow).outcome = .ok reduced →
      IsReduct pow link.operand reduced)
    (h : (reduceLinks pow links).outcome = .ok reduced) : AreReducts pow links reduced := by
  induction links generalizing reduced with
  | nil =>
    obtain rfl := Except.ok.inj h
    exact .nil
  | cons link rest ih =>
    obtain ⟨op, operand⟩ := link
    rw [List.forall_mem_cons] at hl
    rw [outcome_reduceLinks_cons_eq_ok_iff] at h
    obtain ⟨operand', rest', ho, hr, rfl⟩ := h
    exact .cons (hl.1 operand' ho) (ih hl.2 hr)

/-- The value of a literal that an expression is reduced to is that of the expression. -/
theorem evaluate_of_reduceNode_eq_literal {e : Expr} (h : e.IsLevelled) {value : Literal}
    {span : Span} (hr : (e.reduceNode pow).outcome = .ok (.literal value span)) :
    e.evaluate pow = .ok (.ofLiteral value) := by
  rw [← Except.toOption_eq_some_iff, ← value?, ← value?_reduceNode h, hr]
  exact value?_literal value span

/-- **Reducing replaces the outermost powers**, and nothing else. -/
theorem IsRegular.isReduct_reduceNode {e reduced : Expr} (h : e.IsRegular)
    (hr : (e.reduceNode pow).outcome = .ok reduced) : IsReduct pow e reduced := by
  have hlevelled := h.isLevelled
  induction h generalizing reduced with
  | literal =>
    obtain rfl := Except.ok.inj hr
    exact .literal
  | @chain first links span hn hf hl ihf ihl =>
    rcases reduceNode_chain_cases hn.1 hr with
      ⟨hpow, value, rfl⟩ | ⟨hpow, first', links', hrf, hrl, rfl⟩
    · exact .power hpow (evaluate_of_reduceNode_eq_literal hlevelled hr)
    · refine .chain hpow (ihf hrf (IsRegular.isLevelled hf)) (areReducts_of_reduceLinks ?_ hrl)
      intro link hm operand' ho
      exact ihl link hm ho (IsRegular.isLevelled (hl link hm))

/-- **No power is left** in a regular expression. -/
theorem IsRegular.count_pow_reduceNode {e reduced : Expr} (h : e.IsRegular)
    (hr : (e.reduceNode pow).outcome = .ok reduced) : reduced.count .pow = 0 := by
  induction h generalizing reduced with
  | literal =>
    obtain rfl := Except.ok.inj hr
    rfl
  | @chain first links span hn _ _ ihf ihl =>
    rcases reduceNode_chain_cases hn.1 hr with ⟨-, value, rfl⟩ | ⟨hpow, first', links', hrf, hrl, rfl⟩
    · rfl
    · rw [count_chain_eq_zero_iff]
      refine ⟨ihf hrf, fun link' hm' => ?_⟩
      obtain ⟨link, hm, hop, ho⟩ := exists_of_mem_reduceLinks hrl hm'
      refine ⟨fun heq => hpow ?_, ihl link hm ho⟩
      -- a power anywhere in the chain makes it a chain of powers
      rw [← hn.2 link hm, ← hop, heq]

/-- **What reducing does**: if a regular expression can be reduced, the result has no powers, and
is the expression with its outermost chains of powers replaced by literals with their spans and
values. An expression without powers is left as it is. Whatever the expression, reducing what it
is reduced to gives the same again. -/
theorem reduce_replaces_outermost_powers (pow : Binary64 → Binary64 → Binary64) :
    (∀ e : Expr, e.IsRegular → ∀ reduced, (e.reduce pow).outcome = .ok reduced →
      reduced.count .pow = 0 ∧ IsReduct pow e reduced) ∧
    (∀ e : Expr, e.count .pow = 0 → (e.reduce pow).outcome = .ok e) ∧
    ∀ e reduced : Expr, (e.reduce pow).outcome = .ok reduced →
      (reduced.reduce pow).outcome = .ok reduced := by
  have hnone : ∀ e : Expr, e.count .pow = 0 → (e.reduce pow).outcome = .ok e := by
    intro e hc
    rw [reduce, if_pos hc, Traced.outcome_pure]
  refine ⟨fun e he reduced hr => ?_, hnone, fun e reduced hr => ?_⟩
  · rw [he.outcome_reduce] at hr
    exact ⟨he.count_pow_reduceNode hr, he.isReduct_reduceNode hr⟩
  · by_cases hc : reduced.count .pow = 0
    · exact hnone reduced hc
    · by_cases hce : e.count .pow = 0
      · rw [hnone e hce] at hr
        obtain rfl := Except.ok.inj hr
        exact absurd hce hc
      · rw [outcome_reduce_of_count_ne_zero hce] at hr
        rw [outcome_reduce_of_count_ne_zero hc, reduceNode_reduceNode hr]

/-- `1+(2^3)` is reduced to `1+8`, where the literal has the place of the parentheses. -/
theorem reduce_sum_with_power_in_parentheses :
    ∃ e reduced : Expr, parse 1 (tokenize "1+(2^3)".toList) = .ok e ∧ e.IsRegular ∧
      (e.reduce fun x _ => x).outcome = .ok reduced ∧
      reduced = .chain (.literal (.int 1) ⟨0, 1⟩) [⟨.add, .literal (.int 8) ⟨2, 7⟩⟩] ⟨0, 7⟩ ∧
      reduced.count .pow = 0 ∧ IsReduct (fun x _ => x) e reduced ∧
      (reduced.reduce fun x _ => x).outcome = .ok reduced := by
  have hspec := reduce_replaces_outermost_powers fun x _ => x
  have hparse : parse 1 (tokenize "1+(2^3)".toList) = .ok (.chain (.literal (.int 1) ⟨0, 1⟩)
      [⟨.add, .chain (.literal (.int 2) ⟨3, 4⟩) [⟨.pow, .literal (.int 3) ⟨5, 6⟩⟩] ⟨2, 7⟩⟩]
      ⟨0, 7⟩) := rfl
  have hreduce : (Expr.reduce (fun x _ => x) (.chain (.literal (.int 1) ⟨0, 1⟩)
      [⟨.add, .chain (.literal (.int 2) ⟨3, 4⟩) [⟨.pow, .literal (.int 3) ⟨5, 6⟩⟩] ⟨2, 7⟩⟩]
      ⟨0, 7⟩)).outcome =
        .ok (.chain (.literal (.int 1) ⟨0, 1⟩) [⟨.add, .literal (.int 8) ⟨2, 7⟩⟩] ⟨0, 7⟩) :=
    Except.toOption_eq_some_iff.mp (by decide +kernel)
  have hregular := isRegular_of_parse hparse
  obtain ⟨hcount, hreduct⟩ := hspec.1 _ hregular _ hreduce
  exact ⟨_, _, hparse, hregular, hreduce, rfl, hcount, hreduct, hspec.2.2 _ _ hreduce⟩

end Expr

end Abacus
