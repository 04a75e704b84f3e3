import Abacus.Proofs.Reduct

/-!
# Where an evaluation fails

An evaluation can fail in three places: when a power is computed while powers are reduced, when
an operand of that power is evaluated for it, and when the reduced expression is evaluated. The
two stages are taken together here (`settle`), and in all three cases the outcome is the same: a
chain fails because an operand fails, or at one operation of its own. In the second case it also
fails there, with the same error, if it is cut after that operation, and the error has the span of
what is left (`settle_chain_eq_error`).

For the powers this needs the operands to stand from left to right, since the span of a folded
power is put together step by step.
-/

namespace Abacus

namespace EvalError

@[simp] theorem span_ofFault (fault : ArithmeticFault) (expression : Text) (span : Span) :
    (ofFault fault expression span).span = span := by
  cases fault <;> rfl

end EvalError

namespace Expr

variable {pow : Binary64 → Binary64 → Binary64}

/-! ### Where links fail -/

/-- Links fail at an operand, or at one operation of theirs, whose operands have values. Then they
also fail there if they are cut after it, whoever is to be blamed. -/
theorem evaluateLinks_eq_error {blame : Nat → ArithmeticFault → EvalError} {links : List Link}
    {acc : Value} {index : Nat} {err : EvalError}
    (h : evaluateLinks pow blame acc index links = .error err) :
    (∃ link ∈ links, link.operand.evaluate pow = .error err) ∨
      ∃ i, ∃ hi : i < links.length, ∃ fault, err = blame (index + i) fault ∧
        (∀ blame', evaluateLinks pow blame' acc index (links.take (i + 1)) =
          .error (blame' (index + i) fault)) ∧
        ∃ a b, linksValue? pow acc (links.take i) = some a ∧
          links[i].operand.evaluate pow = .ok b ∧
          Value.apply pow links[i].operator a b = .error fault := by
  induction links generalizing acc index with
  | nil => cases h
  | cons link rest ih =>
    obtain ⟨op, operand⟩ := link
    rw [evaluateLinks, Except.bind_eq_error_iff] at h
    rcases h with h | ⟨right, hright, h⟩
    · exact .inl ⟨⟨op, operand⟩, List.mem_cons_self, h⟩
    · cases happly : Value.apply pow op acc right with
      | error fault =>
        rw [happly] at h
        refine .inr ⟨0, Nat.succ_pos _, fault, (Except.error.inj h).symm, ?_,
          acc, right, rfl, hright, happly⟩
        intro blame'
        rw [List.take_succ_cons, List.take_zero, evaluateLinks, hright]
        simp only [Except.ok_bind, happly, Nat.add_zero]
      | ok result =>
        rw [happly] at h
        rcases ih h with ⟨link, hm, hlink⟩ | ⟨i, hi, fault, herr, hcut, a, b, ha, hb, hfault⟩
        · exact .inl ⟨link, List.mem_cons_of_mem _ hm, hlink⟩
        · refine .inr ⟨i + 1, Nat.succ_lt_succ hi, fault, ?_, ?_, a, b, ?_, hb, hfault⟩
          · rw [herr, Nat.add_right_comm, Nat.add_assoc]
          · intro blame'
            rw [List.take_succ_cons, evaluateLinks, hright]
            simp only [Except.ok_bind, happly]
            rw [hcut, Nat.add_right_comm, Nat.add_assoc]
          · rw [List.take_succ_cons, linksValue?, value?_eq_some_iff.mpr hright, Option.bind_some,
              Except.toOption_eq_some_iff.mpr happly, Option.bind_some, ha]

/-! ### Where powers fail -/

/-- The span that is blamed for the operation at link `index`. -/
def blamedSpan (first : Expr) (links : List Link) (span : Span) (index : Nat) : Span :=
  if index + 1 = links.length then span else leadingSpan first links index

theorem blamedSpan_congr {first first' : Expr} {links links' : List Link}
    (hspan : first'.span = first.span) (hspans : linkSpans links' = linkSpans links) (span : Span)
    (index : Nat) : blamedSpan first' links' span index = blamedSpan first links span index := by
  have hlength : links'.length = links.length := by
    simpa [linkSpans] using congrArg List.length hspans
  rw [blamedSpan, blamedSpan, hlength, leadingSpan_eq, leadingSpan_eq, hspan, hspans]

theorem evaluateReal_eq_error_iff {e : Expr} {err : EvalError} :
    e.evaluateReal pow = .error err ↔ e.evaluate pow = .error err := by
  rw [evaluateReal]
  cases e.evaluate pow with
  | error err' =>
    constructor
    · rintro ⟨⟩
      rfl
    · rintro ⟨⟩
      rfl
  | ok value =>
    constructor
    · rintro ⟨⟩
    · rintro ⟨⟩

section FoldPowers

variable {acc operand : Expr} {base exponent : Binary64}

/-- Folding fails at a power without a value. -/
theorem outcome_foldPowers_cons_of_fault (hbase : acc.evaluateReal pow = .ok base)
    (hexponent : operand.evaluateReal pow = .ok exponent) {fault : ArithmeticFault}
    (h : Value.power pow base exponent = .error fault) (span : Span) (op : Operator)
    (rest : List Link) :
    (foldPowers pow span acc (⟨op, operand⟩ :: rest)).outcome =
      .error (.ofFault fault (binary acc .pow operand).text
        (if rest.isEmpty then span else acc.span.cover operand.span)) := by
  simp only [foldPowers, Traced.outcome_bind, Traced.outcome_lift, hbase, hexponent,
    Except.ok_bind, h]
  rfl

/-- Folding goes on with the literal of the value of a power. -/
theorem outcome_foldPowers_cons_of_power (hbase : acc.evaluateReal pow = .ok base)
    (hexponent : operand.evaluateReal pow = .ok exponent) {value : Value}
    (h : Value.power pow base exponent = .ok value) (span : Span) (op : Operator)
    (rest : List Link) :
    (foldPowers pow span acc (⟨op, operand⟩ :: rest)).outcome =
      (foldPowers pow span (.literal value.toLiteral
        (if rest.isEmpty then span else acc.span.cover operand.span)) rest).outcome := by
  simp only [foldPowers, Traced.outcome_bind, Traced.outcome_lift, hbase, hexponent,
    Except.ok_bind, h]
  rfl

end FoldPowers

/-- The span up to a link does not depend on whether the operands before it are joined. -/
theorem leadingSpan_of_span_eq_cover {acc e : Expr} {link : Link} {rest : List Link}
    (ho : Span.Ascending (acc.span :: linkSpans (link :: rest)))
    (he : e.span = acc.span.cover link.operand.span) {i : Nat} (hi : i < rest.length) :
    leadingSpan e rest i = leadingSpan acc (link :: rest) (i + 1) := by
  have hm : rest[i].operand.span ∈ linkSpans rest := List.mem_map_of_mem (List.getElem_mem hi)
  rw [leadingSpan, leadingSpan, List.getElem?_cons_succ, List.getElem?_eq_getElem hi]
  simp only [he]
  exact ho.cover_cover hm

/-- The power of two expressions has a fault, and `expression` is what is blamed for it. -/
structure PowerFault (pow : Binary64 → Binary64 → Binary64) (left right : Expr)
    (base exponent : Binary64) (fault : ArithmeticFault) (expression : Text) : Prop where
  left_eq : left.evaluateReal pow = .ok base
  right_eq : right.evaluateReal pow = .ok exponent
  power_eq : Value.power pow base exponent = .error fault
  text_eq : (binary left .pow right).text = expression

theorem evaluateReal_withSpan {e : Expr} {x : Binary64} (h : e.evaluateReal pow = .ok x)
    (span : Span) : (e.withSpan span).evaluateReal pow = .ok x := by
  rw [← Except.toOption_eq_some_iff, toOption_evaluateReal] at h ⊢
  rwa [value?_withSpan]

theorem PowerFault.withSpan {left right : Expr} {base exponent : Binary64}
    {fault : ArithmeticFault} {expression : Text}
    (h : PowerFault pow left right base exponent fault expression) (span : Span) :
    PowerFault pow (left.withSpan span) right base exponent fault expression where
  left_eq := evaluateReal_withSpan h.left_eq span
  right_eq := h.right_eq
  power_eq := h.power_eq
  text_eq := by
    rw [← h.text_eq]
    cases left <;> rfl

/-- Folding fails at an operand, or at one power, that of all that has been folded up to there.
Then it also fails there if the links are cut after it. -/
theorem outcome_foldPowers_eq_error {span : Span} {acc : Expr} {links : List Link}
    {err : EvalError} (ho : Span.Ascending (acc.span :: linkSpans links))
    (h : (foldPowers pow span acc links).outcome = .error err) :
    acc.evaluate pow = .error err ∨
      (∃ link ∈ links, link.operand.evaluate pow = .error err) ∨
      ∃ i, ∃ hi : i < links.length, ∃ fault expression,
        err = .ofFault fault expression (blamedSpan acc links span i) ∧
        (∀ span', (foldPowers pow span' acc (links.take (i + 1))).outcome =
          .error (.ofFault fault expression span')) ∧
        ∃ left base exponent, (foldPowers pow span acc (links.take i)).outcome = .ok left ∧
          PowerFault pow left links[i].operand base exponent fault expression := by
  induction links generalizing acc with
  | nil => cases h
  | cons link rest ih =>
    obtain ⟨op, operand⟩ := link
    have hsteps := h
    simp only [foldPowers, Traced.outcome_bind, Traced.outcome_lift, Except.bind_eq_error_iff,
      evaluateReal_eq_error_iff] at hsteps
    rcases hsteps with hacc | ⟨base, hbase, hoperand | ⟨exponent, hexponent, -⟩⟩
    · exact .inl hacc
    · exact .inr (.inl ⟨⟨op, operand⟩, List.mem_cons_self, hoperand⟩)
    · right
      cases hpower : Value.power pow base exponent with
      | error fault =>
        rw [outcome_foldPowers_cons_of_fault hbase hexponent hpower] at h
        refine .inr ⟨0, Nat.succ_pos _, fault, (binary acc .pow operand).text, ?_, ?_, ?_⟩
        · rw [← Except.error.inj h]
          cases rest <;> rfl
        · intro span'
          exact outcome_foldPowers_cons_of_fault hbase hexponent hpower span' op []
        · exact ⟨acc, base, exponent, rfl, hbase, hexponent, hpower, rfl⟩
      | ok value =>
        rw [outcome_foldPowers_cons_of_power hbase hexponent hpower] at h
        cases rest with
        | nil => cases h
        | cons next rest =>
          -- what has been folded has the span of the operands that it was folded from
          have hspan : (literal value.toLiteral (acc.span.cover operand.span)).span =
            acc.span.cover operand.span := rfl
          rcases ih (hspan ▸ ho.cover) h with hvalue | ⟨link, hm, hlink⟩ |
            ⟨i, hi, fault, expression, herr, hcut, left, base', exponent', hleft, hfault⟩
          · cases hvalue
          · exact .inl ⟨link, List.mem_cons_of_mem _ hm, hlink⟩
          · refine .inr ⟨i + 1, Nat.succ_lt_succ hi, fault, expression, ?_, ?_, ?_⟩
            · rw [herr, blamedSpan, blamedSpan, ← leadingSpan_of_span_eq_cover ho hspan hi]
              simp
            · intro span'
              rw [List.take_succ_cons, outcome_foldPowers_cons_of_power hbase hexponent hpower]
              exact hcut span'
            · rw [List.take_succ_cons, outcome_foldPowers_cons_of_power hbase hexponent hpower]
              cases i with
              | zero =>
                -- cut here, the literal would be the last one, and have the span of the chain
                obtain rfl := Except.ok.inj hleft
                exact ⟨_, base', exponent', rfl, hfault.withSpan span⟩
              | succ i => exact ⟨left, base', exponent', hleft, hfault⟩

/-! ### Reducing links -/

theorem exists_of_reduceLinks_eq_error {links : List Link} {err : EvalError}
    (h : (reduceLinks pow links).outcome = .error err) :
    ∃ link ∈ links, (link.operand.reduceNode pow).outcome = .error err := by
  induction links with
  | nil => cases h
  | cons link rest ih =>
    obtain ⟨op, operand⟩ := link
    simp only [reduceLinks, Traced.outcome_bind, Except.bind_eq_error_iff,
      Traced.outcome_pure] at h
    rcases h with h | ⟨operand', -, h | ⟨rest', -, h⟩⟩
    · exact ⟨⟨op, operand⟩, List.mem_cons_self, h⟩
    · obtain ⟨link, hm, hlink⟩ := ih h
      exact ⟨link, List.mem_cons_of_mem _ hm, hlink⟩
    · cases h

theorem outcome_reduceLinks_take {links reduced : List Link}
    (h : (reduceLinks pow links).outcome = .ok reduced) (n : Nat) :
    (reduceLinks pow (links.take n)).outcome = .ok (reduced.take n) := by
  induction links generalizing reduced n with
  | nil =>
    obtain rfl := Except.ok.inj h
    simp [reduceLinks]
  | cons link rest ih =>
    obtain ⟨op, operand⟩ := link
    rw [outcome_reduceLinks_cons_eq_ok_iff] at h
    obtain ⟨operand', rest', ho, hr, rfl⟩ := h
    cases n with
    | zero => rfl
    | succ n =>
      rw [List.take_succ_cons, List.take_succ_cons, outcome_reduceLinks_cons_eq_ok_iff]
      exact ⟨operand', rest'.take n, ho, ih hr n, rfl⟩

/-- Reducing keeps spans. -/
theorem IsRegular.span_reduceNode {e reduced : Expr} (h : e.IsRegular)
    (hr : (e.reduceNode pow).outcome = .ok reduced) : reduced.span = e.span := by
  cases h with
  | literal =>
    obtain rfl := Except.ok.inj hr
    rfl
  | chain hn _ _ =>
    rcases reduceNode_chain_cases hn.1 hr with ⟨-, value, rfl⟩ | ⟨-, first', links', -, -, rfl⟩
    · rfl
    · rfl

theorem linkSpans_reduceLinks {links reduced : List Link}
    (hl : ∀ link ∈ links, link.operand.IsRegular)
    (h : (reduceLinks pow links).outcome = .ok reduced) : linkSpans reduced = linkSpans links := by
  induction links generalizing reduced with
  | nil =>
    obtain rfl := Except.ok.inj h
    rfl
  | cons link rest ih =>
    obtain ⟨op, operand⟩ := link
    rw [List.forall_mem_cons] at hl
    rw [outcome_reduceLinks_cons_eq_ok_iff] at h
    obtain ⟨operand', rest', ho, hr, rfl⟩ := h
    have hrest : linkSpans rest' = linkSpans rest := ih hl.2 hr
    rw [linkSpans, List.map_cons, hl.1.span_reduceNode ho, ← linkSpans, hrest]
    rfl

/-! ### Both stages -/

/-- Reduce the powers of an expression, and evaluate what is left. -/
def settle (pow : Binary64 → Binary64 → Binary64) (e : Expr) : Except EvalError Value :=
  (e.reduceNode pow).outcome >>= evaluate pow

/-- A chain up to the operation at link `index`. -/
def leading (first : Expr) (links : List Link) (span : Span) (index : Nat) : Expr :=
  .chain first (links.take (index + 1)) (blamedSpan first links span index)

/-- The last operation of a chain is blamed like the same one further inside. -/
theorem blame_leading (first : Expr) {links : List Link} (span : Span) {index : Nat}
    (h : index < links.length) (fault : ArithmeticFault) :
    blame first (links.take (index + 1)) (blamedSpan first links span index) index fault =
      blame first links span index fault := by
  have hlength : (links.take (index + 1)).length = index + 1 := List.length_take_of_le h
  rw [blame, blame, hlength, if_pos rfl, leadingText, leadingText, level_take_succ, List.take_take,
    Nat.min_self]
  rfl

/-- A chain of reduced operands fails at an operand, or at one operation. Then it also fails there
if it is cut after it. -/
theorem rebuild_eq_error {first : Expr} {links : List Link} {span : Span} {err : EvalError}
    (hne : links ≠ []) (ho : Span.Ascending (first.span :: linkSpans links))
    (h : (rebuild pow first links span).outcome >>= evaluate pow = .error err) :
    first.evaluate pow = .error err ∨
      (∃ link ∈ links, link.operand.evaluate pow = .error err) ∨
      ∃ i < links.length, err.span = blamedSpan first links span i ∧
        (rebuild pow first (links.take (i + 1)) (blamedSpan first links span i)).outcome >>=
          evaluate pow = .error err := by
  have hhead : ∀ i, (links.take (i + 1)).head? = links.head? := by
    intro i
    cases links <;> rfl
  by_cases hpow : links.head?.any (·.operator = .pow)
  · rw [outcome_rebuild_of_pow hpow, Except.bind_eq_error_iff] at h
    rcases h with h | ⟨reduced, hreduced, h⟩
    · rcases outcome_foldPowers_eq_error ho h with hfirst | hlink |
        ⟨i, hi, fault, expression, rfl, hcut, -⟩
      · exact .inl hfirst
      · exact .inr (.inl hlink)
      · refine .inr (.inr ⟨i, hi, EvalError.span_ofFault _ _ _, ?_⟩)
        rw [outcome_rebuild_of_pow (by rwa [hhead]), hcut, Except.error_bind]
    · -- a literal has a value
      obtain ⟨value, rfl, -⟩ := exists_literal_of_foldPowers hne hreduced
      cases h
  · rw [outcome_rebuild_of_not_pow hpow hne, Except.ok_bind, evaluate,
      Except.bind_eq_error_iff] at h
    rcases h with h | ⟨start, hstart, h⟩
    · exact .inl h
    · rcases evaluateLinks_eq_error h with hlink | ⟨i, hi, fault, rfl, hcut, -⟩
      · exact .inr (.inl hlink)
      · rw [Nat.zero_add] at hcut ⊢
        have hne' : links.take (i + 1) ≠ [] := by
          intro hnil
          cases links with
          | nil => exact hne rfl
          | cons => cases hnil
        refine .inr (.inr ⟨i, hi, EvalError.span_ofFault _ _ _, ?_⟩)
        rw [outcome_rebuild_of_not_pow (by rwa [hhead]) hne', Except.ok_bind, evaluate, hstart,
          Except.ok_bind, hcut, blame_leading first span hi]

theorem settle_of_reduceNode_eq_error {e : Expr} {err : EvalError}
    (h : (e.reduceNode pow).outcome = .error err) : settle pow e = .error err := by
  rw [settle, h, Except.error_bind]

theorem settle_of_reduceNode_eq_ok {e reduced : Expr}
    (h : (e.reduceNode pow).outcome = .ok reduced) : settle pow e = reduced.evaluate pow := by
  rw [settle, h, Except.ok_bind]

theorem settle_chain {first first' : Expr} {links links' : List Link}
    (hf : (first.reduceNode pow).outcome = .ok first')
    (hl : (reduceLinks pow links).outcome = .ok links') (span : Span) :
    settle pow (chain first links span) =
      (rebuild pow first' links' span).outcome >>= evaluate pow := by
  simp only [settle, reduceNode, Traced.outcome_bind, hf, hl, Except.ok_bind]

/-- A chain fails at an operand, or at one operation. Then the chain up to that operation fails as
well. -/
theorem settle_chain_eq_error {first : Expr} {links : List Link} {span : Span} {err : EvalError}
    (hregular : (chain first links span).IsRegular)
    (ho : Span.Ascending (first.span :: linkSpans links))
    (h : settle pow (chain first links span) = .error err) :
    settle pow first = .error err ∨ (∃ link ∈ links, settle pow link.operand = .error err) ∨
      ∃ i < links.length, err.span = blamedSpan first links span i ∧
        settle pow (leading first links span i) = .error err := by
  obtain ⟨⟨hne, -⟩, hrf, hrl⟩ := everywhere_chain_iff.mp hregular
  cases hf : (first.reduceNode pow).outcome with
  | error err' =>
    rw [settle, reduceNode, Traced.outcome_bind, hf] at h
    obtain rfl := Except.error.inj h
    exact .inl (settle_of_reduceNode_eq_error hf)
  | ok first' =>
    cases hl : (reduceLinks pow links).outcome with
    | error err' =>
      simp only [settle, reduceNode, Traced.outcome_bind, hf, hl, Except.ok_bind] at h
      obtain rfl := Except.error.inj h
      obtain ⟨link, hm, hlink⟩ := exists_of_reduceLinks_eq_error hl
      exact .inr (.inl ⟨link, hm, settle_of_reduceNode_eq_error hlink⟩)
    | ok links' =>
      have hspan : first'.span = first.span := IsRegular.span_reduceNode hrf hf
      have hspans : linkSpans links' = linkSpans links := linkSpans_reduceLinks hrl hl
      have hlength : links'.length = links.length := by
        simpa [linkSpans] using congrArg List.length hspans
      have hne' : links' ≠ [] := by
        rwa [← List.length_pos_iff, hlength, List.length_pos_iff]
      rw [settle_chain hf hl] at h
      rcases rebuild_eq_error hne' (by rwa [hspan, hspans]) h with h | ⟨link', hm', h⟩ |
        ⟨i, hi, herr, hcut⟩
      · exact .inl (settle_of_reduceNode_eq_ok hf ▸ h)
      · obtain ⟨link, hm, -, hlink⟩ := exists_of_mem_reduceLinks hl hm'
        exact .inr (.inl ⟨link, hm, settle_of_reduceNode_eq_ok hlink ▸ h⟩)
      · rw [blamedSpan_congr hspan hspans] at herr hcut
        refine .inr (.inr ⟨i, hlength ▸ hi, herr, ?_⟩)
        rw [leading, settle_chain hf (outcome_reduceLinks_take hl (i + 1))]
        exact hcut

end Expr

end Abacus
