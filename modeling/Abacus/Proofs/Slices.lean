import Abacus.Proofs.Printing
import Abacus.Proofs.Recognition
import Abacus.Proofs.Tiling

/-!
# The parts of an expression in its text

Each node of a parsed expression stands for a slice of the text: the one its span names. Read on
its own, the slice gives the node again, moved to the front. The same goes for a chain that is
cut after one of its links, with the span from its first operand to the last one that is left.
So the parser decides nothing by what stands around a part (`parse_slices`).

This is shown on the derivation. Each part is what some piece of it means
(`IsA.exists_piece_of_isPartOf`). The tokens of a piece are neighbours in the text, hence those
of a slice, and with them the piece is a derivation of the slice.
-/

namespace Abacus

namespace Expr

/-! ### Nodes and cut chains -/

/-- An expression itself, and the nodes of its operands. -/
inductive IsNodeOf (n : Expr) : Expr → Prop where
  | self : IsNodeOf n n
  | first {first : Expr} {links : List Link} {span : Span} :
      IsNodeOf n first → IsNodeOf n (.chain first links span)
  | operand {first : Expr} {links : List Link} {span : Span} {link : Link} :
      link ∈ links → IsNodeOf n link.operand → IsNodeOf n (.chain first links span)

theorem forall_isNodeOf_literal_iff {p : Expr → Prop} {value : Literal} {span : Span} :
    (∀ n : Expr, n.IsNodeOf (literal value span) → p n) ↔ p (literal value span) := by
  constructor
  · intro h
    exact h _ .self
  · rintro h n (_ | _ | _)
    exact h

theorem forall_isNodeOf_chain_iff {p : Expr → Prop} {first : Expr} {links : List Link} {span : Span} :
    (∀ n : Expr, n.IsNodeOf (chain first links span) → p n) ↔
      p (chain first links span) ∧ (∀ n : Expr, n.IsNodeOf first → p n) ∧
        ∀ link ∈ links, ∀ n : Expr, n.IsNodeOf link.operand → p n := by
  constructor
  · intro h
    exact ⟨h _ .self, fun n hn => h n (.first hn), fun link hm n hn => h n (.operand hm hn)⟩
  · rintro ⟨hself, hf, hl⟩ n (_ | hn | ⟨hm, hn⟩)
    · exact hself
    · exact hf n hn
    · exact hl _ hm n hn

/-- A chain that is cut after link `index`. -/
def cut (first : Expr) (links : List Link) (index : Nat) : Expr :=
  .chain first (links.take (index + 1)) (leadingSpan first links index)

/-- A node, or a chain among the nodes that is cut after one of its links. -/
inductive IsPartOf : Expr → Expr → Prop where
  | node {n e : Expr} : n.IsNodeOf e → IsPartOf n e
  | cut {first : Expr} {links : List Link} {span : Span} {e : Expr} {index : Nat} :
      (chain first links span).IsNodeOf e → index < links.length →
      IsPartOf (cut first links index) e

theorem IsNodeOf.of_withSpan {n e : Expr} {span : Span} (h : n.IsNodeOf (e.withSpan span)) :
    n = e.withSpan span ∨ n.IsNodeOf e := by
  cases e with
  | literal value span' =>
    cases h with
    | self => exact .inl rfl
  | chain first links span' =>
    cases h with
    | self => exact .inl rfl
    | first hn => exact .inr (.first hn)
    | operand hm hn => exact .inr (.operand hm hn)

theorem IsNodeOf.of_ofChain {n first : Expr} {links : List Link}
    (h : n.IsNodeOf (ofChain first links)) :
    n = ofChain first links ∨ n.IsNodeOf first ∨ ∃ link ∈ links, n.IsNodeOf link.operand := by
  by_cases hne : links = []
  · rw [hne, ofChain_nil] at h
    exact .inr (.inl h)
  · obtain ⟨span, hchain⟩ := exists_ofChain_eq first hne
    rw [hchain] at h ⊢
    cases h with
    | self => exact .inl rfl
    | first hn => exact .inr (.inl hn)
    | operand hm hn => exact .inr (.inr ⟨_, hm, hn⟩)

theorem ofChain_take (first : Expr) {links : List Link} {index : Nat} (h : index < links.length) :
    ofChain first (links.take (index + 1)) = cut first links index := by
  rw [cut, List.take_succ_eq_append_getElem h, ofChain_concat, leadingSpan,
    List.getElem?_eq_getElem h]

/-- A chain that is cut has the text that the whole chain has up to there. -/
theorem text_cut (first : Expr) (links : List Link) (index : Nat) :
    (cut first links index).text = leadingText first links index := by
  rw [cut, text, leadingText, level_take_succ]

end Expr

namespace Derivation

/-! ### Pieces of a derivation -/

/-- A derivation of some phrase, from neighbouring tokens of another one, that needs no more
parentheses to be open. -/
def IsPieceOf (d' d : Derivation) : Prop :=
  (∃ phrase, IsA phrase d') ∧ d'.tokens <:+: d.tokens ∧ d'.depth ≤ d.depth

theorem IsA.isPieceOf {phrase : Phrase} {d : Derivation} (h : IsA phrase d) : d.IsPieceOf d :=
  ⟨⟨phrase, h⟩, List.infix_rfl, Nat.le_refl _⟩

theorem IsPieceOf.mono {d'' d' d : Derivation} (h : d''.IsPieceOf d')
    (ht : d'.tokens <:+: d.tokens) (hd : d'.depth ≤ d.depth) : d''.IsPieceOf d :=
  ⟨h.1, h.2.1.trans ht, Nat.le_trans h.2.2 hd⟩

theorem IsPieceOf.trans {d'' d' d : Derivation} (h : d''.IsPieceOf d') (h' : d'.IsPieceOf d) :
    d''.IsPieceOf d :=
  h.mono h'.2.1 h'.2.2

theorem IsPieceOf.group {d inner : Derivation} (h : d.IsPieceOf inner) (opening closing : Token) :
    d.IsPieceOf (.group opening inner closing) :=
  h.mono ⟨[opening], [closing], rfl⟩ (Nat.le_succ _)

theorem IsPieceOf.first {d first : Derivation} (h : d.IsPieceOf first) (steps : List Step) :
    d.IsPieceOf (.repetition first steps) :=
  h.mono (List.prefix_append _ _).isInfix (Nat.le_max_left _ _)

theorem IsPieceOf.part {d first : Derivation} {steps : List Step} {step : Step}
    (hm : step ∈ steps) (h : d.IsPieceOf step.part) : d.IsPieceOf (.repetition first steps) := by
  obtain ⟨before, behind, rfl⟩ := List.append_of_mem hm
  obtain ⟨token, op, part⟩ := step
  refine h.mono ⟨first.tokens ++ stepTokens before ++ [token], stepTokens behind, ?_⟩ ?_
  · simp [tokens, stepTokens]
  · rw [depth]
    exact Nat.le_trans (depth_le_stepDepth hm) (Nat.le_max_right _ _)

/-- A repetition is still one without its last steps. -/
theorem IsA.isPieceOf_take {phrase : Phrase} {first : Derivation} {steps : List Step}
    (h : IsA phrase (.repetition first steps)) (n : Nat) :
    IsPieceOf (.repetition first (steps.take n)) (.repetition first steps) := by
  have hsteps := List.take_append_drop n steps
  cases h with
  | repetition hne hf hs hparts =>
    refine ⟨⟨phrase, .repetition hne hf ?_ ?_⟩, ⟨[], stepTokens (steps.drop n), ?_⟩, ?_⟩
    · intro step hm
      exact hs step (List.mem_of_mem_take hm)
    · intro step hm
      exact hparts step (List.mem_of_mem_take hm)
    · rw [List.nil_append, tokens, tokens, List.append_assoc, ← stepTokens_append, hsteps]
    · have hdepth := stepDepth_append (steps.take n) (steps.drop n)
      rw [hsteps] at hdepth
      rw [depth, depth, hdepth]
      omega

/-- Each node of the expression that is meant is meant by a piece. -/
theorem IsA.exists_piece_of_isNodeOf {phrase : Phrase} {d : Derivation} (h : IsA phrase d)
    {n : Expr} (hn : n.IsNodeOf d.expr) : ∃ d' : Derivation, d'.IsPieceOf d ∧ d'.expr = n := by
  induction h with
  | @number token value hk =>
    cases hn with
    | self => exact ⟨_, (IsA.number hk).isPieceOf, rfl⟩
  | @group opening closing inner ho hi hc ih =>
    rcases hn.of_withSpan with rfl | hn
    · exact ⟨_, (IsA.group ho hi hc).isPieceOf, rfl⟩
    · obtain ⟨d', hd', rfl⟩ := ih hn
      exact ⟨d', hd'.group opening closing, rfl⟩
  | @repetition phrase first steps hne hf hs hparts ihf ihs =>
    rcases hn.of_ofChain with rfl | hn | ⟨link, hm, hn⟩
    · exact ⟨_, (IsA.repetition hne hf hs hparts).isPieceOf, rfl⟩
    · obtain ⟨d', hd', rfl⟩ := ihf hn
      exact ⟨d', hd'.first steps, rfl⟩
    · rw [stepLinks_eq_map] at hm
      obtain ⟨step, hstep, rfl⟩ := List.mem_map.mp hm
      obtain ⟨d', hd', rfl⟩ := ihs step hstep hn
      exact ⟨d', hd'.part hstep, rfl⟩

/-- What means a chain has a repetition in it that means this chain, but for parentheses around
it. -/
theorem IsA.exists_repetition {phrase : Phrase} {d : Derivation} (h : IsA phrase d) {first : Expr}
    {links : List Link} {span : Span} (he : d.expr = .chain first links span) :
    ∃ first' steps, IsPieceOf (.repetition first' steps) d ∧ first'.expr = first ∧
      stepLinks steps = links := by
  induction h generalizing span with
  | number => cases he
  | @group opening closing inner _ _ _ ih =>
    have hinner : inner.expr = .chain first links inner.expr.span := by
      rw [expr] at he
      cases hi : inner.expr with
      | literal => simp [hi, Expr.withSpan] at he
      | chain => simp_all [Expr.withSpan, Expr.span]
    obtain ⟨first', steps, hp, hf, hl⟩ := ih hinner
    exact ⟨first', steps, hp.group opening closing, hf, hl⟩
  | @repetition phrase first' steps hne hf hs hparts ihf _ =>
    by_cases hsteps : stepLinks steps = []
    · rw [expr, hsteps, Expr.ofChain_nil] at he
      obtain ⟨first'', steps', hp, hf', hl⟩ := ihf he
      exact ⟨first'', steps', hp.first steps, hf', hl⟩
    · obtain ⟨span', hchain⟩ := Expr.exists_ofChain_eq first'.expr hsteps
      rw [expr, hchain, Expr.chain.injEq] at he
      exact ⟨first', steps, (IsA.repetition hne hf hs hparts).isPieceOf, he.1, he.2.1⟩

/-- **Each part of the expression that is meant is meant by a piece.** -/
theorem IsA.exists_piece_of_isPartOf {phrase : Phrase} {d : Derivation} (h : IsA phrase d)
    {n : Expr} (hn : n.IsPartOf d.expr) : ∃ d' : Derivation, d'.IsPieceOf d ∧ d'.expr = n := by
  generalize he : d.expr = e at hn
  cases hn with
  | node hn => exact h.exists_piece_of_isNodeOf (he ▸ hn)
  | @cut first links span _ index hn hi =>
    obtain ⟨d', hd', hchain⟩ := h.exists_piece_of_isNodeOf (he ▸ hn)
    obtain ⟨phrase', h'⟩ := hd'.1
    obtain ⟨first', steps, hr, rfl, rfl⟩ := h'.exists_repetition hchain
    obtain ⟨phrase'', hrepetition⟩ := hr.1
    refine ⟨_, ((hrepetition.isPieceOf_take (index + 1)).trans hr).trans hd', ?_⟩
    rw [expr, ← Expr.ofChain_take first'.expr hi, stepLinks_eq_map, stepLinks_eq_map, List.map_take]

/-! ### Moving a derivation -/

mutual

/-- The derivation when a text is put in front of the text that its tokens stand in. -/
def after (s : Text) : Derivation → Derivation
  | number token value => .number (token.after s) value
  | group opening inner closing => .group (opening.after s) (inner.after s) (closing.after s)
  | repetition first steps => .repetition (first.after s) (stepsAfter s steps)

/-- The steps when a text is put in front of the text that their tokens stand in. -/
def stepsAfter (s : Text) : List Step → List Step
  | [] => []
  | ⟨token, operator, part⟩ :: rest => ⟨token.after s, operator, part.after s⟩ :: stepsAfter s rest

end

theorem stepsAfter_eq_map (s : Text) (steps : List Step) :
    stepsAfter s steps =
      steps.map fun step => ⟨step.token.after s, step.operator, step.part.after s⟩ := by
  induction steps with
  | nil => rfl
  | cons step rest ih =>
    obtain ⟨token, operator, part⟩ := step
    rw [stepsAfter, ih, List.map_cons]

mutual

theorem tokens_after (s : Text) : ∀ d : Derivation, (d.after s).tokens = d.tokens.map (.after s)
  | number _ _ => rfl
  | group opening inner closing => by
    rw [after, tokens, tokens, tokens_after s inner, List.map_cons, List.map_append,
      List.map_singleton]
  | repetition first steps => by
    rw [after, tokens, tokens, tokens_after s first, stepTokens_stepsAfter s steps, List.map_append]

theorem stepTokens_stepsAfter (s : Text) :
    ∀ steps : List Step, stepTokens (stepsAfter s steps) = (stepTokens steps).map (.after s)
  | [] => rfl
  | ⟨token, _, part⟩ :: rest => by
    rw [stepsAfter, stepTokens, stepTokens, tokens_after s part, stepTokens_stepsAfter s rest,
      List.map_cons, List.map_append]

end

mutual

/-- A moved derivation means the same expression further on. -/
theorem expr_after (s : Text) : ∀ d : Derivation, (d.after s).expr = d.expr.shift (Text.byteSize s)
  | number token value => by rw [after, expr, expr, Token.span_after, Expr.shift]
  | group opening inner closing => by
    rw [after, expr, expr, expr_after s inner, Expr.shift_withSpan, Token.span_after,
      Token.span_after, Span.shift_cover]
  | repetition first steps => by
    rw [after, expr, expr, expr_after s first, stepLinks_stepsAfter s steps, Expr.shift_ofChain]

theorem stepLinks_stepsAfter (s : Text) : ∀ steps : List Step,
    stepLinks (stepsAfter s steps) = Expr.shiftLinks (Text.byteSize s) (stepLinks steps)
  | [] => rfl
  | ⟨_, _, part⟩ :: rest => by
    rw [stepsAfter, stepLinks, stepLinks, Expr.shiftLinks, expr_after s part,
      stepLinks_stepsAfter s rest]

end

theorem IsA.after {phrase : Phrase} {d : Derivation} (h : IsA phrase d) (s : Text) :
    IsA phrase (d.after s) := by
  induction h with
  | number hk => exact .number hk
  | group ho _ hc ih => exact .group ho ih hc
  | repetition hne _ hs _ ihf ihs =>
    refine .repetition hne ihf ?_ ?_
    · rw [stepsAfter_eq_map, List.forall_mem_map]
      exact hs
    · rw [stepsAfter_eq_map, List.forall_mem_map]
      exact ihs

/-! ### Pieces and slices -/

/-- What neighbouring tokens of a text are derived as is also derived from the tokens of the
slice that they make up. -/
theorem IsA.exists_of_slice {phrase : Phrase} {d : Derivation} (h : IsA phrase d) {s₁ s₂ : Text}
    (ht : d.tokens = (tokenize s₂).map (Token.after s₁)) :
    ∃ d', IsA phrase d' ∧ d'.tokens = tokenize s₂ ∧ d'.depth = d.depth ∧ d'.after s₁ = d := by
  have hkinds : (tokenize s₂).map Token.kind = d.tokens.map Token.kind := by
    rw [ht, List.map_map]
    rfl
  obtain ⟨d', h', ht', hdepth, -⟩ := h.exists_of_map_kind_eq hkinds
  refine ⟨d', h', ht', hdepth, ?_⟩
  refine (h'.after s₁).eq_of_tokens_eq h ?_
  rw [tokens_after, ht', ht]

/-- A piece of the derivation of a text is read from a slice of the text, on its own as inside of
the text. -/
theorem IsPieceOf.exists_slice {d d' : Derivation} (h : d'.IsPieceOf d) {s : Text}
    (ht : d.tokens = tokenize s) {maxDepth : Nat} (hd : d.depth ≤ maxDepth) :
    ∃ s₁ s₂ s₃ e, s = s₁ ++ s₂ ++ s₃ ∧ d'.tokens = (tokenize s₂).map (Token.after s₁) ∧
      d'.expr.span = ⟨Text.byteSize s₁, Text.byteSize s₁ + Text.byteSize s₂⟩ ∧
      Expr.parse maxDepth (tokenize s₂) = .ok e ∧ e.shift (Text.byteSize s₁) = d'.expr := by
  obtain ⟨⟨phrase, h⟩, hinfix, hdepth⟩ := h
  obtain ⟨s₁, s₂, s₃, hs, htokens⟩ := exists_slice_of_tokens (ht ▸ hinfix)
  obtain ⟨d₂, h₂, ht₂, hd₂, rfl⟩ := h.exists_of_slice htokens
  refine ⟨s₁, s₂, s₃, d₂.expr, hs, htokens, ?_, ?_, (expr_after s₁ d₂).symm⟩
  · rw [expr_after, Expr.span_shift, (h₂.spans 0 _ (ht₂ ▸ tile_tokenize s₂)).1, Span.shift,
      Nat.zero_add, Nat.add_comm]
  · -- the piece is a sum, since every phrase is
    have hsum : IsA .sum (d₂.lift (phrase.level - 1)) := by
      refine h₂.lift ?_
      have hlevel := phrase.one_le_level
      show 1 + (phrase.level - 1) = phrase.level
      omega
    have hlimit : (d₂.lift (phrase.level - 1)).depth ≤ maxDepth := by
      rw [depth_lift]
      omega
    have hparse := Expr.parse_tokens hsum hlimit
    rwa [tokens_lift, expr_lift, ht₂] at hparse

end Derivation

namespace Expr

open Abacus.Derivation

variable {maxDepth : Nat} {s : Text} {e : Expr}

/-- A parsed expression has the span of the whole text. -/
theorem span_of_parse (h : parse maxDepth (tokenize s) = .ok e) :
    e.span = ⟨0, Text.byteSize s⟩ := by
  obtain ⟨d, hd, htokens, -, rfl⟩ := exists_derivation_of_parse h
  exact (hd.spans _ _ (htokens ▸ tile_tokenize s)).1

/-- The span of a part is one of its text. The slice there has tokens of the text, and is read as
the part, moved to the front. -/
theorem slice_of_isPartOf (h : parse maxDepth (tokenize s) = .ok e) {n : Expr}
    (hn : n.IsPartOf e) :
    s.slice? n.span.start n.span.stop = some (n.span.slice s) ∧
      (∀ token ∈ tokenize (n.span.slice s), ∃ token' ∈ tokenize s, token'.kind = token.kind) ∧
      ∃ e', parse maxDepth (tokenize (n.span.slice s)) = .ok e' ∧ e'.shift n.span.start = n := by
  obtain ⟨d, hd, htokens, hdepth, rfl⟩ := exists_derivation_of_parse h
  obtain ⟨d', hpiece, rfl⟩ := hd.exists_piece_of_isPartOf hn
  obtain ⟨s₁, s₂, s₃, e', rfl, hslice, hspan, hparse, hshift⟩ := hpiece.exists_slice htokens hdepth
  have hcut := Text.slice?_append s₁ s₂ s₃
  rw [hspan, Span.slice, hcut, Option.getD_some]
  refine ⟨rfl, ?_, e', hparse, hshift⟩
  intro token hm
  refine ⟨token.after s₁, ?_, rfl⟩
  rw [← htokens]
  refine hpiece.2.1.subset ?_
  rw [hslice]
  exact List.mem_map_of_mem hm

/-- The operands of a chain are in order, and inside of the chain. -/
theorem inOrder_of_isNodeOf (h : parse maxDepth (tokenize s) = .ok e) {first : Expr}
    {links : List Link} {span : Span} (hn : (chain first links span).IsNodeOf e) :
    Span.InOrder (first.span :: linkSpans links) ∧
      ∀ operand ∈ first.span :: linkSpans links,
        span.start ≤ operand.start ∧ operand.stop ≤ span.stop := by
  obtain ⟨d, hd, htokens, -, rfl⟩ := exists_derivation_of_parse h
  obtain ⟨d', ⟨⟨phrase, h'⟩, hinfix, -⟩, hchain⟩ := hd.exists_piece_of_isNodeOf hn
  obtain ⟨first', steps, ⟨⟨phrase', hr⟩, hinfix', -⟩, rfl, rfl⟩ := h'.exists_repetition hchain
  -- the repetition stands inside of the chain, and its operands inside of the repetition
  have htile : Token.Tile 0 d.tokens (Text.byteSize s) := htokens ▸ tile_tokenize s
  obtain ⟨start, stop, -, -, ht⟩ := htile.of_infix hinfix
  obtain ⟨start', stop', hstart, hstop, ht'⟩ := ht.of_infix hinfix'
  have hspan := (h'.spans _ _ ht).1
  rw [hchain, Expr.span] at hspan
  obtain ⟨horder, hinside⟩ := hr.inOrder ht'
  refine ⟨horder, ?_⟩
  intro operand hm
  obtain ⟨hle, hle'⟩ := hinside operand hm
  rw [hspan]
  exact ⟨Nat.le_trans hstart hle, Nat.le_trans hle' hstop⟩

/-- A part of an expression that is read from a text: its span is one of the text, and the slice
there is read as the part, moved to the front. -/
def StandsIn (maxDepth : Nat) (s : Text) (n : Expr) : Prop :=
  s.slice? n.span.start n.span.stop = some (n.span.slice s) ∧
    ∃ e, parse maxDepth (tokenize (n.span.slice s)) = .ok e ∧ e.shift n.span.start = n

theorem standsIn_of_isPartOf (h : parse maxDepth (tokenize s) = .ok e) {n : Expr}
    (hn : n.IsPartOf e) : n.StandsIn maxDepth s := by
  obtain ⟨hslice, -, hread⟩ := slice_of_isPartOf h hn
  exact ⟨hslice, hread⟩

/-- **The parts of a parsed expression in its text**: it spans the whole text. The slice at the
span of each node is read as that node, and the slice from the first operand of a chain to that of
link `index` as the chain cut there; what is printed for it is the leading text of the chain. The
operands of a chain stand one after another, and inside of the chain. -/
theorem parse_slices (h : parse maxDepth (tokenize s) = .ok e) :
    e.span = ⟨0, Text.byteSize s⟩ ∧
      (∀ n : Expr, n.IsNodeOf e → n.StandsIn maxDepth s) ∧
      ∀ first links span, (chain first links span).IsNodeOf e →
        (∀ index < links.length, (cut first links index).StandsIn maxDepth s ∧
          (cut first links index).span = leadingSpan first links index ∧
          (cut first links index).text = leadingText first links index) ∧
        Span.InOrder (first.span :: linkSpans links) ∧
        ∀ operand ∈ first.span :: linkSpans links,
          span.start ≤ operand.start ∧ operand.stop ≤ span.stop := by
  refine ⟨span_of_parse h, ?_, ?_⟩
  · intro n hn
    exact standsIn_of_isPartOf h (.node hn)
  · intro first links span hn
    refine ⟨?_, inOrder_of_isNodeOf h hn⟩
    intro index hi
    exact ⟨standsIn_of_isPartOf h (.cut hn hi), rfl, text_cut first links index⟩

/-- The part of `8-(2*3)-1` up to its first link is read from `8-(2*3)`. -/
theorem parse_slice_of_difference :
    parse 1 (tokenize "8-(2*3)-1".toList) =
      .ok (.chain (.literal (.int 8) ⟨0, 1⟩)
        [⟨.sub, .chain (.literal (.int 2) ⟨3, 4⟩) [⟨.mul, .literal (.int 3) ⟨5, 6⟩⟩] ⟨2, 7⟩⟩,
          ⟨.sub, .literal (.int 1) ⟨8, 9⟩⟩] ⟨0, 9⟩) ∧
    ∃ e, parse 1 (tokenize "8-(2*3)".toList) = .ok e ∧
      e.shift 0 = .chain (.literal (.int 8) ⟨0, 1⟩)
        [⟨.sub, .chain (.literal (.int 2) ⟨3, 4⟩) [⟨.mul, .literal (.int 3) ⟨5, 6⟩⟩] ⟨2, 7⟩⟩]
        ⟨0, 7⟩ := by
  have h : parse 1 (tokenize "8-(2*3)-1".toList) = .ok _ := rfl
  exact ⟨h, (((parse_slices h).2.2 _ _ _ .self).1 0 (by decide)).1.2⟩

end Expr

end Abacus
