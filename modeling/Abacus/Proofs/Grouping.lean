import Abacus.Proofs.Reduct
import Abacus.Proofs.Rejection
import Abacus.Proofs.Replacement
import Abacus.Proofs.RoundTrip
import Abacus.Proofs.Slices

/-!
# How tightly operands bind

An operand of a chain may be a chain itself. In a parsed expression there are two reasons for
that: its operators are tighter than those of the chain around it, or it stands in parentheses in
the text (`Expr.IsGrouped`). Each pair of parentheses leaves room for three chains within each
other, one for each level, and so does the text outside of them. So how deeply chains are nested
depends on the parentheses alone, however long the text is
(`Derivation.IsA.chainDepth_expr_add_level_le`).

Reducing replaces chains by literals, and keeps the operators and the spans of the others. That is
why the notions here ask for nothing but operators and spans: what is said of an expression is then
said of the reduced one as well (`Expr.IsGrouped.reduceNode`).
-/

namespace Abacus

/-- At the span, the text has an expression in parentheses. -/
def Span.IsParenthesised (s : Text) (span : Span) : Prop :=
  ∃ before inner behind, s = Text.enclose before inner behind ∧
    span = ⟨Text.byteSize before, Text.byteSize before + Text.byteSize inner + 2⟩ ∧
    ∃ maxDepth e, Expr.parse maxDepth (tokenize inner) = .ok e

namespace Expr

/-! ### Operands of a level -/

/-- A chain has operators of a tighter level than `l`, or its span is one of the `marked` ones.
Nothing is asked of a literal. -/
def BindsAbove (marked : Span → Prop) (l : Nat) : Expr → Prop
  | literal _ _ => True
  | chain _ links span => l < level links ∨ marked span

/-- Each chain has at least one link and operators of one level, and the operands of each chain bind
more tightly than the chain, but for those whose span is marked. -/
def IsGrouped (marked : Span → Prop) : Expr → Prop :=
  Everywhere (fun _ => True) fun first links =>
    (links ≠ [] ∧ SameLevel links) ∧ first.BindsAbove marked (level links) ∧
      ∀ link ∈ links, link.operand.BindsAbove marked (level links)

variable {marked : Span → Prop}

theorem bindsAbove_withSpan_of_marked {span : Span} (h : marked span) (l : Nat) (e : Expr) :
    (e.withSpan span).BindsAbove marked l := by
  cases e with
  | literal => exact trivial
  | chain => exact .inr h

theorem bindsAbove_ofChain {first : Expr} {links : List Link} {l : Nat} (hne : links ≠ [])
    (h : l < level links) : (ofChain first links).BindsAbove marked l := by
  obtain ⟨span, hchain⟩ := exists_ofChain_eq first hne
  rw [hchain]
  exact .inl h

end Expr

/-! ### Parentheses in the text -/

/-- Tokens between parentheses are those of the part of the text between the parentheses. -/
theorem exists_enclose_of_tokens {s : Text} {opening closing : Token} {tokens : List Token}
    (h : opening :: (tokens ++ [closing]) <:+: tokenize s) (ho : opening.kind = .leftParen)
    (hc : closing.kind = .rightParen) :
    ∃ before inner behind, s = Text.enclose before inner behind ∧
      tokens = (tokenize inner).map (Token.after (before ++ ['('])) ∧
      opening.span.cover closing.span =
        ⟨Text.byteSize before, Text.byteSize before + Text.byteSize inner + 2⟩ := by
  have hopening : opening.lexeme = ['('] := by
    have hwritten := isWrittenAs_of_mem_tokenize (h.subset (by simp : opening ∈ _))
    rwa [ho] at hwritten
  have hclosing : closing.lexeme = [')'] := by
    have hwritten := isWrittenAs_of_mem_tokenize (h.subset (by simp : closing ∈ _))
    rwa [hc] at hwritten
  obtain ⟨front, back, h⟩ := h
  have hplace : Token.place 1 0 s.lexemes = front ++ (opening :: (tokens ++ closing :: back)) := by
    rw [← tokenize, ← h]
    simp
  obtain ⟨l₁, l, hl, -, hopen⟩ := Token.exists_lexemes_of_place_eq_append hplace
  obtain ⟨l, rfl, hostart, hmiddle⟩ := Token.exists_lexemes_of_place_eq_cons hopen.symm
  obtain ⟨l₂, l, rfl, rfl, hclose⟩ := Token.exists_lexemes_of_place_eq_append hmiddle.symm
  obtain ⟨l₃, rfl, hcstart, -⟩ := Token.exists_lexemes_of_place_eq_cons hclose.symm
  rw [hopening, hclosing] at hl
  refine ⟨l₁.flatten, l₂.flatten, l₃.flatten, ?_, ?_, ?_⟩
  · rw [← s.flatten_lexemes, hl]
    simp [Text.enclose]
  · have hinner : Text.lexemes l₂.flatten = l₂ :=
      Text.lexemes_flatten (s := s) ⟨l₁ ++ [['(']], [')'] :: l₃, by simp [hl]⟩
    rw [tokenize, hinner, ← Token.place_after, hopening, List.length_append, Text.byteSize_append,
      ← Nat.add_assoc, Nat.zero_add, Nat.zero_add]
  · have hsize : Text.byteSize ['('] = 1 := rfl
    have hsize' : Text.byteSize [')'] = 1 := rfl
    simp only [Span.cover, Token.span, Token.stop, hostart, hcstart, hopening, hclosing, hsize,
      hsize', Span.mk.injEq]
    omega

namespace Derivation

/-- What a group stands for in the text. -/
theorem IsPieceOf.isParenthesised {d inner : Derivation} {opening closing : Token}
    (h : IsPieceOf (.group opening inner closing) d) {s : Text} (ht : d.tokens = tokenize s) :
    (opening.span.cover closing.span).IsParenthesised s := by
  obtain ⟨⟨phrase, hgroup⟩, hinfix, -⟩ := h
  cases hgroup with
  | group ho hi hc =>
    obtain ⟨before, x, behind, hs, htokens, hspan⟩ := exists_enclose_of_tokens (ht ▸ hinfix) ho hc
    obtain ⟨d', hd', htokens', -, -⟩ := hi.exists_of_slice htokens
    exact ⟨before, x, behind, hs, hspan, d'.depth, d'.expr,
      htokens' ▸ Expr.parse_tokens hd' (Nat.le_refl _)⟩

/-! ### What is derived -/

variable {phrase : Phrase} {d : Derivation}

/-- **Operands that are derived bind more tightly than the chain around them**, or stand in
parentheses: what is derived as a phrase has operators of the level of the phrase or tighter
ones. -/
theorem IsA.isGrouped_expr (h : IsA phrase d) {marked : Span → Prop}
    (hmarked : ∀ opening inner closing, IsPieceOf (.group opening inner closing) d →
      marked (opening.span.cover closing.span)) :
    d.expr.IsGrouped marked ∧ ∀ l < phrase.level, d.expr.BindsAbove marked l := by
  induction h with
  | number => exact ⟨.literal trivial, fun _ _ => trivial⟩
  | @group opening closing inner ho hi hc ih =>
    obtain ⟨hgrouped, -⟩ := ih fun o i c hp => hmarked o i c (hp.group opening closing)
    rw [expr]
    refine ⟨Expr.everywhere_withSpan.mpr hgrouped, fun l _ => ?_⟩
    exact Expr.bindsAbove_withSpan_of_marked (hmarked _ _ _ (IsA.group ho hi hc).isPieceOf) l _
  | @repetition phrase first steps hne hf hs hparts ihf ihs =>
    obtain ⟨hfirst, hbinds⟩ := ihf fun o i c hp => hmarked o i c (hp.first steps)
    have hpart := Phrase.level_part hne
    by_cases hsteps : steps = []
    · rw [hsteps, expr, stepLinks, Expr.ofChain_nil]
      exact ⟨hfirst, fun l hl => hbinds l (by omega)⟩
    · have hlinks := stepLinks_ne_nil hsteps
      have hoperators := precedence_of_mem_stepLinks hs
      have hlevel := Expr.level_of_forall hlinks hoperators
      have hoperands : ∀ link ∈ stepLinks steps, link.operand.IsGrouped marked ∧
          link.operand.BindsAbove marked phrase.level := by
        refine forall_mem_stepLinks.mpr fun step hm => ?_
        obtain ⟨hgrouped, hbinds⟩ := ihs step hm fun o i c hp => hmarked o i c (hp.part hm)
        exact ⟨hgrouped, hbinds _ (by omega)⟩
      rw [expr]
      refine ⟨?_, fun l hl => Expr.bindsAbove_ofChain hlinks (hlevel ▸ hl)⟩
      refine Expr.everywhere_ofChain (fun _ => ?_) hfirst fun link hm => (hoperands link hm).1
      rw [hlevel]
      exact ⟨⟨hlinks, Expr.sameLevel_of_forall hoperators⟩, hbinds _ (by omega),
        fun link hm => (hoperands link hm).2⟩

end Derivation

namespace Expr

open Abacus.Derivation

/-! ### What is reduced -/

variable {pow : Binary64 → Binary64 → Binary64} {marked : Span → Prop} {e reduced : Expr}

/-- A reduced operand binds as tightly as the operand, or is a literal. -/
theorem BindsAbove.reduceNode {l : Nat} (h : e.BindsAbove marked l)
    (hr : (e.reduceNode pow).outcome = .ok reduced) : reduced.BindsAbove marked l := by
  cases e with
  | literal =>
    obtain rfl := Except.ok.inj hr
    exact trivial
  | chain first links span =>
    by_cases hne : links = []
    · -- a chain without links is no tighter than anything, so it is marked
      have hspan : marked span := by simpa [BindsAbove, hne, level] using h
      rw [outcome_reduceNode_chain_eq_ok_iff, hne] at hr
      obtain ⟨first', links', -, hl, hr⟩ := hr
      obtain rfl := Except.ok.inj hl
      obtain rfl := Except.ok.inj hr
      exact bindsAbove_withSpan_of_marked hspan l _
    · rcases reduceNode_chain_cases hne hr with ⟨-, value, rfl⟩ | ⟨-, first', links', -, hl, rfl⟩
      · exact trivial
      · rw [BindsAbove, level_eq_of_map_operator (map_operator_reduceLinks hl)]
        exact h

/-- **Reducing keeps the grouping of operands.** -/
theorem IsGrouped.reduceNode (h : e.IsGrouped marked)
    (hr : (e.reduceNode pow).outcome = .ok reduced) : reduced.IsGrouped marked := by
  induction h generalizing reduced with
  | literal =>
    obtain rfl := Except.ok.inj hr
    exact .literal trivial
  | @chain first links span hn _ _ ihf ihl =>
    obtain ⟨⟨hne, hlevel⟩, hfirst, hoperands⟩ := hn
    rcases reduceNode_chain_cases hne hr with ⟨-, value, rfl⟩ | ⟨-, first', links', hrf, hrl, rfl⟩
    · exact .literal trivial
    · have hlevel' := level_eq_of_map_operator (map_operator_reduceLinks hrl)
      refine .chain ⟨⟨ne_nil_of_reduceLinks hne hrl, ?_⟩, hlevel' ▸ hfirst.reduceNode hrf, ?_⟩
        (ihf hrf) ?_
      · intro link' hm'
        obtain ⟨link, hm, hop, -⟩ := exists_of_mem_reduceLinks hrl hm'
        rw [hop, hlevel', hlevel link hm]
      · intro link' hm'
        obtain ⟨link, hm, -, ho⟩ := exists_of_mem_reduceLinks hrl hm'
        exact hlevel' ▸ (hoperands link hm).reduceNode ho
      · intro link' hm'
        obtain ⟨link, hm, -, ho⟩ := exists_of_mem_reduceLinks hrl hm'
        exact ihl link hm ho

/-- **Reducing nests chains no deeper**, whatever the expression. -/
theorem chainDepth_reduceNode_le (hr : (e.reduceNode pow).outcome = .ok reduced) :
    reduced.chainDepth ≤ e.chainDepth := by
  induction e using Expr.induction generalizing reduced with
  | literal value span =>
    obtain rfl := Except.ok.inj hr
    exact Nat.le_refl _
  | chain first links span ihf ihl =>
    rw [outcome_reduceNode_chain_eq_ok_iff] at hr
    obtain ⟨first', links', hf, hl, hr⟩ := hr
    obtain ⟨hfirst, hoperands⟩ := chainDepth_chain_le_iff.mp
      (Nat.le_refl (chain first links span).chainDepth)
    by_cases hpow : links'.head?.any (·.operator = .pow)
    · rw [outcome_rebuild_of_pow hpow] at hr
      obtain ⟨value, rfl, -⟩ := exists_literal_of_foldPowers (ne_nil_of_head?_any hpow) hr
      exact Nat.zero_le _
    · rw [rebuild, if_neg hpow] at hr
      obtain rfl := Except.ok.inj hr
      rw [chainDepth_withSpan]
      refine chainDepth_ofChain_le (Nat.le_trans (ihf hf) hfirst) fun link' hm' => ?_
      obtain ⟨link, hm, -, ho⟩ := exists_of_mem_reduceLinks hl hm'
      exact Nat.le_trans (ihl link hm ho) (hoperands link hm)

/-- **The shape of parsed and reduced expressions.** In a parsed expression each chain has a link
and operators of one level, an operand that is a chain binds more tightly or stands in parentheses in
the text, no literal has a sign, and chains are nested at most three times for each parenthesis that
the limit allows to be open, and three times outside of them. Reducing any expression keeps the first
two, and nests chains no deeper. -/
theorem parse_and_reduce_shape :
    (∀ maxDepth (s : Text) e, parse maxDepth (tokenize s) = .ok e →
      e.IsGrouped (Span.IsParenthesised s) ∧ (∀ value ∈ e.literals, IsUnsigned value) ∧
        e.chainDepth ≤ 3 * (maxDepth + 1)) ∧
    ∀ pow e reduced, (reduce pow e).outcome = .ok reduced →
      (∀ marked, e.IsGrouped marked → reduced.IsGrouped marked) ∧
        reduced.chainDepth ≤ e.chainDepth := by
  constructor
  · intro maxDepth s e h
    refine ⟨?_, (isPlain_of_parse h).forall_mem_literals, ?_⟩
    · obtain ⟨d, hd, htokens, -, rfl⟩ := exists_derivation_of_parse h
      exact (hd.isGrouped_expr fun _ _ _ hpiece => hpiece.isParenthesised htokens).1
    · obtain ⟨d, hd, -, hdepth, rfl⟩ := exists_derivation_of_parse h
      have hle := hd.chainDepth_expr_add_level_le
      rw [Phrase.level] at hle
      omega
  · intro pow e reduced hr
    rcases outcome_reduce_cases hr with rfl | hr
    · exact ⟨fun _ h => h, Nat.le_refl _⟩
    · exact ⟨fun _ h => h.reduceNode hr, chainDepth_reduceNode_le hr⟩

/-- In `(2-3)*4^5` the difference is the weaker operand, and stands in parentheses. The power is
tighter, and is reduced. -/
theorem parse_and_reduce_shape_of_product :
    ∃ e reduced : Expr, parse 1 (tokenize "(2-3)*4^5".toList) = .ok e ∧
      (e.reduce fun x _ => x).outcome = .ok reduced ∧
      reduced.IsGrouped (Span.IsParenthesised "(2-3)*4^5".toList) ∧
      (∀ value ∈ e.literals, IsUnsigned value) ∧ e.chainDepth ≤ 6 ∧
      reduced.chainDepth ≤ e.chainDepth := by
  have hparse : parse 1 (tokenize "(2-3)*4^5".toList) = .ok (.chain
      (.chain (.literal (.int 2) ⟨1, 2⟩) [⟨.sub, .literal (.int 3) ⟨3, 4⟩⟩] ⟨0, 5⟩)
      [⟨.mul, .chain (.literal (.int 4) ⟨6, 7⟩) [⟨.pow, .literal (.int 5) ⟨8, 9⟩⟩] ⟨6, 9⟩⟩]
      ⟨0, 9⟩) := rfl
  have hreduce : (reduce (fun x _ => x) (.chain
      (.chain (.literal (.int 2) ⟨1, 2⟩) [⟨.sub, .literal (.int 3) ⟨3, 4⟩⟩] ⟨0, 5⟩)
      [⟨.mul, .chain (.literal (.int 4) ⟨6, 7⟩) [⟨.pow, .literal (.int 5) ⟨8, 9⟩⟩] ⟨6, 9⟩⟩]
      ⟨0, 9⟩)).outcome = .ok (.chain
      (.chain (.literal (.int 2) ⟨1, 2⟩) [⟨.sub, .literal (.int 3) ⟨3, 4⟩⟩] ⟨0, 5⟩)
      [⟨.mul, .literal (.int 1024) ⟨6, 9⟩⟩] ⟨0, 9⟩) :=
    Except.toOption_eq_some_iff.mp (by decide +kernel)
  obtain ⟨hgrouped, hunsigned, hdepth⟩ := parse_and_reduce_shape.1 _ _ _ hparse
  obtain ⟨hkeeps, hle⟩ := parse_and_reduce_shape.2 _ _ _ hreduce
  exact ⟨_, _, hparse, hreduce, hkeeps _ hgrouped, hunsigned, hdepth, hle⟩

end Expr

end Abacus
