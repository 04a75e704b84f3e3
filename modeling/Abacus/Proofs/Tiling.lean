import Abacus.Proofs.Grammar
import Abacus.Proofs.Shift
import Abacus.Proofs.Spelling

/-!
# Tokens side by side

The tokens of a text leave no gap: each begins where the one before it ends (`tile_tokenize`).
So what is derived from neighbouring tokens has the span from the beginning of the first one to
the end of the last one (`IsA.spans`), and the operands of a repetition stand one after
another with the operators between them (`IsA.inOrder`).

Neighbouring tokens of a text are the tokens of a slice of the text, moved to where the slice
stands (`exists_slice_of_tokens`). This is not a matter of course, since a slice could cut a run
of digits; but tokens are complete runs, and so are the tokens of what they spell.
-/

namespace Abacus

namespace Token

/-! ### Moved tokens -/

/-- The token when a text is put in front of the text that it stands in. -/
def after (s : Text) (t : Token) : Token :=
  ⟨t.kind, t.lexeme, t.column + s.length, t.offset + Text.byteSize s⟩

variable {s : Text}

@[simp] theorem span_after (t : Token) : (t.after s).span = t.span.shift (Text.byteSize s) := by
  have hstop : (t.after s).stop = t.stop + Text.byteSize s := by
    simp only [stop, after]
    omega
  rw [span, hstop]
  rfl

theorem place_after (column offset : Nat) (lexemes : List Text) :
    place (column + s.length) (offset + Text.byteSize s) lexemes =
      (place column offset lexemes).map (after s) := by
  induction lexemes generalizing column offset with
  | nil => rfl
  | cons lexeme rest ih =>
    rw [place, place, List.map_cons, ← ih, after, Nat.add_right_comm column,
      Nat.add_right_comm offset]

/-- Where tokens are placed in two groups, the lexemes are in two groups, and the second one is
placed where the first one ends. -/
theorem exists_lexemes_of_place_eq_append {column offset : Nat} {lexemes : List Text}
    {tokens tokens' : List Token} (h : place column offset lexemes = tokens ++ tokens') :
    ∃ l l', lexemes = l ++ l' ∧ tokens = place column offset l ∧
      tokens' = place (column + l.flatten.length) (offset + Text.byteSize l.flatten) l' := by
  induction tokens generalizing column offset lexemes with
  | nil => exact ⟨[], lexemes, rfl, rfl, h.symm⟩
  | cons token tokens ih =>
    cases lexemes with
    | nil => cases h
    | cons lexeme rest =>
      rw [place, List.cons_append, List.cons.injEq] at h
      obtain ⟨rfl, h⟩ := h
      obtain ⟨l, l', rfl, rfl, rfl⟩ := ih h
      refine ⟨lexeme :: l, l', rfl, rfl, ?_⟩
      rw [List.flatten_cons, List.length_append, Text.byteSize_append, Nat.add_assoc, Nat.add_assoc]

/-- The first token that is placed is that of the first lexeme. -/
theorem exists_lexemes_of_place_eq_cons {column offset : Nat} {lexemes : List Text}
    {token : Token} {tokens : List Token} (h : place column offset lexemes = token :: tokens) :
    ∃ rest, lexemes = token.lexeme :: rest ∧ token.offset = offset ∧
      tokens = place (column + token.lexeme.length) (offset + Text.byteSize token.lexeme) rest := by
  cases lexemes with
  | nil => cases h
  | cons lexeme rest =>
    obtain ⟨rfl, rfl⟩ := List.cons.inj h
    exact ⟨rest, rfl, rfl, rfl⟩

/-! ### Tokens without gaps -/

/-- The tokens begin at an offset, each of them where the one before it ends, and end at
another offset. -/
def Tile : Nat → List Token → Nat → Prop
  | start, [], stop => start = stop
  | start, token :: rest, stop =>
    token.offset = start ∧ start < token.stop ∧ Tile token.stop rest stop

theorem Tile.le {start stop : Nat} {tokens : List Token} (h : Tile start tokens stop) :
    start ≤ stop := by
  induction tokens generalizing start with
  | nil => exact Nat.le_of_eq h
  | cons token rest ih =>
    have := ih h.2.2
    have := h.2.1
    omega

theorem tile_append {start stop : Nat} {tokens tokens' : List Token} :
    Tile start (tokens ++ tokens') stop ↔
      ∃ middle, Tile start tokens middle ∧ Tile middle tokens' stop := by
  induction tokens generalizing start with
  | nil =>
    constructor
    · intro h
      exact ⟨start, rfl, h⟩
    · rintro ⟨middle, rfl, h⟩
      exact h
  | cons token rest ih =>
    constructor
    · rintro ⟨hstart, hlt, h⟩
      obtain ⟨middle, hl, hr⟩ := ih.mp h
      exact ⟨middle, ⟨hstart, hlt, hl⟩, hr⟩
    · rintro ⟨middle, ⟨hstart, hlt, hl⟩, hr⟩
      exact ⟨hstart, hlt, ih.mpr ⟨middle, hl, hr⟩⟩

/-- Neighbouring ones of tokens without gaps have no gaps either, and stay inside. -/
theorem Tile.of_infix {start stop : Nat} {tokens tokens' : List Token}
    (h : Tile start tokens' stop) (hi : tokens <:+: tokens') :
    ∃ start' stop', start ≤ start' ∧ stop' ≤ stop ∧ Tile start' tokens stop' := by
  obtain ⟨before, behind, rfl⟩ := hi
  obtain ⟨stop', hleft, hbehind⟩ := tile_append.mp h
  obtain ⟨start', hbefore, htokens⟩ := tile_append.mp hleft
  exact ⟨start', stop', hbefore.le, hbehind.le, htokens⟩

theorem tile_place {lexemes : List Text} (h : [] ∉ lexemes) (column offset : Nat) :
    Tile offset (place column offset lexemes) (offset + Text.byteSize lexemes.flatten) := by
  induction lexemes generalizing column offset with
  | nil => rfl
  | cons lexeme rest ih =>
    rw [List.mem_cons, not_or] at h
    have hpos : Text.byteSize lexeme ≠ 0 := fun h0 =>
      h.1 ((Text.byteSize_eq_zero_iff lexeme).mp h0).symm
    rw [List.flatten_cons, Text.byteSize_append, ← Nat.add_assoc]
    exact ⟨rfl, by simp only [stop]; omega, ih h.2 _ _⟩

end Token

/-! ### Slices of a text -/

/-- Successive lexemes of a text are the lexemes of what they spell. -/
theorem Text.lexemes_flatten {s : Text} {lexemes : List Text} (h : lexemes <:+: s.lexemes) :
    Text.lexemes lexemes.flatten = lexemes := by
  obtain ⟨-, hnil, hruns, hmeet⟩ := List.splitBy_eq_iff.mp (rfl : s.lexemes = s.lexemes)
  refine List.splitBy_flatten (fun hm => hnil (h.subset hm)) (fun l hl => hruns l (h.subset hl)) ?_
  obtain ⟨before, behind, h⟩ := h
  rw [← h] at hmeet
  exact hmeet.left_of_append.right_of_append

/-- **The tokens of a text have no gaps** between them, nor before or after them. -/
theorem tile_tokenize (s : Text) : Token.Tile 0 (tokenize s) (Text.byteSize s) := by
  have hnil : [] ∉ s.lexemes := List.nil_notMem_splitBy _ s
  have h := Token.tile_place hnil 1 0
  rwa [Nat.zero_add, Text.flatten_lexemes] at h

/-- **Neighbouring tokens of a text are the tokens of a slice of it**, moved to where the slice
stands. -/
theorem exists_slice_of_tokens {s : Text} {tokens : List Token} (h : tokens <:+: tokenize s) :
    ∃ s₁ s₂ s₃, s = s₁ ++ s₂ ++ s₃ ∧ tokens = (tokenize s₂).map (Token.after s₁) := by
  obtain ⟨before, follow, h⟩ := h
  obtain ⟨l, l₃, hl, hleft, -⟩ := Token.exists_lexemes_of_place_eq_append h.symm
  obtain ⟨l₁, l₂, rfl, -, rfl⟩ := Token.exists_lexemes_of_place_eq_append hleft.symm
  have hmiddle : Text.lexemes l₂.flatten = l₂ := Text.lexemes_flatten ⟨l₁, l₃, hl.symm⟩
  refine ⟨l₁.flatten, l₂.flatten, l₃.flatten, ?_, ?_⟩
  · rw [← List.flatten_append, ← List.flatten_append, ← hl, Text.flatten_lexemes]
  · rw [tokenize, hmiddle, Token.place_after]

/-! ### Operands in their order -/

namespace Derivation

theorem tile_stepTokens_cons {start stop : Nat} {token : Token} {op : Operator}
    {part : Derivation} {rest : List Step}
    (h : Token.Tile start (stepTokens (⟨token, op, part⟩ :: rest)) stop) :
    ∃ middle, start < token.stop ∧ Token.Tile token.stop part.tokens middle ∧
      Token.Tile middle (stepTokens rest) stop := by
  obtain ⟨-, hlt, h⟩ := h
  obtain ⟨middle, hpart, hrest⟩ := Token.tile_append.mp h
  exact ⟨middle, hlt, hpart, hrest⟩

/-- What is derived from tokens without gaps has the span that they take. -/
def Spans (d : Derivation) : Prop :=
  ∀ start stop, Token.Tile start d.tokens stop → d.expr.span = ⟨start, stop⟩ ∧ start < stop

/-- The operands of steps stand one after another, between the place where the steps begin and
the one where they end. -/
theorem inOrder_stepLinks {steps : List Step} (hs : ∀ step ∈ steps, step.part.Spans)
    {start stop : Nat} (h : Token.Tile start (stepTokens steps) stop) :
    Span.InOrder (Expr.linkSpans (stepLinks steps)) ∧
      ∀ span ∈ Expr.linkSpans (stepLinks steps), start < span.start ∧ span.stop ≤ stop := by
  induction steps generalizing start with
  | nil => exact ⟨⟨by simp [stepLinks, Expr.linkSpans], .nil⟩, by simp [stepLinks, Expr.linkSpans]⟩
  | cons step rest ih =>
    rw [List.forall_mem_cons] at hs
    obtain ⟨token, op, part⟩ := step
    obtain ⟨middle, hlt, hpart, hrest⟩ := tile_stepTokens_cons h
    obtain ⟨hspan, hne⟩ := hs.1 _ _ hpart
    obtain ⟨horder, hinside⟩ := ih hs.2 hrest
    have hle := hrest.le
    rw [stepLinks, Expr.linkSpans, List.map_cons, hspan, ← Expr.linkSpans, List.forall_mem_cons,
      Span.inOrder_cons_iff]
    refine ⟨⟨hne, ?_, horder⟩, ⟨hlt, hle⟩, ?_⟩
    · intro next hm
      exact (hinside next hm).1
    · intro next hm
      obtain ⟨hbefore, hstop⟩ := hinside next hm
      exact ⟨by omega, hstop⟩

/-- **The span of what is derived** is the one that its tokens take. -/
theorem IsA.spans {phrase : Phrase} {d : Derivation} (h : IsA phrase d) : d.Spans := by
  induction h with
  | number =>
    rintro start stop ⟨rfl, hlt, rfl⟩
    exact ⟨rfl, hlt⟩
  | @group opening closing inner =>
    rintro start stop ⟨rfl, hlt, h⟩
    obtain ⟨middle, hinner, rfl, hlt', rfl⟩ := Token.tile_append.mp h
    have hle := hinner.le
    rw [expr, Expr.span_withSpan, Span.cover, Span.mk.injEq]
    simp only [Token.span]
    omega
  | @repetition phrase first steps _ _ _ _ ihf ihs =>
    intro start stop h
    obtain ⟨middle, hfirst, hsteps⟩ := Token.tile_append.mp h
    obtain ⟨hspan, hlt⟩ := ihf _ _ hfirst
    rcases List.eq_nil_or_concat steps with rfl | ⟨init, ⟨token, op, last⟩, rfl⟩
    · obtain rfl : middle = stop := hsteps
      exact ⟨hspan, hlt⟩
    · -- the first part begins where the steps do not reach, and the last one ends where they end
      rw [List.concat_eq_append, stepTokens_append] at hsteps
      obtain ⟨middle', hinit, hlast⟩ := Token.tile_append.mp hsteps
      obtain ⟨stop', hlt', hpart, rfl⟩ := tile_stepTokens_cons hlast
      obtain ⟨hspan', hne⟩ := ihs ⟨token, op, last⟩ (by simp) _ _ hpart
      have hle := hinit.le
      rw [expr, stepLinks_eq_map, List.concat_eq_append, List.map_append, List.map_singleton,
        Expr.ofChain_concat, Expr.span, hspan, hspan', Span.cover, Span.mk.injEq]
      simp only
      omega

/-- **The operands of a repetition** are in order, and inside of what the repetition takes. -/
theorem IsA.inOrder {phrase : Phrase} {first : Derivation} {steps : List Step}
    (h : IsA phrase (.repetition first steps)) {start stop : Nat}
    (ht : Token.Tile start (Derivation.repetition first steps).tokens stop) :
    Span.InOrder (first.expr.span :: Expr.linkSpans (stepLinks steps)) ∧
      ∀ span ∈ first.expr.span :: Expr.linkSpans (stepLinks steps),
        start ≤ span.start ∧ span.stop ≤ stop := by
  cases h with
  | repetition _ hf _ hparts =>
    obtain ⟨middle, hfirst, hsteps⟩ := Token.tile_append.mp ht
    obtain ⟨hspan, hlt⟩ := hf.spans _ _ hfirst
    obtain ⟨horder, hinside⟩ := inOrder_stepLinks (fun step hm => (hparts step hm).spans) hsteps
    have hle := hsteps.le
    rw [hspan, Span.inOrder_cons_iff, List.forall_mem_cons]
    refine ⟨⟨hlt, ?_, horder⟩, ⟨Nat.le_refl _, hle⟩, ?_⟩
    · intro next hm
      exact (hinside next hm).1
    · intro next hm
      obtain ⟨hbefore, hstop⟩ := hinside next hm
      exact ⟨by omega, hstop⟩

end Derivation

end Abacus
