import Abacus.Proofs.Pieces
import Abacus.Proofs.Undefined

/-!
# What a reduced text tells

The text of a reduced expression determines the expression, up to spans and to first operands that
are spliced into the chain around them (`IsRegular.eq_of_text_eq`), and with it the value.
There is no reading such a text back: the parser knows no signs and no fractions. But its pieces can
be told, and they are the same for two expressions of one text (`pieces_eq_of_text_eq`).

So whichever literals are replaced by whichever others, the texts stay the same, and if all literals
become integers without a sign, those texts are read back. With a 1 for one literal and a 0 for all
others, what is read tells where the literal stands. Two expressions that agree on this for every
literal are the same (`eq_of_forall_mark`).
-/

namespace Abacus

open Piece

/-- A piece with its literal replaced. -/
def Piece.map (f : Literal → Literal) : Piece → Piece
  | literal value => .literal (f value)
  | operator op => .operator op
  | opening => .opening
  | closing => .closing

namespace Expr

/-! ### The pieces of an expression -/

/-- Pieces, in parentheses if so told. -/
def enclose (wrapped : Bool) (pieces : List Piece) : List Piece :=
  if wrapped then .opening :: pieces ++ [.closing] else pieces

mutual

/-- The pieces in which an expression is printed. -/
def pieces : Expr → List Piece
  | literal value _ => [.literal value]
  | chain first links _ =>
    enclose (first.precedence?.any (· < level links)) first.pieces ++
      linkPieces (level links) links

/-- The pieces in which the links of a chain of a given level are printed. -/
def linkPieces (level : Nat) : List Link → List Piece
  | [] => []
  | ⟨op, operand⟩ :: rest =>
    .operator op :: enclose (operand.precedence?.any (· ≤ level)) operand.pieces ++
      linkPieces level rest

end

theorem spell_enclose (wrapped : Bool) (pieces : List Piece) :
    spell (enclose wrapped pieces) = wrapIf wrapped (spell pieces) := by
  cases wrapped with
  | true => simp [enclose, wrapIf, Piece.text]
  | false => rfl

/-- Parentheses around an operand are those of its level, or belong to the literal. -/
theorem spell_enclose_pieces {e : Expr}
    (h : spell e.pieces = wrapIf (e.isWrapped fun _ => false) e.text) (weak : Nat → Bool) :
    spell (enclose (e.precedence?.any weak) e.pieces) = wrapIf (e.isWrapped weak) e.text := by
  rw [spell_enclose, h]
  cases e with
  | literal value span => rfl
  | chain first links span => cases links <;> rfl

theorem spell_linkPieces {links : List Link}
    (h : ∀ link ∈ links, spell link.operand.pieces =
      wrapIf (link.operand.isWrapped fun _ => false) link.operand.text) (l : Nat) :
    spell (linkPieces l links) = linksText l links := by
  induction links with
  | nil => rfl
  | cons link rest ih =>
    obtain ⟨op, operand⟩ := link
    rw [List.forall_mem_cons] at h
    rw [linkPieces, linksText, List.cons_append, spell_cons, spell_append,
      spell_enclose_pieces h.1, ih h.2]
    rfl

/-- **An expression is printed in its pieces**, but for the parentheses that a negative literal has
if it is an operand. -/
theorem spell_pieces (e : Expr) :
    spell e.pieces = wrapIf (e.isWrapped fun _ => false) e.text := by
  induction e using Expr.induction with
  | literal value span => rw [pieces, spell_cons, spell_nil, List.append_nil]; rfl
  | chain first links span ihf ihl =>
    have hwrapped : (chain first links span).isWrapped (fun _ => false) = false := by
      rw [isWrapped_chain, Bool.and_false]
    rw [hwrapped, pieces, text, spell_append, spell_enclose_pieces ihf, spell_linkPieces ihl]
    rfl

theorem spaced_enclose {pieces : List Piece} (h : Spaced true pieces false) (wrapped : Bool) :
    Spaced true (enclose wrapped pieces) false := by
  cases wrapped with
  | true => exact ⟨rfl, h.append ⟨rfl, rfl⟩⟩
  | false => exact h

theorem spaced_linkPieces {links : List Link}
    (h : ∀ link ∈ links, Spaced true link.operand.pieces false) (l : Nat) :
    Spaced false (linkPieces l links) false := by
  induction links with
  | nil => rfl
  | cons link rest ih =>
    obtain ⟨op, operand⟩ := link
    rw [List.forall_mem_cons] at h
    exact ⟨rfl, (spaced_enclose h.1 _).append (ih h.2)⟩

/-- The pieces of an expression stand where they may. -/
theorem spaced_pieces (e : Expr) : Spaced true e.pieces false := by
  induction e using Expr.induction with
  | literal value span => exact ⟨rfl, rfl⟩
  | chain first links span ihf ihl => exact (spaced_enclose ihf _).append (spaced_linkPieces ihl _)

theorem isReduced_of_mem_enclose {pieces : List Piece} (h : ∀ piece ∈ pieces, piece.IsReduced)
    (wrapped : Bool) : ∀ piece ∈ enclose wrapped pieces, piece.IsReduced := by
  cases wrapped with
  | true =>
    simp only [enclose, if_true, List.forall_mem_cons, List.forall_mem_append, List.cons_append]
    exact ⟨trivial, h, trivial, by simp⟩
  | false => exact h

theorem isReduced_of_mem_linkPieces {links : List Link}
    (h : ∀ link ∈ links, ∀ piece ∈ link.operand.pieces, piece.IsReduced) (l : Nat) :
    ∀ piece ∈ linkPieces l links, piece.IsReduced := by
  induction links with
  | nil => simp [linkPieces]
  | cons link rest ih =>
    obtain ⟨op, operand⟩ := link
    rw [List.forall_mem_cons] at h
    rw [linkPieces, List.cons_append, List.forall_mem_cons, List.forall_mem_append]
    exact ⟨trivial, isReduced_of_mem_enclose h.1 _, ih h.2⟩

theorem isReduced_of_mem_pieces {e : Expr} (h : ∀ l ∈ e.literals, l.IsReduced) :
    ∀ piece ∈ e.pieces, piece.IsReduced := by
  induction e using Expr.induction with
  | literal value span =>
    rw [pieces, List.forall_mem_singleton]
    exact h value (by simp [literals])
  | chain first links span ihf ihl =>
    rw [forall_mem_literals_chain_iff] at h
    rw [pieces, List.forall_mem_append]
    exact ⟨isReduced_of_mem_enclose (ihf h.1) _,
      isReduced_of_mem_linkPieces (fun link hm => ihl link hm (h.2 link hm)) _⟩

/-! ### Telling the pieces from the text -/

/-- A text with a sign in front is that of a negative literal. -/
theorem isWrapped_eq_of_head? {e : Expr} (h : ∀ l ∈ e.literals, l.IsReduced) :
    (e.isWrapped fun _ => false) = decide (e.text.head? = some '-') := by
  have hspell := spell_pieces e
  cases hw : e.isWrapped fun _ => false with
  | true =>
    cases e with
    | chain first links span => rw [isWrapped_chain, Bool.and_false] at hw; cases hw
    | literal value span =>
      have hvalue : value.IsReduced := h value (by simp [literals])
      rw [text, Literal.text_eq_append hvalue.isFinite, show value.isNegative = true from hw]
      rfl
  | false =>
    rw [hw, wrapIf, if_neg (by decide)] at hspell
    have hne := ne_minus_of_mem_head?_spell (spaced_pieces e) (isReduced_of_mem_pieces h)
    rw [hspell] at hne
    symm
    rw [decide_eq_false_iff_not]
    intro hminus
    exact hne '-' hminus rfl

/-- **Expressions with the same text have the same pieces**, if reducing leaves such literals. -/
theorem pieces_eq_of_text_eq {e e' : Expr} (h : ∀ l ∈ e.literals, l.IsReduced)
    (h' : ∀ l ∈ e'.literals, l.IsReduced) (heq : e.text = e'.text) : e.pieces = e'.pieces := by
  refine spell_injective (spaced_pieces e) (spaced_pieces e') (isReduced_of_mem_pieces h)
    (isReduced_of_mem_pieces h') ?_
  rw [spell_pieces, spell_pieces, isWrapped_eq_of_head? h, isWrapped_eq_of_head? h', heq]

/-! ### Replacing literals -/

mutual

/-- The expression with its literals replaced. -/
def mapLiterals (f : Literal → Literal) : Expr → Expr
  | literal value span => .literal (f value) span
  | chain first links span => .chain (first.mapLiterals f) (mapLinkLiterals f links) span

/-- Links with their literals replaced. -/
def mapLinkLiterals (f : Literal → Literal) : List Link → List Link
  | [] => []
  | ⟨op, operand⟩ :: rest => ⟨op, operand.mapLiterals f⟩ :: mapLinkLiterals f rest

end

section MapLiterals

variable (f : Literal → Literal)

theorem mapLinkLiterals_eq_map (links : List Link) :
    mapLinkLiterals f links = links.map (Link.map (mapLiterals f)) := by
  induction links with
  | nil => rfl
  | cons link rest ih =>
    obtain ⟨op, operand⟩ := link
    rw [mapLinkLiterals, List.map_cons, ih]
    rfl

theorem level_mapLinkLiterals (links : List Link) :
    level (mapLinkLiterals f links) = level links := by
  rw [mapLinkLiterals_eq_map, level_map]

/-- What is done to the operands of links can be done before or after literals are replaced, if that
makes no difference for each operand. -/
theorem map_mapLinkLiterals {g : Expr → Expr} {links : List Link}
    (h : ∀ link ∈ links, g (link.operand.mapLiterals f) = (g link.operand).mapLiterals f) :
    (mapLinkLiterals f links).map (Link.map g) = mapLinkLiterals f (links.map (Link.map g)) := by
  rw [mapLinkLiterals_eq_map, mapLinkLiterals_eq_map, List.map_map, List.map_map]
  refine List.map_congr_left fun link hm => ?_
  simp only [Function.comp_apply, Link.map, h link hm]

theorem precedence?_mapLiterals (e : Expr) : (e.mapLiterals f).precedence? = e.precedence? := by
  cases e with
  | literal value span => rfl
  | chain first links span =>
    rw [mapLiterals, mapLinkLiterals_eq_map]
    cases links <;> rfl

theorem map_enclose (wrapped : Bool) (pieces : List Piece) :
    (enclose wrapped pieces).map (Piece.map f) = enclose wrapped (pieces.map (Piece.map f)) := by
  cases wrapped with
  | true => simp [enclose, Piece.map]
  | false => rfl

theorem linkPieces_mapLinkLiterals {links : List Link}
    (h : ∀ link ∈ links,
      (link.operand.mapLiterals f).pieces = link.operand.pieces.map (Piece.map f)) (l : Nat) :
    linkPieces l (mapLinkLiterals f links) = (linkPieces l links).map (Piece.map f) := by
  induction links with
  | nil => rfl
  | cons link rest ih =>
    obtain ⟨op, operand⟩ := link
    rw [List.forall_mem_cons] at h
    rw [mapLinkLiterals, linkPieces, linkPieces, precedence?_mapLiterals, h.1, ih h.2,
      List.map_append, List.map_cons, map_enclose]
    rfl

/-- The pieces are those of the expression with their literals replaced. -/
theorem pieces_mapLiterals (e : Expr) :
    (e.mapLiterals f).pieces = e.pieces.map (Piece.map f) := by
  induction e using Expr.induction with
  | literal value span => rfl
  | chain first links span ihf ihl =>
    rw [mapLiterals, pieces, pieces, precedence?_mapLiterals, level_mapLinkLiterals, ihf,
      linkPieces_mapLinkLiterals f ihl, List.map_append, map_enclose]

theorem join_mapLiterals (first : Expr) (links : List Link) (span : Span) :
    join (first.mapLiterals f) (mapLinkLiterals f links) span =
      (join first links span).mapLiterals f := by
  cases first with
  | literal value span' => rfl
  | chain first' links' span' =>
    rw [mapLiterals, join, join, level_mapLinkLiterals, level_mapLinkLiterals]
    by_cases h : level links' = level links
    · rw [if_pos h, if_pos h, mapLiterals, mapLinkLiterals_eq_map, mapLinkLiterals_eq_map,
        mapLinkLiterals_eq_map, List.map_append]
    · rw [if_neg h, if_neg h, mapLiterals, mapLiterals]

theorem splice_mapLiterals (e : Expr) : (e.mapLiterals f).splice = e.splice.mapLiterals f := by
  induction e using Expr.induction with
  | literal value span => rfl
  | chain first links span ihf ihl =>
    rw [mapLiterals, splice, splice, spliceLinks_eq_map, spliceLinks_eq_map, ihf,
      map_mapLinkLiterals f ihl, join_mapLiterals]

theorem eraseSpans_mapLiterals (e : Expr) :
    (e.mapLiterals f).eraseSpans = e.eraseSpans.mapLiterals f := by
  induction e using Expr.induction with
  | literal value span => rfl
  | chain first links span ihf ihl =>
    rw [mapLiterals, eraseSpans, eraseSpans, eraseLinkSpans_eq_map, eraseLinkSpans_eq_map, ihf,
      map_mapLinkLiterals f ihl, mapLiterals]

variable {f}

/-- If no literal needs a sign any more, a regular expression becomes plain. -/
theorem IsRegular.isPlain_mapLiterals {e : Expr} (h : e.IsRegular) (hf : ∀ l, IsUnsigned (f l)) :
    (e.mapLiterals f).IsPlain := by
  induction h with
  | literal => exact .literal (hf _)
  | @chain first links span hn _ _ ihf ihl =>
    rw [mapLiterals, mapLinkLiterals_eq_map]
    refine .chain ⟨?_, hn.2.map _⟩ ihf (List.forall_mem_map.mpr ihl)
    rw [Ne, List.map_eq_nil_iff]
    exact hn.1

end MapLiterals

theorem IsPlain.spell_pieces_eq {e : Expr} (h : e.IsPlain) : spell e.pieces = e.text := by
  rw [spell_pieces, isWrapped_eq_any h]
  cases e.precedence? <;> rfl

/-- A plain expression is determined by its text. -/
theorem IsPlain.eq_of_text_eq {e e' : Expr} (h : e.IsPlain) (h' : e'.IsPlain)
    (heq : e.text = e'.text) : e.splice.eraseSpans = e'.splice.eraseSpans := by
  obtain ⟨read, hread, herase⟩ := h.exists_parse_text (le_refl _)
  obtain ⟨read', hread', herase'⟩ := h'.exists_parse_text (le_refl _)
  rw [← heq, hread] at hread'
  rw [← herase, ← herase', Except.ok.inj hread']

/-- The replacement that marks a literal: it becomes 1, and every other one 0. -/
def mark (l l' : Literal) : Literal := if l' = l then .int 1 else .int 0

theorem isUnsigned_mark (l l' : Literal) : IsUnsigned (mark l l') := by
  by_cases h : l' = l
  · exact ⟨1, by rw [mark, if_pos h], by decide⟩
  · exact ⟨0, by rw [mark, if_neg h], by decide⟩

theorem eq_of_mark_eq {l l' : Literal} (h : mark l l = mark l l') : l = l' := by
  by_contra hne
  rw [mark, mark, if_pos rfl, if_neg (Ne.symm hne)] at h
  exact absurd h (by decide)

theorem links_eq_of_forall_mark {links links' : List Link}
    (hl : ∀ link ∈ links, ∀ e' : Expr,
      (∀ l, link.operand.mapLiterals (mark l) = e'.mapLiterals (mark l)) → link.operand = e')
    (h : ∀ l, mapLinkLiterals (mark l) links = mapLinkLiterals (mark l) links') :
    links = links' := by
  induction links generalizing links' with
  | nil =>
    cases links' with
    | nil => rfl
    | cons link' rest' =>
      obtain ⟨op', operand'⟩ := link'
      cases h (.int 0)
  | cons link rest ih =>
    obtain ⟨op, operand⟩ := link
    cases links' with
    | nil => cases h (.int 0)
    | cons link' rest' =>
      obtain ⟨op', operand'⟩ := link'
      simp only [mapLinkLiterals, List.cons.injEq, Link.mk.injEq] at h
      rw [List.forall_mem_cons] at hl
      have hoperand : operand = operand' := hl.1 operand' fun l => (h l).1.2
      rw [(h (.int 0)).1.1, hoperand, ih hl.2 fun l => (h l).2]

/-- **Expressions that agree on where each literal stands are the same.** -/
theorem eq_of_forall_mark {e e' : Expr}
    (h : ∀ l, e.mapLiterals (mark l) = e'.mapLiterals (mark l)) : e = e' := by
  induction e using Expr.induction generalizing e' with
  | literal value span =>
    cases e' with
    | chain => cases h value
    | literal value' span' =>
      obtain ⟨hmark, rfl⟩ := Expr.literal.inj (h value)
      rw [eq_of_mark_eq hmark]
  | chain first links span ihf ihl =>
    cases e' with
    | literal => cases h (.int 0)
    | chain first' links' span' =>
      simp only [mapLiterals, chain.injEq] at h
      obtain ⟨-, -, rfl⟩ := h (.int 0)
      rw [ihf fun l => (h l).1, links_eq_of_forall_mark ihl fun l => (h l).2.1]

/-! ### Reduced expressions -/

/-- **The text determines a regular expression** with literals as reducing leaves them, up to spans
and to first operands that are spliced. -/
theorem IsRegular.eq_of_text_eq {e e' : Expr} (h : e.IsRegular) (h' : e'.IsRegular)
    (hl : ∀ l ∈ e.literals, l.IsReduced) (hl' : ∀ l ∈ e'.literals, l.IsReduced)
    (heq : e.text = e'.text) : e.splice.eraseSpans = e'.splice.eraseSpans := by
  refine eq_of_forall_mark fun l => ?_
  have hplain := h.isPlain_mapLiterals (isUnsigned_mark l)
  have hplain' := h'.isPlain_mapLiterals (isUnsigned_mark l)
  have htext : (e.mapLiterals (mark l)).text = (e'.mapLiterals (mark l)).text := by
    rw [← hplain.spell_pieces_eq, ← hplain'.spell_pieces_eq, pieces_mapLiterals,
      pieces_mapLiterals, pieces_eq_of_text_eq hl hl' heq]
  rw [← eraseSpans_mapLiterals, ← eraseSpans_mapLiterals, ← splice_mapLiterals,
    ← splice_mapLiterals, hplain.eq_of_text_eq hplain' htext]

/-- Reducing leaves no chain without links, and none with operators of two levels. -/
theorem IsRegular.isRegular_reduceNode {pow : Binary64 → Binary64 → Binary64} {e reduced : Expr}
    (h : e.IsRegular) (hr : (e.reduceNode pow).outcome = .ok reduced) : reduced.IsRegular := by
  induction h generalizing reduced with
  | literal =>
    obtain rfl := Except.ok.inj hr
    exact .literal trivial
  | @chain first links span hn _ _ ihf ihl =>
    obtain ⟨-, value, rfl⟩ | ⟨-, first', links', hf, hl, rfl⟩ := reduceNode_chain_cases hn.1 hr
    · exact .literal trivial
    · refine .chain ⟨ne_nil_of_reduceLinks hn.1 hl, fun link' hm => ?_⟩ (ihf hf) fun link' hm => ?_
      · obtain ⟨link, hlink, hop, -⟩ := exists_of_mem_reduceLinks hl hm
        rw [hop, hn.2 link hlink, level_eq_of_map_operator (map_operator_reduceLinks hl)]
      · obtain ⟨link, hlink, -, hoperand⟩ := exists_of_mem_reduceLinks hl hm
        exact ihl link hlink hoperand

end Expr

namespace Calculator

open Abacus.Expr

theorem isRegular_of_reduce {calculator : Calculator} {s : Text} {reduced : Expr}
    (h : (calculator.reduce s).outcome = .ok reduced) : reduced.IsRegular := by
  obtain ⟨e, hparse, hreduce⟩ := outcome_reduce_eq_ok_iff.mp h
  rw [outcome_parse_eq_ok_iff] at hparse
  exact (isRegular_of_parse hparse.1).isRegular_reduceNode hreduce

/-- **The reduced text determines the result.** If two texts are reduced to expressions with the
same text, whatever the limits and the powers, the two expressions are the same up to spans and to
first operands that are chains of the level of the chain around them. Evaluating them gives the
same value, or errors of one kind that name the same text. -/
theorem reduced_text_determines (c c' : Calculator) (s s' : Text) (e e' : Expr)
    (h : (c.reduce s).outcome = .ok e) (h' : (c'.reduce s').outcome = .ok e')
    (heq : e.text = e'.text) :
    e.splice.eraseSpans = e'.splice.eraseSpans ∧
      ∀ pow, SameOutcome (e.evaluate pow) (e'.evaluate pow) := by
  have htree := (isRegular_of_reduce h).eq_of_text_eq (isRegular_of_reduce h')
    (isReduced_of_reduce h) (isReduced_of_reduce h') heq
  refine ⟨htree, fun pow => ?_⟩
  exact (sameOutcome_splice e).symm.trans (sameOutcome_of_eraseSpans_eq htree pow)

/-- With and without the parentheses, what is reduced is printed as `(-3)-0.5-2`. -/
theorem reduced_text_determines_difference :
    ∃ e e', ((Calculator.mk 1 fun x _ => x).reduce "(0-3)^1-(1/2)^1-2".toList).outcome = .ok e ∧
      ((Calculator.mk 2 fun x _ => x).reduce "((0-3)^1-(1/2)^1)-2".toList).outcome = .ok e' ∧
      e.text = "(-3)-0.5-2".toList ∧ e'.text = e.text ∧
      e.splice.eraseSpans = e'.splice.eraseSpans ∧
      ∀ pow, SameOutcome (e.evaluate pow) (e'.evaluate pow) := by
  have htext : ((Calculator.mk 1 fun x _ => x).reduce
      "(0-3)^1-(1/2)^1-2".toList).outcome.toOption.map Expr.text = some "(-3)-0.5-2".toList := by
    decide +kernel
  have htext' : ((Calculator.mk 2 fun x _ => x).reduce
      "((0-3)^1-(1/2)^1)-2".toList).outcome.toOption.map Expr.text = some "(-3)-0.5-2".toList := by
    decide +kernel
  obtain ⟨e, he, hprint⟩ := Option.map_eq_some_iff.mp htext
  obtain ⟨e', he', hprint'⟩ := Option.map_eq_some_iff.mp htext'
  have heq : e'.text = e.text := hprint'.trans hprint.symm
  rw [Except.toOption_eq_some_iff] at he he'
  exact ⟨e, e', he, he', hprint, heq, reduced_text_determines _ _ _ _ e e' he he' heq.symm⟩

end Calculator

end Abacus
