import Abacus.Proofs.NumberText
import Abacus.Proofs.Shape

/-!
# What a text consists of

The text of an expression is written in pieces: literals, operators and parentheses. A negative
literal has parentheses of its own, which are part of it. If the literals are ones that reducing
leaves, the pieces can be told from the text (`spell_injective`), because literals are not side by
side, and an operator does not follow on an opening parenthesis. So a minus sign after a parenthesis
can only be that of a literal.

Which piece may follow is decided by what is due, an operand or not (`Spaced`).
-/

namespace Abacus

/-- A piece of the text of an expression. -/
inductive Piece where
  | literal (value : Literal)
  | operator (op : Operator)
  | opening
  | closing

namespace Piece

/-- The text of a piece; a negative literal is in parentheses. -/
def text : Piece → Text
  | literal value => Expr.wrapIf value.isNegative value.text
  | operator op => [op.symbol]
  | opening => ['(']
  | closing => [')']

/-- The texts of pieces, one after another. -/
def spell (pieces : List Piece) : Text := (pieces.map text).flatten

@[simp] theorem spell_nil : spell [] = [] := rfl

@[simp] theorem spell_cons (piece : Piece) (pieces : List Piece) :
    spell (piece :: pieces) = piece.text ++ spell pieces := rfl

@[simp] theorem spell_append (pieces pieces' : List Piece) :
    spell (pieces ++ pieces') = spell pieces ++ spell pieces' := by
  simp [spell]

/-- Whether an operand begins with the piece. -/
def startsOperand : Piece → Bool
  | literal _ | opening => true
  | operator _ | closing => false

/-- Whether an operand ends with the piece. -/
def endsOperand : Piece → Bool
  | literal _ | closing => true
  | operator _ | opening => false

/-- Each piece stands where it may, if an operand is due before them or not, and due or not after
them. -/
def Spaced : Bool → List Piece → Bool → Prop
  | due, [], due' => due = due'
  | due, piece :: rest, due' => piece.startsOperand = due ∧ Spaced (!piece.endsOperand) rest due'

theorem Spaced.append {due due' due'' : Bool} {pieces pieces' : List Piece}
    (h : Spaced due pieces due') (h' : Spaced due' pieces' due'') :
    Spaced due (pieces ++ pieces') due'' := by
  induction pieces generalizing due with
  | nil =>
    obtain rfl : due = due' := h
    exact h'
  | cons piece rest ih => exact ⟨h.1, ih h.2⟩

/-- A literal that reducing leaves, or no literal at all. -/
def IsReduced : Piece → Prop
  | literal value => value.IsReduced
  | operator _ | opening | closing => True

/-! ### The beginning of a text -/

open Decimal

/-- A literal that is not negative is written as its numeral. -/
theorem text_literal_of_nonneg {l : Literal} (hl : l.IsReduced) (hn : l.isNegative = false) :
    (literal l).text = l.numeral := by
  rw [text, hn, Expr.wrapIf, Literal.text_eq_append hl.isFinite, hn]
  rfl

theorem text_literal_of_negative {l : Literal} (hl : l.IsReduced) (hn : l.isNegative = true) :
    (literal l).text = '(' :: '-' :: (l.numeral ++ [')']) := by
  rw [text, hn, Expr.wrapIf, Literal.text_eq_append hl.isFinite, hn]
  rfl

theorem exists_numeral_eq_cons (l : Literal) :
    ∃ c s, l.numeral = c :: s ∧ isNumeralChar c := by
  obtain ⟨c, s, hs⟩ := List.exists_cons_of_ne_nil l.numeral_ne_nil
  exact ⟨c, s, hs, Literal.isNumeralChar_of_mem_numeral (hs ▸ List.mem_cons_self)⟩

theorem isNumeralChar_symbol (op : Operator) : isNumeralChar op.symbol = false := by
  cases op <;> decide

theorem text_ne_nil (piece : Piece) (h : piece.IsReduced) : piece.text ≠ [] := by
  cases piece with
  | literal l =>
    cases hn : l.isNegative with
    | true => rw [text_literal_of_negative h hn]; simp
    | false => rw [text_literal_of_nonneg h hn]; exact l.numeral_ne_nil
  | operator | opening | closing => simp [text]

/-- No literal begins where no operand is due. -/
theorem isNumeralChar_head?_spell {due : Bool} {pieces : List Piece} (h : Spaced false pieces due) :
    ∀ c ∈ (spell pieces).head?, isNumeralChar c = false := by
  intro c hc
  cases pieces with
  | nil => cases hc
  | cons piece rest =>
    cases piece with
    | literal l => cases h.1
    | opening => cases h.1
    | operator op =>
      rw [← Option.some.inj hc]
      exact isNumeralChar_symbol op
    | closing =>
      rw [← Option.some.inj hc]
      decide

/-- No sign stands where an operand is due. -/
theorem ne_minus_of_mem_head?_spell {due : Bool} {pieces : List Piece} (h : Spaced true pieces due)
    (hr : ∀ piece ∈ pieces, piece.IsReduced) : ∀ c ∈ (spell pieces).head?, c ≠ '-' := by
  intro c hc
  cases pieces with
  | nil => cases hc
  | cons piece rest =>
    cases piece with
    | operator op => cases h.1
    | closing => cases h.1
    | opening =>
      rw [← Option.some.inj hc]
      decide
    | literal l =>
      rw [List.forall_mem_cons] at hr
      cases hn : l.isNegative with
      | true =>
        rw [spell_cons, text_literal_of_negative hr.1 hn] at hc
        rw [← Option.some.inj hc]
        decide
      | false =>
        obtain ⟨c', s, hs, hnumeral⟩ := exists_numeral_eq_cons l
        rw [spell_cons, text_literal_of_nonneg hr.1 hn, hs] at hc
        rw [← Option.some.inj hc]
        rintro rfl
        exact absurd hnumeral (by decide)

/-! ### Telling pieces from their text -/

section

variable {l : Literal} {piece : Piece} {pieces pieces' : List Piece} {due due' : Bool}
  (hl : l.IsReduced) (hp : piece.IsReduced) (hs : Spaced (!(literal l).endsOperand) pieces due)
  (hs' : Spaced (!piece.endsOperand) pieces' due') (hr' : ∀ piece ∈ pieces', piece.IsReduced)
  (h : (literal l).text ++ spell pieces = piece.text ++ spell pieces')

include hl hp hs hs' h in
/-- Where a numeral begins, there is a literal that is not negative. -/
theorem eq_literal_of_nonneg (hn : l.isNegative = false) : literal l = piece := by
  rw [text_literal_of_nonneg hl hn] at h
  obtain ⟨c, s, hnumeral, hc⟩ := exists_numeral_eq_cons l
  have hother : ∀ c' s', piece.text = c' :: s' → isNumeralChar c' := by
    intro c' s' hpiece
    rw [hnumeral, hpiece] at h
    rw [← (List.cons.inj h).1]
    exact hc
  cases piece with
  | operator op => exact absurd (hother _ _ rfl) (by rw [isNumeralChar_symbol]; decide)
  | opening => exact absurd (hother _ _ rfl) (by decide)
  | closing => exact absurd (hother _ _ rfl) (by decide)
  | literal l' =>
    cases hn' : l'.isNegative with
    | true => exact absurd (hother _ _ (text_literal_of_negative hp hn')) (by decide)
    | false =>
      rw [text_literal_of_nonneg hp hn'] at h
      have heq := (Text.append_inj_of_forall (fun _ => Literal.isNumeralChar_of_mem_numeral)
        (fun _ => Literal.isNumeralChar_of_mem_numeral) (isNumeralChar_head?_spell hs)
        (isNumeralChar_head?_spell hs') h).1
      rw [Literal.eq_of_numeral_eq hl hp (hn.trans hn'.symm) heq]

include hl hp hs' hr' h in
/-- Where a minus sign follows on a parenthesis, there is a negative literal. -/
theorem eq_literal_of_negative (hn : l.isNegative = true) : literal l = piece := by
  rw [text_literal_of_negative hl hn] at h
  cases piece with
  | operator op =>
    have hsymbol := (List.cons.inj h).1
    cases op <;> exact absurd hsymbol (by decide)
  | closing => exact absurd (List.cons.inj h).1 (by decide)
  | opening =>
    have hminus : '-' :: (l.numeral ++ [')']) ++ spell pieces = spell pieces' := (List.cons.inj h).2
    refine absurd rfl (ne_minus_of_mem_head?_spell hs' hr' '-' ?_)
    rw [← hminus]
    rfl
  | literal l' =>
    cases hn' : l'.isNegative with
    | false =>
      obtain ⟨c, s, hnumeral, hc⟩ := exists_numeral_eq_cons l'
      rw [text_literal_of_nonneg hp hn', hnumeral] at h
      rw [← (List.cons.inj h).1] at hc
      exact absurd hc (by decide)
    | true =>
      rw [text_literal_of_negative hp hn'] at h
      have hnumerals : l.numeral ++ ([')'] ++ spell pieces) =
          l'.numeral ++ ([')'] ++ spell pieces') := by
        simpa using h
      have heq := (Text.append_inj_of_forall (fun _ => Literal.isNumeralChar_of_mem_numeral)
        (fun _ => Literal.isNumeralChar_of_mem_numeral) (by simp [isNumeralChar])
        (by simp [isNumeralChar]) hnumerals).1
      rw [Literal.eq_of_numeral_eq hl hp (hn.trans hn'.symm) heq]

include hl hp hs hs' hr' h in
theorem eq_literal : literal l = piece := by
  cases hn : l.isNegative with
  | true => exact eq_literal_of_negative hl hp hs' hr' h hn
  | false => exact eq_literal_of_nonneg hl hp hs hs' h hn

end

theorem exists_text_eq_singleton {piece : Piece} (hl : ∀ l, piece ≠ literal l) :
    ∃ c, piece.text = [c] := by
  cases piece with
  | literal l => exact absurd rfl (hl l)
  | operator | opening | closing => exact ⟨_, rfl⟩

/-- The character of an operator or a parenthesis tells which one it is. -/
theorem eq_of_text_eq_singleton {piece piece' : Piece} {c : Char} (h : piece.text = [c])
    (h' : piece'.text = [c]) (hl : ∀ l, piece ≠ literal l) (hl' : ∀ l, piece' ≠ literal l) :
    piece = piece' := by
  have heq := h.trans h'.symm
  cases piece with
  | literal l => exact absurd rfl (hl l)
  | operator op =>
    cases piece' with
    | literal l => exact absurd rfl (hl' l)
    | operator op' =>
      have hop := congrArg Operator.ofSymbol? (List.cons.inj heq).1
      rw [Operator.ofSymbol?_symbol, Operator.ofSymbol?_symbol] at hop
      rw [Option.some.inj hop]
    | opening | closing => cases op <;> exact absurd heq (by decide)
  | opening =>
    cases piece' with
    | literal l => exact absurd rfl (hl' l)
    | operator op => cases op <;> exact absurd heq (by decide)
    | opening => rfl
    | closing => exact absurd heq (by decide)
  | closing =>
    cases piece' with
    | literal l => exact absurd rfl (hl' l)
    | operator op => cases op <;> exact absurd heq (by decide)
    | opening => exact absurd heq (by decide)
    | closing => rfl

/-- **The pieces can be told from the text**, if they stand where they may. -/
theorem spell_injective {due due₁ due₂ : Bool} {pieces pieces' : List Piece}
    (hs : Spaced due pieces due₁) (hs' : Spaced due pieces' due₂)
    (hr : ∀ piece ∈ pieces, piece.IsReduced) (hr' : ∀ piece ∈ pieces', piece.IsReduced)
    (h : spell pieces = spell pieces') : pieces = pieces' := by
  induction pieces generalizing due pieces' with
  | nil =>
    cases pieces' with
    | nil => rfl
    | cons piece' rest' =>
      rw [spell_cons] at h
      exact absurd (List.append_eq_nil_iff.mp h.symm).1
        (text_ne_nil piece' (hr' _ List.mem_cons_self))
  | cons piece rest ih =>
    cases pieces' with
    | nil =>
      rw [spell_cons] at h
      exact absurd (List.append_eq_nil_iff.mp h).1 (text_ne_nil piece (hr _ List.mem_cons_self))
    | cons piece' rest' =>
      rw [List.forall_mem_cons] at hr hr'
      have hfirst : piece = piece' := by
        by_cases hl : ∃ l, piece = literal l
        · obtain ⟨l, rfl⟩ := hl
          exact eq_literal hr.1 hr'.1 hs.2 hs'.2 hr'.2 h
        · by_cases hl' : ∃ l, piece' = literal l
          · obtain ⟨l, rfl⟩ := hl'
            exact (eq_literal hr'.1 hr.1 hs'.2 hs.2 hr.2 h.symm).symm
          · rw [not_exists] at hl hl'
            obtain ⟨c, hc⟩ := exists_text_eq_singleton hl
            obtain ⟨c', hc'⟩ := exists_text_eq_singleton hl'
            rw [spell_cons, spell_cons, hc, hc'] at h
            exact eq_of_text_eq_singleton hc ((List.cons.inj h).1 ▸ hc') hl hl'
      subst hfirst
      rw [ih hs.2 hs'.2 hr.2 hr'.2 (List.append_cancel_left h)]

end Piece

end Abacus
