import Mathlib.Data.List.SplitBy
import Abacus.Validation

/-!
# Spelling tokens

The lexer undoes the writing of tokens: if the texts of kinds of tokens are written one after
another, the tokens of that text are of these kinds again (`map_kind_tokenize_spell`). The
numbers must need no sign, and no two of them may stand side by side, or else their digits would
run together.
-/

namespace Abacus

/-- Nothing of a text is lost in its lexemes. -/
theorem Text.flatten_lexemes (s : Text) : s.lexemes.flatten = s := List.flatten_splitBy _ s

/-- Digits are not cut. -/
theorem Text.isChain_of_digits_or_char {x : Text} (h : (∀ c ∈ x, c.isDigit) ∨ ∃ c, x = [c]) :
    x.IsChain fun a b => a.isDigit && b.isDigit := by
  rcases h with hdigits | ⟨c, rfl⟩
  · refine List.Pairwise.isChain (List.pairwise_of_forall_mem_list fun a ha b hb => ?_)
    rw [hdigits a ha, hdigits b hb]
    rfl
  · exact .singleton c

/-- **Digits, or a single character, are one lexeme** if no digits go on before or behind them. -/
theorem Text.lexemes_cut {before x behind : Text} (hne : x ≠ [])
    (hx : (∀ c ∈ x, c.isDigit) ∨ ∃ c, x = [c])
    (hbefore : ∀ c ∈ before.getLast?, ∀ d ∈ x.head?, (c.isDigit && d.isDigit) = false)
    (hbehind : ∀ c ∈ x.getLast?, ∀ d ∈ behind.head?, (c.isDigit && d.isDigit) = false) :
    lexemes (before ++ x ++ behind) = before.lexemes ++ x :: behind.lexemes := by
  have hbefore' : ∀ c ∈ before.getLast?, ∀ d ∈ (x ++ behind).head?,
      (c.isDigit && d.isDigit) = false := by
    rwa [List.head?_append_of_ne_nil _ hne]
  rw [List.append_assoc, lexemes, List.splitBy_append hbefore', List.splitBy_append hbehind,
    List.splitBy_of_isChain hne (isChain_of_digits_or_char hx)]
  rfl

theorem Text.ofInt_of_nonneg {n : Int} (h : 0 ≤ n) : ofInt n = ofNat n.toNat := by
  have hneg : ¬ n < 0 := by omega
  have habs : n.natAbs = n.toNat := by omega
  rw [ofInt, if_neg hneg, habs]

namespace TokenKind

/-- Whether it is a number. -/
def isInteger : TokenKind → Bool
  | integer _ => true
  | _ => false

theorem isInteger_iff {kind : TokenKind} : kind.isInteger ↔ ∃ value, kind = integer value := by
  cases kind <;> simp [isInteger]

/-- Whether its text is a lexeme of that kind. -/
def IsSpelled : TokenKind → Prop
  | integer value => 0 ≤ value.toInt
  | invalid => False
  | operator _ | leftParen | rightParen => True

/-- The texts of kinds, one after another. -/
def spell (kinds : List TokenKind) : Text := (kinds.map text).flatten

@[simp] theorem spell_nil : spell [] = [] := rfl

@[simp] theorem spell_cons (kind : TokenKind) (kinds : List TokenKind) :
    spell (kind :: kinds) = kind.text ++ spell kinds := by
  rw [spell, List.map_cons, List.flatten_cons, spell]

@[simp] theorem spell_append (kinds kinds' : List TokenKind) :
    spell (kinds ++ kinds') = spell kinds ++ spell kinds' := by
  rw [spell, List.map_append, List.flatten_append, spell, spell]

/-- Kinds that can be told apart in their spelling: each has a lexeme, and no two numbers are
side by side. -/
structure IsSpellable (kinds : List TokenKind) : Prop where
  spelled : ∀ kind ∈ kinds, kind.IsSpelled
  separate : kinds.IsChain fun a b => ¬ (a.isInteger ∧ b.isInteger)

theorem isSpellable_singleton {kind : TokenKind} (h : kind.IsSpelled) : IsSpellable [kind] :=
  ⟨by simpa using h, .singleton kind⟩

/-- What is no number keeps the kinds on its sides apart. -/
theorem IsSpellable.append_cons {kinds kinds' : List TokenKind} (h : IsSpellable kinds)
    {kind : TokenKind} (hk : kind.IsSpelled) (hi : kind.isInteger = false)
    (h' : IsSpellable kinds') : IsSpellable (kinds ++ kind :: kinds') := by
  constructor
  · rw [List.forall_mem_append, List.forall_mem_cons]
    exact ⟨h.spelled, hk, h'.spelled⟩
  · rw [List.isChain_append, List.isChain_cons]
    refine ⟨h.separate, ⟨?_, h'.separate⟩, ?_⟩
    · intro next _ hboth
      exact absurd hboth.1 (by simp [hi])
    · intro last _ next hn hboth
      obtain rfl : kind = next := by simpa using hn
      exact absurd hboth.2 (by simp [hi])

theorem isSpellable_nil : IsSpellable [] := ⟨by simp, .nil⟩

theorem IsSpellable.cons {kind : TokenKind} {kinds : List TokenKind} (h : IsSpellable kinds)
    (hk : kind.IsSpelled) (hi : kind.isInteger = false) : IsSpellable (kind :: kinds) :=
  isSpellable_nil.append_cons hk hi h

/-! ### The text of one kind -/

theorem text_integer {value : Int64} (h : 0 ≤ value.toInt) :
    (integer value).text = Text.ofNat value.toInt.toNat :=
  Text.ofInt_of_nonneg h

/-- A number is spelled by digits. -/
theorem isDigit_of_mem_text {value : Int64} (h : 0 ≤ value.toInt) {c : Char}
    (hc : c ∈ (integer value).text) : c.isDigit := by
  rw [text_integer h] at hc
  exact Nat.isDigit_of_mem_toDigits (by decide) (by decide) hc

theorem text_ne_nil {kind : TokenKind} (h : kind.IsSpelled) : kind.text ≠ [] := by
  cases kind with
  | integer value =>
    rw [text_integer h]
    exact Nat.toDigits_ne_nil
  | operator | leftParen | rightParen => exact List.cons_ne_nil _ _
  | invalid => exact h.elim

/-! ### How tokens are written -/

/-- How a token of a kind is written: as digits, or as the one character that it is. -/
def IsWrittenAs (lexeme : Text) : TokenKind → Prop
  | integer _ => ∀ c ∈ lexeme, c.isDigit
  | operator op => lexeme = [op.symbol]
  | leftParen => lexeme = ['(']
  | rightParen => lexeme = [')']
  | invalid => ∃ c, lexeme = [c] ∧ isExpressionChar c = false

theorem isWrittenAs_ofChar {c : Char} (h : c.isDigit = false) : (ofChar c).IsWrittenAs [c] := by
  rw [ofChar]
  cases hop : Operator.ofSymbol? c with
  | some op => exact congrArg (fun c => [c]) (Operator.eq_symbol_of_ofSymbol? hop)
  | none =>
    by_cases hl : c = '('
    · simp [hl, IsWrittenAs]
    · by_cases hr : c = ')'
      · simp [hr, IsWrittenAs]
      · simp [hl, hr, IsWrittenAs, isExpressionChar, h, hop]

/-- What is spelled is written as its kind says. -/
theorem IsSpelled.isWrittenAs {kind : TokenKind} (h : kind.IsSpelled) :
    kind.IsWrittenAs kind.text := by
  cases kind with
  | integer value => exact fun c hc => isDigit_of_mem_text h hc
  | operator | leftParen | rightParen => rfl
  | invalid => exact h.elim

section

variable {kind kind' : TokenKind} {lexeme lexeme' : Text}

/-- What is written is a number in digits, or one character that is no digit. -/
theorem IsWrittenAs.digits_or_char (h : kind.IsWrittenAs lexeme) :
    (kind.isInteger ∧ ∀ c ∈ lexeme, c.isDigit) ∨
      ∃ c : Char, lexeme = [c] ∧ c.isDigit = false ∧ ofChar c = kind := by
  cases kind with
  | integer value => exact .inl ⟨rfl, h⟩
  | operator op => exact .inr ⟨op.symbol, h, by cases op <;> decide, by cases op <;> decide⟩
  | leftParen => exact .inr ⟨'(', h, by decide, by decide⟩
  | rightParen => exact .inr ⟨')', h, by decide, by decide⟩
  | invalid =>
    obtain ⟨c, rfl, hc⟩ := h
    simp only [isExpressionChar, Bool.or_eq_false_iff, beq_eq_false_iff_ne] at hc
    obtain ⟨⟨⟨hdigit, hop⟩, hl⟩, hr⟩ := hc
    rw [Option.isSome_eq_false_iff, Option.isNone_iff_eq_none] at hop
    exact .inr ⟨c, rfl, hdigit, by simp only [ofChar, hop, hl, hr, if_false]⟩

/-- What is written as a kind says is a lexeme of that kind, if a number has the right value. -/
theorem IsWrittenAs.ofLexeme_eq (h : kind.IsWrittenAs lexeme) (hne : lexeme ≠ [])
    (hv : ∀ value, kind = .integer value → value.toInt = min (Text.toNat lexeme) maxInteger) :
    ofLexeme lexeme = kind := by
  obtain ⟨c, rest, rfl⟩ := List.exists_cons_of_ne_nil hne
  rcases h.digits_or_char with ⟨hinteger, hdigits⟩ | ⟨c', hc', hdigit, hof⟩
  · cases kind with
    | integer value =>
      rw [ofLexeme, if_pos (hdigits c List.mem_cons_self), integer.injEq, ← Int64.toInt_inj,
        hv value rfl, ← Int64.ofInt_eq_ofNat, Int64.toInt_ofInt_of_le (by omega)]
      unfold maxInteger
      omega
    | operator | leftParen | rightParen | invalid => cases hinteger
  · obtain ⟨rfl, rfl⟩ := List.cons.inj hc'
    rw [ofLexeme, hdigit]
    exact hof

theorem IsWrittenAs.isChain (h : kind.IsWrittenAs lexeme) :
    lexeme.IsChain fun a b => a.isDigit && b.isDigit := by
  rcases h.digits_or_char with ⟨-, hdigits⟩ | ⟨c, hc, -⟩
  · exact Text.isChain_of_digits_or_char (.inl hdigits)
  · exact Text.isChain_of_digits_or_char (.inr ⟨c, hc⟩)

/-- Lexemes of kinds of which one is no number meet at a character that is no digit. -/
theorem IsWrittenAs.getLast_head (h : kind.IsWrittenAs lexeme) (h' : kind'.IsWrittenAs lexeme')
    (hne : lexeme ≠ []) (hne' : lexeme' ≠ []) (hkinds : ¬ (kind.isInteger ∧ kind'.isInteger)) :
    ((lexeme.getLast hne).isDigit && (lexeme'.head hne').isDigit) = false := by
  rw [Bool.and_eq_false_iff]
  rcases h.digits_or_char with ⟨hinteger, -⟩ | ⟨c, rfl, hdigit, -⟩
  · rcases h'.digits_or_char with ⟨hinteger', -⟩ | ⟨c, rfl, hdigit, -⟩
    · exact absurd ⟨hinteger, hinteger'⟩ hkinds
    · exact .inr hdigit
  · exact .inl hdigit

/-- **What is written token by token falls into these lexemes again**, if no two numbers stand side
by side. -/
theorem lexemes_of_isWrittenAs {α : Type} {kindOf : α → TokenKind} {lexemeOf : α → Text}
    {l : List α} (hne : ∀ a ∈ l, lexemeOf a ≠ [])
    (hw : ∀ a ∈ l, (kindOf a).IsWrittenAs (lexemeOf a))
    (hs : l.IsChain fun a b => ¬ ((kindOf a).isInteger ∧ (kindOf b).isInteger)) :
    Text.lexemes (l.map lexemeOf).flatten = l.map lexemeOf := by
  refine List.splitBy_flatten ?_ ?_ ?_
  · intro hm
    obtain ⟨a, ha, hnil⟩ := List.mem_map.mp hm
    exact hne a ha hnil
  · intro lexeme hm
    obtain ⟨a, ha, rfl⟩ := List.mem_map.mp hm
    exact (hw a ha).isChain
  · rw [List.isChain_map]
    exact hs.imp_of_mem_imp fun a b ha hb hkinds =>
      ⟨hne a ha, hne b hb, (hw a ha).getLast_head (hw b hb) (hne a ha) (hne b hb) hkinds⟩

end

/-! ### The lexemes of a spelling -/

/-- The text of a kind is a lexeme of that kind. -/
theorem ofLexeme_text {kind : TokenKind} (h : kind.IsSpelled) : ofLexeme kind.text = kind := by
  refine h.isWrittenAs.ofLexeme_eq (text_ne_nil h) ?_
  rintro value rfl
  have hvalue : 0 ≤ value.toInt := h
  have hmax := value.toInt_lt
  rw [text_integer hvalue, Text.toNat_ofNat]
  unfold maxInteger
  omega

theorem lexemes_spell {kinds : List TokenKind} (h : IsSpellable kinds) :
    (spell kinds).lexemes = kinds.map text :=
  lexemes_of_isWrittenAs (fun kind hk => text_ne_nil (h.spelled kind hk))
    (fun kind hk => (h.spelled kind hk).isWrittenAs) h.separate

end TokenKind

/-! ### The tokens of a spelling -/

open TokenKind

theorem Token.map_kind_place (column offset : Nat) (lexemes : List Text) :
    (Token.place column offset lexemes).map Token.kind = lexemes.map ofLexeme := by
  induction lexemes generalizing column offset with
  | nil => rfl
  | cons lexeme rest ih => rw [Token.place, List.map_cons, List.map_cons, ih]

theorem map_kind_tokenize (s : Text) : (tokenize s).map Token.kind = s.lexemes.map ofLexeme :=
  Token.map_kind_place 1 0 _

/-- **The tokens of a spelling are of the kinds that were spelled.** -/
theorem map_kind_tokenize_spell {kinds : List TokenKind} (h : IsSpellable kinds) :
    (tokenize (spell kinds)).map Token.kind = kinds := by
  rw [map_kind_tokenize, lexemes_spell h, List.map_map]
  calc kinds.map (ofLexeme ∘ text) = kinds.map id :=
        List.map_congr_left fun kind hk => ofLexeme_text (h.spelled kind hk)
    _ = kinds := List.map_id kinds

/-- The kind of a token of a text is that of its lexeme. -/
theorem Token.kind_eq_of_mem_place {column offset : Nat} {lexemes : List Text} {token : Token}
    (hm : token ∈ Token.place column offset lexemes) :
    token.lexeme ∈ lexemes ∧ token.kind = ofLexeme token.lexeme := by
  induction lexemes generalizing column offset with
  | nil => cases hm
  | cons lexeme rest ih =>
    rw [Token.place, List.mem_cons] at hm
    rcases hm with rfl | hm
    · exact ⟨List.mem_cons_self, rfl⟩
    · obtain ⟨hlexeme, hkind⟩ := ih hm
      exact ⟨List.mem_cons_of_mem _ hlexeme, hkind⟩

/-- The value of a number is what its digits denote, as far as it has 64 bits. -/
theorem TokenKind.toInt_eq_of_ofLexeme {s : Text} {value : Int64}
    (h : ofLexeme s = integer value) : value.toInt = min (Text.toNat s) maxInteger := by
  cases s with
  | nil => cases h
  | cons c rest =>
    rw [ofLexeme] at h
    by_cases hdigit : c.isDigit
    · rw [if_pos hdigit] at h
      have hlt : min (Text.toNat (c :: rest)) maxInteger < 9223372036854775808 := by
        unfold maxInteger
        omega
      rw [← integer.inj h, Int64.toInt_ofNat_of_lt hlt]
    · rw [if_neg hdigit, ofChar] at h
      split at h
      · cases h
      · split at h
        · cases h
        · split at h <;> cases h

theorem toInt_eq_of_mem_tokenize {s : Text} {token : Token} (hm : token ∈ tokenize s)
    {value : Int64} (hk : token.kind = .integer value) :
    value.toInt = min (Text.toNat token.lexeme) maxInteger :=
  TokenKind.toInt_eq_of_ofLexeme ((Token.kind_eq_of_mem_place hm).2.symm.trans hk)

/-- The numbers of a text have no signs. -/
theorem toInt_nonneg_of_mem_tokenize {s : Text} {token : Token} (hm : token ∈ tokenize s)
    {value : Int64} (hk : token.kind = .integer value) : 0 ≤ value.toInt := by
  rw [toInt_eq_of_mem_tokenize hm hk]
  exact Int.natCast_nonneg _

end Abacus
