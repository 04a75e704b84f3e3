import Abacus.Proofs.Tiling
import Abacus.Proofs.Validated

/-!
# What makes a list of tokens the tokens of a text

The tokens of a text lose nothing and invent nothing. Their lexemes are the text, their offsets
leave no gap, and their columns count characters. Each lexeme is what the kind of its token says,
and numbers are as long as possible: no two of them are neighbours. These laws leave no choice. A
list of tokens for which they hold is the list of the tokens of the text
(`Token.AreTokensOf.eq_tokenize`).

Lexers are mostly described otherwise, by patterns and the rule that the longest match wins: a text
is cut after the longest match of a pattern that it begins with, and where it begins with none, one
character is an error. That rule cuts a text into the same lexemes (`Text.isLongestMatch_iff`).
-/

namespace Abacus

/-! ### Lexemes in their text -/

/-- A run of digits that cannot be made longer: what is before and behind it does not go on with
digits. -/
structure IsWholeNumber (before digits behind : Text) : Prop where
  ne_nil : digits ≠ []
  isDigit : ∀ c ∈ digits, c.isDigit
  before : ∀ c ∈ before.getLast?, c.isDigit = false
  behind : ∀ c ∈ behind.head?, c.isDigit = false

theorem getLast?_flatten_of_getLast? {l : List Text} {lexeme : Text} (h : lexeme ∈ l.getLast?)
    (hne : lexeme ≠ []) : l.flatten.getLast? = lexeme.getLast? := by
  obtain ⟨l', rfl⟩ := List.getLast?_eq_some_iff.mp h
  rw [List.flatten_append, List.flatten_singleton, List.getLast?_append_of_ne_nil _ hne]

theorem head?_flatten_of_head? {l : List Text} {lexeme : Text} (h : lexeme ∈ l.head?)
    (hne : lexeme ≠ []) : l.flatten.head? = lexeme.head? := by
  obtain ⟨l', rfl⟩ := List.head?_eq_some_iff.mp h
  rw [List.flatten_cons, List.head?_append_of_ne_nil _ hne]

/-- A lexeme that is a run of digits is a whole number. -/
theorem isWholeNumber_of_lexemes {s : Text} {l l' : List Text} {lexeme : Text}
    (h : s.lexemes = l ++ lexeme :: l') (hd : ∀ c ∈ lexeme, c.isDigit) :
    IsWholeNumber l.flatten lexeme l'.flatten := by
  obtain ⟨-, hnil, -, hmeet⟩ := List.splitBy_eq_iff.mp h
  have hne : ∀ x ∈ l ++ lexeme :: l', x ≠ [] := fun x hx hx' => hnil (hx' ▸ hx)
  have hlexeme : lexeme ≠ [] := hne lexeme (by simp)
  rw [List.isChain_append, List.isChain_cons] at hmeet
  obtain ⟨-, ⟨hbehind, -⟩, hbefore⟩ := hmeet
  refine ⟨hlexeme, hd, fun c hc => ?_, fun c hc => ?_⟩
  · cases hl : l.getLast? with
    | none => simp [List.getLast?_eq_none_iff.mp hl] at hc
    | some x =>
      obtain ⟨hx, hy, hmeets⟩ := hbefore x hl lexeme rfl
      rw [getLast?_flatten_of_getLast? hl hx, List.getLast?_eq_some_getLast hx] at hc
      obtain rfl := Option.some.inj hc
      simpa [hd _ (List.head_mem hlexeme)] using hmeets
  · cases hl : l'.head? with
    | none => simp [List.head?_eq_none_iff.mp hl] at hc
    | some y =>
      obtain ⟨hx, hy, hmeets⟩ := hbehind y hl
      rw [head?_flatten_of_head? hl hy, List.head?_eq_some_head hy] at hc
      obtain rfl := Option.some.inj hc
      simpa [hd _ (List.getLast_mem hlexeme)] using hmeets

/-- The lexeme of a token is written as its kind says. -/
theorem isWrittenAs_of_mem_tokenize {s : Text} {token : Token} (h : token ∈ tokenize s) :
    token.kind.IsWrittenAs token.lexeme := by
  obtain ⟨hlexeme, hkind⟩ := Token.kind_eq_of_mem_place h
  rw [hkind]
  rcases Text.lexeme_cases hlexeme with ⟨hne, hdigits⟩ | ⟨c, hc, hl⟩
  · obtain ⟨c, rest, hl⟩ := List.exists_cons_of_ne_nil hne
    rw [hl] at hdigits ⊢
    rw [TokenKind.ofLexeme, if_pos (hdigits c List.mem_cons_self)]
    exact hdigits
  · rw [hl, TokenKind.ofLexeme, hc, if_neg Bool.false_ne_true]
    exact TokenKind.isWrittenAs_ofChar hc

/-! ### Longest matches -/

namespace Text

/-- The patterns of a lexer: runs of digits, and the characters of operators and parentheses. -/
def Matches (x : Text) : Prop :=
  (x ≠ [] ∧ ∀ c ∈ x, c.isDigit) ∨ ∃ c : Char, x = [c] ∧ isExpressionChar c

/-- The text is cut after the longest match that it begins with, or after one character if it begins
with none, and so on. -/
inductive IsLongestMatch : Text → List Text → Prop where
  | nil : IsLongestMatch [] []
  | word {x s : Text} {lexemes : List Text} :
      Matches x → (∀ y, y <+: x ++ s → Matches y → y.length ≤ x.length) →
      IsLongestMatch s lexemes → IsLongestMatch (x ++ s) (x :: lexemes)
  | error {c : Char} {s : Text} {lexemes : List Text} :
      (∀ y, y <+: c :: s → ¬ Matches y) →
      IsLongestMatch s lexemes → IsLongestMatch (c :: s) ([c] :: lexemes)

theorem Matches.ne_nil {x : Text} (h : Matches x) : x ≠ [] := by
  rcases h with ⟨hne, -⟩ | ⟨c, rfl, -⟩
  · exact hne
  · exact List.cons_ne_nil c []

theorem Matches.digits_or_char {x : Text} (h : Matches x) :
    (∀ c ∈ x, c.isDigit) ∨ ∃ c, x = [c] := by
  rcases h with ⟨-, hdigits⟩ | ⟨c, rfl, -⟩
  · exact .inl hdigits
  · exact .inr ⟨c, rfl⟩

/-- What ends in a digit is a number. -/
theorem Matches.isDigit {x : Text} (h : Matches x) {c : Char} (hc : c ∈ x.getLast?)
    (hd : c.isDigit) : ∀ c ∈ x, c.isDigit := by
  rcases h.digits_or_char with hdigits | ⟨c', rfl⟩
  · exact hdigits
  · obtain rfl : c' = c := Option.some.inj hc
    simpa using hd

/-- Longest matches are lexemes. -/
theorem IsLongestMatch.eq_lexemes {s : Text} {lexemes : List Text} (h : IsLongestMatch s lexemes) :
    lexemes = s.lexemes := by
  induction h with
  | nil => rfl
  | @word x s lexemes hx hmax _ ih =>
    have hcut : ∀ c ∈ x.getLast?, ∀ d ∈ s.head?, (c.isDigit && d.isDigit) = false := by
      intro c hc d hd
      rw [Bool.and_eq_false_iff, ← Bool.not_eq_true, ← Bool.not_eq_true, ← not_and_or]
      rintro ⟨hcd, hdd⟩
      -- one more digit would make a longer match
      obtain ⟨s', rfl⟩ := List.head?_eq_some_iff.mp hd
      have hlonger : Matches (x ++ [d]) := by
        refine .inl ⟨by simp, ?_⟩
        rw [List.forall_mem_append, List.forall_mem_singleton]
        exact ⟨hx.isDigit hc hcd, hdd⟩
      have hle := hmax (x ++ [d]) ⟨s', by simp⟩ hlonger
      rw [List.length_append, List.length_singleton] at hle
      omega
    rw [ih]
    exact (@lexemes_cut [] x s hx.ne_nil hx.digits_or_char (by simp) hcut).symm
  | @error c s lexemes hnone _ ih =>
    have hc : c.isDigit = false := by
      rw [← Bool.not_eq_true]
      intro hdigit
      exact hnone [c] ⟨s, rfl⟩ (.inl ⟨by simp, by simpa using hdigit⟩)
    rw [ih]
    exact (@lexemes_cut [] [c] s (by simp) (.inr ⟨c, rfl⟩) (by simp) (by simp [hc])).symm

/-- Nothing longer than a run of digits matches where no digit follows. -/
theorem length_le_of_matches {x y s : Text} (hx : x ≠ [])
    (hs : ∀ c ∈ s.head?, c.isDigit = false) (hy : Matches y) (h : y <+: x ++ s) :
    y.length ≤ x.length := by
  refine Nat.le_of_not_lt fun hlt => ?_
  obtain ⟨z, rfl⟩ := List.prefix_of_prefix_length_le (List.prefix_append x s) h (Nat.le_of_lt hlt)
  cases z with
  | nil => simp at hlt
  | cons d z =>
    have hd : d ∈ s.head? := by
      obtain ⟨rest, hrest⟩ := h
      rw [List.append_assoc, List.append_cancel_left_eq] at hrest
      rw [← hrest]
      rfl
    rcases hy.digits_or_char with hdigits | ⟨c, hc⟩
    · have hdigit := hdigits d (by simp)
      rw [hs d hd] at hdigit
      cases hdigit
    · have hlength := congrArg List.length hc
      have hpos := List.length_pos_iff.mpr hx
      simp only [List.length_append, List.length_cons, List.length_nil] at hlength
      omega

/-- What begins with a character that is no digit matches as this character, if at all. -/
theorem Matches.eq_singleton {y s : Text} {c : Char} (hc : c.isDigit = false) (hy : Matches y)
    (h : y <+: c :: s) : y = [c] ∧ isExpressionChar c := by
  obtain ⟨rest, hrest⟩ := h
  rcases hy with ⟨hne, hdigits⟩ | ⟨c', rfl, hlegal⟩
  · obtain ⟨c', y, rfl⟩ := List.exists_cons_of_ne_nil hne
    obtain rfl : c' = c := (List.cons.inj hrest).1
    exact absurd (hdigits c' List.mem_cons_self) (by simp [hc])
  · obtain rfl : c' = c := (List.cons.inj hrest).1
    exact ⟨rfl, hlegal⟩

/-- Lexemes are longest matches. -/
theorem isLongestMatch_flatten {l : List Text} (h : Text.lexemes l.flatten = l) :
    IsLongestMatch l.flatten l := by
  induction l with
  | nil => exact .nil
  | cons lexeme rest ih =>
    have hrest : IsLongestMatch rest.flatten rest :=
      ih (lexemes_flatten (s := (lexeme :: rest).flatten) ⟨[lexeme], [], by rw [h]; simp⟩)
    rw [List.flatten_cons] at h ⊢
    rcases lexeme_cases (h ▸ List.mem_cons_self : lexeme ∈ _) with ⟨hne, hdigits⟩ | ⟨c, hc, rfl⟩
    · have hwhole := isWholeNumber_of_lexemes (l := []) h hdigits
      exact .word (.inl ⟨hne, hdigits⟩)
        (fun y hy hm => length_le_of_matches hne hwhole.behind hm hy) hrest
    · rw [List.singleton_append]
      by_cases hlegal : isExpressionChar c
      · refine .word (x := [c]) (.inr ⟨c, rfl, hlegal⟩) (fun y hy hm => ?_) hrest
        rw [(hm.eq_singleton hc hy).1]
      · exact .error (fun y hy hm => hlegal (hm.eq_singleton hc hy).2) hrest

/-- **The lexemes of a text** are found by the rule of the longest match. -/
theorem isLongestMatch_iff {s : Text} {lexemes : List Text} :
    IsLongestMatch s lexemes ↔ lexemes = s.lexemes := by
  constructor
  · exact IsLongestMatch.eq_lexemes
  · rintro rfl
    have h := isLongestMatch_flatten (l := s.lexemes) (by rw [s.flatten_lexemes])
    rwa [s.flatten_lexemes] at h

end Text

/-! ### The laws of tokens -/

namespace Token

/-- The text that tokens take up. -/
def spelling (tokens : List Token) : Text := (tokens.map lexeme).flatten

@[simp] theorem spelling_nil : spelling [] = [] := rfl

@[simp] theorem spelling_cons (token : Token) (tokens : List Token) :
    spelling (token :: tokens) = token.lexeme ++ spelling tokens := rfl

@[simp] theorem spelling_append (tokens tokens' : List Token) :
    spelling (tokens ++ tokens') = spelling tokens ++ spelling tokens' := by
  simp [spelling]

/-- The last character of tokens is that of the last token. -/
theorem getLast?_spelling {tokens : List Token} {token : Token} (h : token ∈ tokens.getLast?)
    (hne : token.lexeme ≠ []) : (spelling tokens).getLast? = token.lexeme.getLast? := by
  refine getLast?_flatten_of_getLast? ?_ hne
  rw [List.getLast?_map, Option.mem_def.mp h]
  rfl

/-- The first character of tokens is that of the first token. -/
theorem head?_spelling {tokens : List Token} {token : Token} (h : token ∈ tokens.head?)
    (hne : token.lexeme ≠ []) : (spelling tokens).head? = token.lexeme.head? := by
  refine head?_flatten_of_head? ?_ hne
  rw [List.head?_map, Option.mem_def.mp h]
  rfl

@[simp] theorem spelling_tokenize (s : Text) : spelling (tokenize s) = s := by
  rw [spelling, map_lexeme_tokenize, Text.flatten_lexemes]

theorem lexeme_ne_nil_of_mem_tokenize {s : Text} {token : Token} (h : token ∈ tokenize s) :
    token.lexeme ≠ [] :=
  List.ne_nil_of_mem_splitBy (Token.kind_eq_of_mem_place h).1

/-- A token that is placed stands where the text before it leads. -/
theorem column_offset_of_place_eq_append {column offset : Nat} {lexemes : List Text}
    {front back : List Token} {token : Token}
    (h : place column offset lexemes = front ++ token :: back) :
    token.column = column + (spelling front).length ∧
      token.offset = offset + Text.byteSize (spelling front) := by
  obtain ⟨l, l', -, rfl, hback⟩ := exists_lexemes_of_place_eq_append h
  rw [spelling, map_lexeme_place]
  cases l' with
  | nil => cases hback
  | cons lexeme rest =>
    rw [(List.cons.inj hback).1]
    exact ⟨rfl, rfl⟩

/-- Tokens that stand side by side, have the right columns and are of the kinds of their lexemes are
the tokens that are placed for these lexemes. -/
theorem place_map_lexeme {tokens : List Token} {column offset stop : Nat}
    (htile : Tile offset tokens stop)
    (hcolumn : ∀ front token back, tokens = front ++ token :: back →
      token.column = column + (spelling front).length)
    (hkind : ∀ token ∈ tokens, TokenKind.ofLexeme token.lexeme = token.kind) :
    place column offset (tokens.map lexeme) = tokens := by
  induction tokens generalizing column offset with
  | nil => rfl
  | cons token rest ih =>
    obtain ⟨rfl, -, htile⟩ := htile
    have hfirst : token.column = column := hcolumn [] token rest rfl
    rw [List.forall_mem_cons] at hkind
    have hrest : place (column + token.lexeme.length) token.stop (rest.map lexeme) = rest := by
      refine ih htile ?_ hkind.2
      rintro front token' back rfl
      have hnext := hcolumn (token :: front) token' back rfl
      rwa [spelling_cons, List.length_append, ← Nat.add_assoc] at hnext
    rw [List.map_cons, place, hkind.1, ← Token.stop, hrest, ← hfirst]

/-- No two numbers of a text are neighbours: they would be one. -/
theorem isChain_tokenize (s : Text) :
    (tokenize s).IsChain fun a b => ¬ (a.kind.isInteger ∧ b.kind.isInteger) := by
  have hmeet := List.isChain_getLast_head_splitBy (fun a b : Char => a.isDigit && b.isDigit) s
  rw [← Text.lexemes, ← map_lexeme_tokenize, List.isChain_map] at hmeet
  refine hmeet.imp_of_mem_imp ?_
  rintro a b ha hb ⟨hne, hne', hmeets⟩ ⟨hinteger, hinteger'⟩
  have hdigits : ∀ token ∈ tokenize s, token.kind.isInteger → ∀ c ∈ token.lexeme, c.isDigit := by
    intro token hm hk
    obtain ⟨value, hvalue⟩ := TokenKind.isInteger_iff.mp hk
    have hwritten := isWrittenAs_of_mem_tokenize hm
    rw [hvalue] at hwritten
    exact hwritten
  rw [hdigits a ha hinteger _ (List.getLast_mem hne),
    hdigits b hb hinteger' _ (List.head_mem hne')] at hmeets
  cases hmeets

/-- The laws of the tokens of a text. -/
structure AreTokensOf (tokens : List Token) (s : Text) : Prop where
  /-- The lexemes, one after another, are the text. -/
  spelling_eq : spelling tokens = s
  /-- The first token begins at offset 0, each other one where the one before it ends, and the last
  one ends where the text ends. -/
  tile : Tile 0 tokens (Text.byteSize s)
  /-- The column of a token is one more than the number of characters before it. -/
  column_eq : ∀ front token back, tokens = front ++ token :: back →
    token.column = 1 + (spelling front).length
  /-- No two numbers are neighbours. -/
  separate : tokens.IsChain fun a b => ¬ (a.kind.isInteger ∧ b.kind.isInteger)
  /-- A number is written in digits, an operator and a parenthesis as its own character, and an
  invalid token is one character that no expression contains. -/
  written : ∀ token ∈ tokens, token.lexeme ≠ [] ∧ token.kind.IsWrittenAs token.lexeme
  /-- The value of a number is what its digits denote, cut to the largest integer of 64 bits. -/
  value_eq : ∀ token ∈ tokens, ∀ value, token.kind = .integer value →
    value.toInt = min (Text.toNat token.lexeme) 9223372036854775807

end Token

/-- The laws hold for the tokens of a text. -/
theorem areTokensOf_tokenize (s : Text) : Token.AreTokensOf (tokenize s) s where
  spelling_eq := Token.spelling_tokenize s
  tile := tile_tokenize s
  column_eq := fun _ _ _ h => (Token.column_offset_of_place_eq_append h).1
  separate := Token.isChain_tokenize s
  written := fun _ hm =>
    ⟨Token.lexeme_ne_nil_of_mem_tokenize hm, isWrittenAs_of_mem_tokenize hm⟩
  value_eq := fun _ hm _ hk => toInt_eq_of_mem_tokenize hm hk

/-- The laws hold for no other tokens. -/
theorem Token.AreTokensOf.eq_tokenize {s : Text} {tokens : List Token}
    (h : Token.AreTokensOf tokens s) : tokenize s = tokens := by
  have hlexemes : s.lexemes = tokens.map Token.lexeme := by
    rw [← h.spelling_eq]
    exact TokenKind.lexemes_of_isWrittenAs (fun token hm => (h.written token hm).1)
      (fun token hm => (h.written token hm).2) h.separate
  rw [tokenize, hlexemes]
  refine Token.place_map_lexeme h.tile h.column_eq fun token hm => ?_
  exact (h.written token hm).2.ofLexeme_eq (h.written token hm).1 (h.value_eq token hm)

/-- **The tokens of a text** are those for which the laws hold, and no others. Their lexemes are
those that the rule of the longest match finds. -/
theorem tokenize_eq_iff (s : Text) :
    (∀ tokens, tokenize s = tokens ↔ Token.AreTokensOf tokens s) ∧
      ∀ lexemes, (tokenize s).map Token.lexeme = lexemes ↔ Text.IsLongestMatch s lexemes := by
  refine ⟨fun tokens => ⟨?_, Token.AreTokensOf.eq_tokenize⟩, fun lexemes => ?_⟩
  · rintro rfl
    exact areTokensOf_tokenize s
  · rw [map_lexeme_tokenize, Text.isLongestMatch_iff]
    exact eq_comm

/-- Columns count characters, offsets bytes. -/
example : (tokenize "é1√007+".toList).map (fun t => (t.column, t.offset, t.stop)) =
    [(1, 0, 2), (2, 2, 3), (3, 3, 6), (4, 6, 9), (7, 9, 10)] := by decide

end Abacus
