import Abacus.Proofs.Tokenization

/-!
# The verdict on a text

Validation looks at tokens and compares numbers that were cut to 64 bits. What it decides can be
said without tokens, of the characters of a text (`IsVerdict`): the first character that is not
allowed is reported; if there is none, the first sign that is followed by an operand and follows
nothing, or an operator; and if there is none, the first whole number above 2147483647, however many
digits it has.

The three checks go through a list, and stop at the first element that they object to, for what it
is or for what stands around it. So all of them are one search (`search`). What the checks on tokens
find first is also the first in the text, because each piece of the text that is reported is a
token: a sign because it is no digit, and a whole number because digits are not cut
(`Text.lexemes_cut`).
-/

namespace Abacus

/-! ### The first piece of a list -/

section

variable {α β : Type}

/-- A list falls into what is before a piece, the piece, and what is behind it. `P` holds for these,
and for no piece that begins earlier. -/
structure IsFirst (P : List α → List α → List α → Prop) (l before piece behind : List α) :
    Prop where
  split : l = before ++ piece ++ behind
  holds : P before piece behind
  first : ∀ before' piece' behind', l = before' ++ piece' ++ behind' →
    P before' piece' behind' → before.length ≤ before'.length

/-- `P` holds for no piece of a list. -/
def Nowhere (P : List α → List α → List α → Prop) (l : List α) : Prop :=
  ∀ before piece behind, l = before ++ piece ++ behind → ¬ P before piece behind

/-- The piece is one element for which, with what is before and behind it, `p` holds. -/
def IsOne (p : List α → α → List α → Prop) (before piece behind : List α) : Prop :=
  ∃ a, piece = [a] ∧ p before a behind

variable {P : List α → List α → List α → Prop} {l before piece behind : List α}

theorem IsFirst.not_nowhere (h : IsFirst P l before piece behind) : ¬ Nowhere P l :=
  fun hnowhere => hnowhere before piece behind h.split h.holds

/-- There is one place where the first pieces begin. -/
theorem IsFirst.before_eq (h : IsFirst P l before piece behind) {before' piece' behind' : List α}
    (h' : IsFirst P l before' piece' behind') :
    before = before' ∧ piece ++ behind = piece' ++ behind' := by
  have hle := h.first before' piece' behind' h'.split h'.holds
  have hge := h'.first before piece behind h.split h.holds
  have hsplit := h.split.symm.trans h'.split
  rw [List.append_assoc, List.append_assoc] at hsplit
  exact List.append_inj hsplit (Nat.le_antisymm hle hge)

/-- The first piece is the only one, if it is one element. -/
theorem IsFirst.singleton_eq {a a' : α} (h : IsFirst P l before [a] behind)
    {before' behind' : List α} (h' : IsFirst P l before' [a'] behind') :
    before = before' ∧ a = a' := by
  obtain ⟨hbefore, hrest⟩ := h.before_eq h'
  exact ⟨hbefore, (List.cons.inj hrest).1⟩

/-- What is found in a list, but not at its first element, is found behind it. -/
theorem exists_of_isOne {p : List α → α → List α → Prop} {a : α} {rest : List α}
    (hp : ¬ p [] a rest) (hsplit : a :: rest = before ++ piece ++ behind)
    (hone : IsOne p before piece behind) :
    ∃ before', before = a :: before' ∧ rest = before' ++ piece ++ behind ∧
      IsOne (fun before => p (a :: before)) before' piece behind := by
  obtain ⟨a', rfl, ha'⟩ := hone
  cases before with
  | nil =>
    obtain ⟨rfl, rfl⟩ := List.cons.inj hsplit
    exact absurd ha' hp
  | cons b before' =>
    obtain ⟨rfl, hrest⟩ := List.cons.inj hsplit
    exact ⟨before', rfl, hrest, a', rfl, ha'⟩

/-- The answer for the first element for which `p` holds, with what is before and behind it. -/
def search (p : List α → α → List α → Bool) (answer : List α → α → β) : List α → Option β
  | [] => none
  | a :: rest =>
    if p [] a rest then some (answer [] a)
    else search (fun before => p (a :: before)) (fun before => answer (a :: before)) rest

/-- **A search finds the first element**, or there is none. -/
theorem search_cases (p : List α → α → List α → Bool) (answer : List α → α → β) (l : List α) :
    (search p answer l = none ∧ Nowhere (IsOne fun before a behind => p before a behind) l) ∨
    ∃ before a behind,
      IsFirst (IsOne fun before a behind => p before a behind) l before [a] behind ∧
      search p answer l = some (answer before a) := by
  induction l generalizing p answer with
  | nil =>
    refine .inl ⟨rfl, ?_⟩
    rintro before piece behind hsplit ⟨a, rfl, -⟩
    simp at hsplit
  | cons a rest ih =>
    rw [search]
    by_cases hp : p [] a rest
    · exact .inr ⟨[], a, rest, ⟨rfl, ⟨a, rfl, hp⟩, fun before' _ _ _ _ => Nat.zero_le _⟩, if_pos hp⟩
    · rw [if_neg hp]
      rcases ih (fun before => p (a :: before)) (fun before => answer (a :: before)) with
        ⟨hnone, hnowhere⟩ | ⟨before, b, behind, ⟨rfl, ⟨b', hb', hpb⟩, hfirst⟩, hsome⟩
      · refine .inl ⟨hnone, fun before piece behind hsplit hone => ?_⟩
        obtain ⟨before', -, hrest, hone'⟩ := exists_of_isOne hp hsplit hone
        exact hnowhere before' piece behind hrest hone'
      · refine .inr ⟨a :: before, b, behind, ⟨rfl, ⟨b', hb', hpb⟩, ?_⟩, hsome⟩
        intro before' piece' behind' hsplit hone
        obtain ⟨before'', rfl, hrest, hone'⟩ := exists_of_isOne hp hsplit hone
        exact Nat.succ_le_succ (hfirst before'' piece' behind' hrest hone')

end

/-! ### What is said of the characters -/

/-- A character that is not allowed. -/
def IsIllegal : Text → Text → Text → Prop :=
  IsOne fun _ c _ => ¬ (c.isDigit ∨ c ∈ ['+', '-', '*', '/', '^', '(', ')'])

/-- A sign that is followed by an operand and follows an operator, or begins the text. -/
def IsSignPrefix : Text → Text → Text → Prop :=
  IsOne fun before c behind => (c = '+' ∨ c = '-') ∧
    (∀ d ∈ before.getLast?, d ∈ ['+', '-', '*', '/', '^']) ∧
    ∃ d ∈ behind.head?, d.isDigit ∨ d = '('

/-- A run of digits, as long as possible, that denotes a number above 2147483647. -/
def IsTooLarge (before digits behind : Text) : Prop :=
  IsWholeNumber before digits behind ∧ 2147483647 < Text.toNat digits

/-- What validation has to decide: of the three kinds of errors the first one that a text has, and
of these errors the first in the text; or no error. -/
inductive IsVerdict (s : Text) : Except ValidationError Unit → Prop where
  | illegal {before behind : Text} {c : Char} :
      IsFirst IsIllegal s before [c] behind →
      IsVerdict s (.error (.illegalCharacter c (Text.byteSize before)))
  | signed {before behind : Text} {sign : Char} :
      Nowhere IsIllegal s → IsFirst IsSignPrefix s before [sign] behind →
      IsVerdict s (.error (.signedOperand sign (Text.byteSize before)))
  | tooLarge {before digits behind : Text} :
      Nowhere IsIllegal s → Nowhere IsSignPrefix s → IsFirst IsTooLarge s before digits behind →
      IsVerdict s (.error (.operandOutOfRange digits (Text.byteSize before)))
  | ok : Nowhere IsIllegal s → Nowhere IsSignPrefix s → Nowhere IsTooLarge s → IsVerdict s (.ok ())

variable {s : Text}

/-- Whole numbers that begin at the same place are the same. -/
theorem IsWholeNumber.eq {before before' digits digits' behind behind' : Text}
    (h : IsWholeNumber before digits behind) (h' : IsWholeNumber before' digits' behind')
    (hrest : digits ++ behind = digits' ++ behind') : digits = digits' := by
  rcases List.append_eq_append_iff.mp hrest with ⟨more, rfl, hmore⟩ | ⟨more, rfl, hmore⟩
  · cases more with
    | nil => simp
    | cons c more =>
      have hc : c.isDigit = false := h.behind c (by simp [hmore])
      exact absurd (h'.isDigit c (by simp)) (by simp [hc])
  · cases more with
    | nil => simp
    | cons c more =>
      have hc : c.isDigit = false := h'.behind c (by simp [hmore])
      exact absurd (h.isDigit c (by simp)) (by simp [hc])

/-! ### Kinds of characters -/

theorem mem_symbols_iff {c : Char} :
    c ∈ ['+', '-', '*', '/', '^'] ↔ ∃ op : Operator, c = op.symbol := by
  constructor
  · intro h
    have hall : c ∈ Operator.all.map Operator.symbol := h
    obtain ⟨op, -, rfl⟩ := List.mem_map.mp hall
    exact ⟨op, rfl⟩
  · rintro ⟨op, rfl⟩
    have hall : op.symbol ∈ Operator.all.map Operator.symbol := List.mem_map_of_mem op.mem_all
    exact hall

theorem isSome_ofSymbol?_iff {c : Char} :
    (Operator.ofSymbol? c).isSome ↔ c ∈ ['+', '-', '*', '/', '^'] := by
  rw [mem_symbols_iff, Option.isSome_iff_exists]
  refine exists_congr fun op => ⟨Operator.eq_symbol_of_ofSymbol?, ?_⟩
  rintro rfl
  exact op.ofSymbol?_symbol

theorem isExpressionChar_iff {c : Char} :
    isExpressionChar c ↔ c.isDigit ∨ c ∈ ['+', '-', '*', '/', '^', '(', ')'] := by
  simp only [isExpressionChar, Bool.or_eq_true, beq_iff_eq, isSome_ofSymbol?_iff]
  simp [or_assoc]

theorem isDigit_eq_false_of_mem {c : Char} (h : c ∈ ['+', '-', '*', '/', '^', '(', ')']) :
    c.isDigit = false := by
  have hall : ['+', '-', '*', '/', '^', '(', ')'].all (!·.isDigit) := by decide
  simpa using List.all_eq_true.mp hall c h

namespace TokenKind

variable {kind : TokenKind} {lexeme : Text} {c : Char}

/-- A property that invalid tokens do not have can be read off a character, if this is right for
operators and parentheses, and for others it is not read. -/
theorem ofChar_iff {p : TokenKind → Bool} {q : Char → Prop} [DecidablePred q]
    (hp : p .invalid = false) (hq : ∀ c, q c → c ∈ ['+', '-', '*', '/', '^', '(', ')'])
    (hpq : ['+', '-', '*', '/', '^', '(', ')'].all fun c => p (ofChar c) == decide (q c)) :
    p (ofChar c) ↔ q c := by
  by_cases hm : c ∈ ['+', '-', '*', '/', '^', '(', ')']
  · have hc : p (ofChar c) = decide (q c) := by simpa using List.all_eq_true.mp hpq c hm
    rw [hc, decide_eq_true_eq]
  · have hinvalid : ofChar c = .invalid := by
      have hop : Operator.ofSymbol? c = none := by
        rw [← Option.isNone_iff_eq_none, ← Option.isSome_eq_false_iff, ← Bool.not_eq_true,
          isSome_ofSymbol?_iff]
        exact fun hop => hm (List.mem_append_left ['(', ')'] hop)
      rw [ofChar, hop]
      simp only [List.mem_cons, not_or] at hm
      simp [hm]
    rw [hinvalid, hp]
    exact iff_of_false Bool.false_ne_true fun hc => hm (hq c hc)

theorem mem_of_sign (h : c = '+' ∨ c = '-') : c ∈ ['+', '-', '*', '/', '^', '(', ')'] := by
  rcases h with rfl | rfl <;> decide

/-- An operator is known by the last character of its lexeme. -/
theorem IsWrittenAs.isOperator_iff (h : kind.IsWrittenAs lexeme) (hc : c ∈ lexeme.getLast?) :
    kind.isOperator ↔ c ∈ ['+', '-', '*', '/', '^'] := by
  have hlegal : ∀ c ∈ ['+', '-', '*', '/', '^'], c ∈ ['+', '-', '*', '/', '^', '(', ')'] :=
    fun c hm => List.mem_append_left ['(', ')'] hm
  rcases h.digits_or_char with ⟨hinteger, hdigits⟩ | ⟨c', rfl, -, rfl⟩
  · obtain ⟨value, rfl⟩ := isInteger_iff.mp hinteger
    have hdigit := hdigits c (List.mem_of_getLast? hc)
    refine iff_of_false Bool.false_ne_true fun hm => ?_
    rw [isDigit_eq_false_of_mem (hlegal c hm)] at hdigit
    cases hdigit
  · obtain rfl : c' = c := Option.some.inj hc
    exact ofChar_iff rfl hlegal (by decide)

/-- What an operand can begin with is known by the first character of its lexeme. -/
theorem IsWrittenAs.startsOperand_iff (h : kind.IsWrittenAs lexeme) (hc : c ∈ lexeme.head?) :
    kind.startsOperand ↔ c.isDigit ∨ c = '(' := by
  rcases h.digits_or_char with ⟨hinteger, hdigits⟩ | ⟨c', rfl, hdigit, rfl⟩
  · obtain ⟨value, rfl⟩ := isInteger_iff.mp hinteger
    exact iff_of_true rfl (.inl (hdigits c (List.mem_of_head? hc)))
  · obtain rfl : c' = c := Option.some.inj hc
    have hparen : (ofChar c').startsOperand ↔ c' = '(' :=
      @ofChar_iff c' startsOperand (· = '(') _ rfl (by simp) (by decide)
    rw [hdigit, or_iff_right Bool.false_ne_true, hparen]

/-- A sign is known by its lexeme. -/
theorem IsWrittenAs.isSign_iff (h : kind.IsWrittenAs lexeme) :
    kind.isSign ↔ ∃ c, lexeme = [c] ∧ (c = '+' ∨ c = '-') := by
  rcases h.digits_or_char with ⟨hinteger, hdigits⟩ | ⟨c', rfl, -, rfl⟩
  · obtain ⟨value, rfl⟩ := isInteger_iff.mp hinteger
    refine iff_of_false Bool.false_ne_true ?_
    rintro ⟨c, rfl, hsign⟩
    have hdigit := hdigits c List.mem_cons_self
    rw [isDigit_eq_false_of_mem (mem_of_sign hsign)] at hdigit
    cases hdigit
  · have hsign : (ofChar c').isSign ↔ c' = '+' ∨ c' = '-' :=
      ofChar_iff rfl (fun _ => mem_of_sign) (by decide)
    rw [hsign]
    simp

/-- The sign that is reported is the lexeme. -/
theorem IsWrittenAs.eq_of_isSign (h : kind.IsWrittenAs lexeme) (hs : kind.isSign) :
    lexeme = [if kind = .operator .add then '+' else '-'] := by
  cases kind with
  | operator op =>
    obtain rfl : lexeme = [op.symbol] := h
    cases op with
    | add | sub => rfl
    | mul | div | pow => cases hs
  | integer | leftParen | rightParen | invalid => cases hs

end TokenKind

/-! ### Tokens in the text -/

/-- What is the first among the tokens is the first in the text, if all such pieces are lexemes. -/
theorem search_tokenize_cases {p : List Token → Token → List Token → Bool}
    {P : Text → Text → Text → Prop} {answer : List Token → Token → ValidationError}
    (hp : ∀ front token back, tokenize s = front ++ token :: back →
      (p front token back ↔ P (Token.spelling front) token.lexeme (Token.spelling back)))
    (hcut : ∀ before piece behind, P before piece behind →
      (before ++ piece ++ behind).lexemes = before.lexemes ++ piece :: behind.lexemes) :
    (search p answer (tokenize s) = none ∧ Nowhere P s) ∨
    ∃ front token back, tokenize s = front ++ token :: back ∧ p front token back ∧
      IsFirst P s (Token.spelling front) token.lexeme (Token.spelling back) ∧
      search p answer (tokenize s) = some (answer front token) := by
  -- each piece of the text is a token
  have hexists : ∀ before piece behind, s = before ++ piece ++ behind → P before piece behind →
      ∃ front token back, tokenize s = front ++ token :: back ∧ p front token back ∧
        Token.spelling front = before := by
    intro before piece behind hsplit hP
    have hlexemes := hcut before piece behind hP
    rw [← hsplit, ← map_lexeme_tokenize, List.map_eq_append_iff] at hlexemes
    obtain ⟨front, rest, htokens, hfront, hrest⟩ := hlexemes
    obtain ⟨token, back, rfl, rfl, hback⟩ := List.map_eq_cons_iff.mp hrest
    have hbefore : Token.spelling front = before := by
      rw [Token.spelling, hfront, before.flatten_lexemes]
    have hbehind : Token.spelling back = behind := by
      rw [Token.spelling, hback, behind.flatten_lexemes]
    refine ⟨front, token, back, htokens, ?_, hbefore⟩
    rwa [hp front token back htokens, hbefore, hbehind]
  rcases search_cases p answer (tokenize s) with
    ⟨hnone, hnowhere⟩ | ⟨front, token, back, ⟨hsplit, ⟨token', htoken, hpt⟩, hfirst⟩, hsome⟩
  · refine .inl ⟨hnone, fun before piece behind hsplit hP => ?_⟩
    obtain ⟨front, token, back, htokens, hpt, -⟩ := hexists before piece behind hsplit hP
    exact hnowhere front [token] back (by simpa using htokens) ⟨token, rfl, hpt⟩
  · obtain rfl : token = token' := by simpa using htoken
    have htokens : tokenize s = front ++ token :: back := by simpa using hsplit
    refine .inr ⟨front, token, back, htokens, hpt, ⟨?_, (hp _ _ _ htokens).mp hpt, ?_⟩, hsome⟩
    · rw [← Token.spelling_tokenize s, htokens]
      simp
    · intro before' piece' behind' hsplit' hP'
      obtain ⟨front', token', back', htokens', hpt', rfl⟩ := hexists _ _ _ hsplit' hP'
      have hle := hfirst front' [token'] back' (by simpa using htokens') ⟨token', rfl, hpt'⟩
      obtain ⟨more, rfl⟩ : front <+: front' :=
        List.prefix_of_prefix_length_le ⟨_, htokens.symm⟩ ⟨_, htokens'.symm⟩ hle
      simp

namespace Validation

/-! ### The three checks -/

theorem illegalCharacter?_eq_search (offset : Nat) (s : Text) :
    illegalCharacter? offset s = search (fun _ c _ => !isExpressionChar c)
      (fun before c => .illegalCharacter c (offset + Text.byteSize before)) s := by
  induction s generalizing offset with
  | nil => rfl
  | cons c rest ih =>
    rw [illegalCharacter?, search, ih]
    by_cases hc : isExpressionChar c
    · simp [hc, Nat.add_assoc]
    · simp [hc]

/-- Whether a token is a sign before an operand. -/
def isSigned (previous : Option Token) (front : List Token) (token : Token) (back : List Token) :
    Bool :=
  token.kind.isSign && (front.getLast?.or previous).all (·.kind.isOperator) &&
    back.head?.any (·.kind.startsOperand)

theorem signedOperand?_eq_search (previous : Option Token) (tokens : List Token) :
    signedOperand? previous tokens = search (isSigned previous)
      (fun _ token =>
        .signedOperand (if token.kind = .operator .add then '+' else '-') token.offset) tokens := by
  induction tokens generalizing previous with
  | nil => rfl
  | cons token rest ih =>
    have hlater : (fun front => isSigned previous (token :: front)) = isSigned (some token) := by
      funext front token' back
      rw [isSigned, isSigned, List.getLast?_cons]
      cases front.getLast? <;> rfl
    rw [signedOperand?, search, ih, hlater]
    rfl

/-- Whether a token is a number that is too large. -/
def isOutOfRange (token : Token) : Bool :=
  match token.kind with
  | .integer value => !(0 ≤ value && value ≤ maxOperand)
  | _ => false

theorem operandOutOfRange?_eq_search (tokens : List Token) :
    operandOutOfRange? tokens = search (fun _ token _ => isOutOfRange token)
      (fun _ token => .operandOutOfRange token.lexeme token.offset) tokens := by
  induction tokens with
  | nil => rfl
  | cons token rest ih =>
    rw [operandOutOfRange?, search, ih, isOutOfRange]
    cases token.kind with
    | integer value =>
      by_cases hv : 0 ≤ value && value ≤ maxOperand
      · simp only [hv, if_true, Bool.not_true, Bool.false_eq_true, if_false]
      · simp only [hv, Bool.not_false, if_true, Bool.false_eq_true, if_false]
    | operator | leftParen | rightParen | invalid => rfl

/-- The first check finds the first character that is not allowed. -/
theorem illegalCharacter?_cases (s : Text) :
    (illegalCharacter? 0 s = none ∧ Nowhere IsIllegal s) ∨
    ∃ before c behind, IsFirst IsIllegal s before [c] behind ∧
      illegalCharacter? 0 s = some (.illegalCharacter c (Text.byteSize before)) := by
  have hp : (IsOne fun _ c _ => (!isExpressionChar c) = true) = IsIllegal := by
    simp only [IsIllegal, ← isExpressionChar_iff, Bool.not_eq_true']
    simp
  rw [illegalCharacter?_eq_search, ← hp]
  simpa only [Nat.zero_add] using search_cases _ _ s

/-- The tokens of a text are written as their kinds say. -/
theorem written_of_tokenize_eq {front : List Token} {token : Token} {back : List Token}
    (h : tokenize s = front ++ token :: back) :
    (∀ t ∈ front, t.lexeme ≠ [] ∧ t.kind.IsWrittenAs t.lexeme) ∧
    (token.lexeme ≠ [] ∧ token.kind.IsWrittenAs token.lexeme) ∧
    ∀ t ∈ back, t.lexeme ≠ [] ∧ t.kind.IsWrittenAs t.lexeme := by
  have hwritten := (areTokensOf_tokenize s).written
  rwa [h, List.forall_mem_append, List.forall_mem_cons] at hwritten

theorem all_isOperator_iff {front : List Token}
    (h : ∀ t ∈ front, t.lexeme ≠ [] ∧ t.kind.IsWrittenAs t.lexeme) :
    front.getLast?.all (·.kind.isOperator) ↔
      ∀ d ∈ (Token.spelling front).getLast?, d ∈ ['+', '-', '*', '/', '^'] := by
  cases hlast : front.getLast? with
  | none => simp [List.getLast?_eq_none_iff.mp hlast]
  | some t =>
    obtain ⟨hne, hwritten⟩ := h t (List.mem_of_getLast? hlast)
    rw [Token.getLast?_spelling hlast hne, List.getLast?_eq_some_getLast hne, Option.all_some,
      hwritten.isOperator_iff (List.getLast?_eq_some_getLast hne)]
    simp

theorem any_startsOperand_iff {back : List Token}
    (h : ∀ t ∈ back, t.lexeme ≠ [] ∧ t.kind.IsWrittenAs t.lexeme) :
    back.head?.any (·.kind.startsOperand) ↔
      ∃ d ∈ (Token.spelling back).head?, d.isDigit ∨ d = '(' := by
  cases hhead : back.head? with
  | none => simp [List.head?_eq_none_iff.mp hhead]
  | some t =>
    obtain ⟨hne, hwritten⟩ := h t (List.mem_of_head? hhead)
    rw [Token.head?_spelling hhead hne, List.head?_eq_some_head hne, Option.any_some,
      hwritten.startsOperand_iff (List.head?_eq_some_head hne)]
    simp

/-- The second check finds the first sign before an operand. -/
theorem signedOperand?_cases (s : Text) :
    (signedOperand? none (tokenize s) = none ∧ Nowhere IsSignPrefix s) ∨
    ∃ before sign behind, IsFirst IsSignPrefix s before [sign] behind ∧
      signedOperand? none (tokenize s) = some (.signedOperand sign (Text.byteSize before)) := by
  have hp : ∀ front token back, tokenize s = front ++ token :: back →
      (isSigned none front token back ↔
        IsSignPrefix (Token.spelling front) token.lexeme (Token.spelling back)) := by
    intro front token back h
    obtain ⟨hfront, ⟨-, htoken⟩, hback⟩ := written_of_tokenize_eq h
    rw [isSigned, Bool.and_eq_true, Bool.and_eq_true, Option.or_none, htoken.isSign_iff,
      all_isOperator_iff hfront, any_startsOperand_iff hback, IsSignPrefix, IsOne]
    simp only [← exists_and_right, and_assoc]
  have hcut : ∀ before piece behind, IsSignPrefix before piece behind →
      (before ++ piece ++ behind).lexemes = before.lexemes ++ piece :: behind.lexemes := by
    rintro before piece behind ⟨c, rfl, hsign, -⟩
    have hc : c.isDigit = false := by rcases hsign with rfl | rfl <;> rfl
    exact Text.lexemes_cut (List.cons_ne_nil c []) (.inr ⟨c, rfl⟩) (by simp [hc]) (by simp [hc])
  rw [signedOperand?_eq_search]
  rcases search_tokenize_cases hp hcut with hnone | ⟨front, token, back, h, hsigned, hfirst, hsome⟩
  · exact .inl hnone
  · have hsign : token.kind.isSign := by
      rw [isSigned, Bool.and_eq_true, Bool.and_eq_true] at hsigned
      exact hsigned.1.1
    rw [(written_of_tokenize_eq h).2.1.2.eq_of_isSign hsign] at hfirst
    refine .inr ⟨_, _, _, hfirst, ?_⟩
    rw [hsome, (Token.column_offset_of_place_eq_append h).2, Nat.zero_add]

/-- The third check finds the first number that is too large. -/
theorem operandOutOfRange?_cases (s : Text) :
    (operandOutOfRange? (tokenize s) = none ∧ Nowhere IsTooLarge s) ∨
    ∃ before digits behind, IsFirst IsTooLarge s before digits behind ∧
      operandOutOfRange? (tokenize s) =
        some (.operandOutOfRange digits (Text.byteSize before)) := by
  have hp : ∀ front token back, tokenize s = front ++ token :: back →
      (isOutOfRange token ↔
        IsTooLarge (Token.spelling front) token.lexeme (Token.spelling back)) := by
    intro front token back h
    have hm : token ∈ tokenize s := by simp [h]
    have hwritten := (written_of_tokenize_eq h).2.1.2
    rw [isOutOfRange]
    cases hk : token.kind with
    | integer value =>
      have hlexemes : s.lexemes =
          front.map Token.lexeme ++ token.lexeme :: back.map Token.lexeme := by
        rw [← map_lexeme_tokenize, h, List.map_append, List.map_cons]
      rw [hk] at hwritten
      have hwhole := isWholeNumber_of_lexemes hlexemes hwritten
      have hnonneg : 0 ≤ value := by
        rw [Int64.le_iff_toInt_le, Int64.toInt_zero]
        exact toInt_nonneg_of_mem_tokenize hm hk
      rw [IsTooLarge, Token.spelling, Token.spelling, and_iff_right hwhole, ← Nat.not_le,
        ← le_maxOperand_iff_of_mem_tokenize hm hk]
      simp [hnonneg]
    | operator | leftParen | rightParen | invalid =>
      refine iff_of_false Bool.false_ne_true ?_
      rintro ⟨hwhole, -⟩
      rcases hwritten.digits_or_char with ⟨hinteger, -⟩ | ⟨c, hc, hdigit, -⟩
      · rw [hk] at hinteger
        cases hinteger
      · rw [hwhole.isDigit c (by simp [hc])] at hdigit
        cases hdigit
  have hcut : ∀ before piece behind, IsTooLarge before piece behind →
      (before ++ piece ++ behind).lexemes = before.lexemes ++ piece :: behind.lexemes := by
    rintro before piece behind ⟨hwhole, -⟩
    refine Text.lexemes_cut hwhole.ne_nil (.inl hwhole.isDigit) (fun c hc d _ => ?_)
      (fun c _ d hd => ?_)
    · rw [hwhole.before c hc, Bool.false_and]
    · rw [hwhole.behind d hd, Bool.and_false]
  rw [operandOutOfRange?_eq_search]
  rcases search_tokenize_cases hp hcut with hnone | ⟨front, token, back, h, -, hfirst, hsome⟩
  · exact .inl hnone
  · refine .inr ⟨_, _, _, hfirst, ?_⟩
    rw [hsome, (Token.column_offset_of_place_eq_append h).2, Nat.zero_add]

end Validation

/-! ### The verdict -/

/-- Validation reaches a verdict. -/
theorem isVerdict_validate (s : Text) : IsVerdict s (validate s) := by
  rw [validate]
  rcases Validation.illegalCharacter?_cases s with
    ⟨hnone, hillegal⟩ | ⟨before, c, behind, hfirst, hsome⟩
  · rw [hnone]
    rcases Validation.signedOperand?_cases s with
      ⟨hnone, hsigned⟩ | ⟨before, sign, behind, hfirst, hsome⟩
    · rw [hnone]
      rcases Validation.operandOutOfRange?_cases s with
        ⟨hnone, hlarge⟩ | ⟨before, digits, behind, hfirst, hsome⟩
      · rw [hnone]
        exact .ok hillegal hsigned hlarge
      · rw [hsome]
        exact .tooLarge hillegal hsigned hfirst
    · rw [hsome]
      exact .signed hillegal hfirst
  · rw [hsome]
    exact .illegal hfirst

/-- There is one verdict on a text. -/
theorem IsVerdict.unique {r r' : Except ValidationError Unit} (h : IsVerdict s r)
    (h' : IsVerdict s r') : r = r' := by
  cases h with
  | illegal hfirst =>
    cases h' with
    | illegal hfirst' =>
      obtain ⟨rfl, rfl⟩ := hfirst.singleton_eq hfirst'
      rfl
    | signed hillegal | tooLarge hillegal | ok hillegal => exact absurd hillegal hfirst.not_nowhere
  | signed hillegal hfirst =>
    cases h' with
    | illegal hfirst' => exact absurd hillegal hfirst'.not_nowhere
    | signed _ hfirst' =>
      obtain ⟨rfl, rfl⟩ := hfirst.singleton_eq hfirst'
      rfl
    | tooLarge _ hsigned | ok _ hsigned => exact absurd hsigned hfirst.not_nowhere
  | tooLarge hillegal hsigned hfirst =>
    cases h' with
    | illegal hfirst' => exact absurd hillegal hfirst'.not_nowhere
    | signed _ hfirst' => exact absurd hsigned hfirst'.not_nowhere
    | tooLarge _ _ hfirst' =>
      obtain ⟨rfl, hrest⟩ := hfirst.before_eq hfirst'
      rw [hfirst.holds.1.eq hfirst'.holds.1 hrest]
    | ok _ _ hlarge => exact absurd hlarge hfirst.not_nowhere
  | ok hillegal hsigned hlarge =>
    cases h' with
    | illegal hfirst' => exact absurd hillegal hfirst'.not_nowhere
    | signed _ hfirst' => exact absurd hsigned hfirst'.not_nowhere
    | tooLarge _ _ hfirst' => exact absurd hlarge hfirst'.not_nowhere
    | ok => rfl

/-- **Validation decides what the characters of a text say**, of any text. -/
theorem validate_eq_iff (s : Text) (r : Except ValidationError Unit) :
    validate s = r ↔ IsVerdict s r := by
  constructor
  · rintro rfl
    exact isVerdict_validate s
  · exact fun h => (isVerdict_validate s).unique h

/-- Leading zeros are digits of a number, and do not make it large. -/
example : validate "1+(0000000000002147483647)".toList = .ok () ∧
    validate "1+(0000000000002147483648)".toList =
      .error (.operandOutOfRange "0000000000002147483648".toList 3) := ⟨rfl, rfl⟩

end Abacus
