import Abacus.Json.Reader
import Abacus.Json.Writer
import Mathlib.Data.List.Basic

/-!
# JSON that is written is read back

Reading the text of a value gives the value back (`ofText?_text`), if its numbers and its strings are
ones that can be written at all (`IsWellFormed`).

The text of a value is its tokens with blanks between them. Nothing needs to be said about the blanks,
but a word ends only where something follows that does not belong to it, so what is said of the
tokens of a text is said of the text with a rest that begins with no letter (`lex_render`). The tokens
are then walked through with the same bookkeeping as the reader has: after those of a value, the value
waits for a separator, and what was open before is still open (`walk_tokens`).
-/

namespace Abacus

namespace JsonNumber

/-! ### Numbers -/

/-- A number that has a text: digits that are digits, without a leading zero that could be left out,
and some of them after a point. -/
structure IsWellFormed (n : JsonNumber) : Prop where
  isWhole : isWhole n.whole
  whole : ∀ c ∈ n.whole, c.isDigit
  fraction : ∀ places, n.fraction = some places → places ≠ [] ∧ ∀ c ∈ places, c.isDigit

/-- Digits are read up to where no digit follows. -/
theorem digitsOf_append {digits rest : Text} (hd : ∀ c ∈ digits, c.isDigit)
    (hr : ∀ c, rest.head? = some c → c.isDigit = false) :
    digitsOf (digits ++ rest) = (digits, rest) := by
  have hrest : rest.takeWhile Char.isDigit = [] ∧ rest.dropWhile Char.isDigit = rest := by
    cases rest with
    | nil => exact ⟨rfl, rfl⟩
    | cons c rest => simp [hr c rfl]
  rw [digitsOf, List.takeWhile_append_of_pos hd, List.dropWhile_append_of_pos hd, hrest.1, hrest.2,
    List.append_nil]

theorem digitsOf_digits {digits : Text} (hd : ∀ c ∈ digits, c.isDigit) :
    digitsOf digits = (digits, []) := by
  simpa using @digitsOf_append digits [] hd (by simp)

theorem magnitude?_ofNat (n : Nat) : magnitude? (Text.ofNat n) = some (n : Int) := by
  have hne : Text.ofNat n ≠ [] := Nat.toDigits_ne_nil
  simp [magnitude?, digitsOf_digits fun c hc => Text.isDigit_of_mem_ofNat hc, hne]

/-- The part of a number from its exponent on. -/
def exponentText : Option Int → Text
  | none => []
  | some e => 'e' :: (if 0 ≤ e then '+' :: Text.ofInt e else Text.ofInt e)

/-- The part of a number from its point up to its exponent. -/
def fractionText : Option Text → Text
  | none => []
  | some places => '.' :: places

theorem text_eq (n : JsonNumber) : n.text = (if n.negative then ['-'] else []) ++ n.whole ++
    fractionText n.fraction ++ exponentText n.exponent := by
  rw [text]
  cases n.fraction <;> cases n.exponent <;> rfl

theorem exponent?_exponentText (exponent : Option Int) :
    exponent? (exponentText exponent) = some exponent := by
  cases exponent with
  | none => rfl
  | some e =>
    by_cases he : 0 ≤ e
    · obtain ⟨n, rfl⟩ := Int.eq_ofNat_of_zero_le he
      have hneg : ¬(n : Int) < 0 := by omega
      simp [exponentText, exponent?, Text.ofInt, hneg, magnitude?_ofNat]
    · have hneg : e < 0 := by omega
      have habs : -(e.natAbs : Int) = e := by omega
      have hread : ∀ m, exponent? ('e' :: '-' :: Text.ofNat m) = some (some (-(m : Int))) := by
        intro m
        simp [exponent?, magnitude?_ofNat]
      rw [exponentText, if_neg he, Text.ofInt, if_pos hneg, hread, habs]

theorem head?_exponentText {exponent : Option Int} {c : Char}
    (h : (exponentText exponent).head? = some c) : c = 'e' := by
  cases exponent with
  | none => cases h
  | some e => exact (Option.some.inj h).symm

theorem fraction?_fractionText {fraction : Option Text}
    (hf : ∀ places, fraction = some places → places ≠ [] ∧ ∀ c ∈ places, c.isDigit)
    (exponent : Option Int) :
    fraction? (fractionText fraction ++ exponentText exponent) =
      some (fraction, exponentText exponent) := by
  cases fraction with
  | none =>
    cases exponent with
    | none => rfl
    | some e => rfl
  | some places =>
    obtain ⟨hne, hdigits⟩ := hf places rfl
    have hsplit : digitsOf (places ++ exponentText exponent) = (places, exponentText exponent) :=
      digitsOf_append hdigits fun c hc => by rw [head?_exponentText hc]; rfl
    simp [fractionText, fraction?, hsplit, hne]

/-- A number is read back from its text. -/
theorem ofText?_text {n : JsonNumber} (h : n.IsWellFormed) : ofText? n.text = some n := by
  obtain ⟨negative, whole, fraction, exponent⟩ := n
  have hfraction := fraction?_fractionText h.fraction exponent
  have hwhole : digitsOf (whole ++ (fractionText fraction ++ exponentText exponent)) =
      (whole, fractionText fraction ++ exponentText exponent) := by
    refine digitsOf_append h.whole fun c hc => ?_
    cases fraction with
    | none => rw [head?_exponentText hc]; rfl
    | some places => rw [← Option.some.inj hc]; rfl
  have hisWhole : isWhole whole := h.isWhole
  rw [text_eq]
  cases negative with
  | true => simp [ofText?, hwhole, hisWhole, hfraction, exponent?_exponentText]
  | false =>
    have hne : whole ≠ [] := by
      rintro rfl
      exact absurd hisWhole (by decide)
    obtain ⟨c, rest, rfl⟩ := List.exists_cons_of_ne_nil hne
    have hc : c ≠ '-' := by
      rintro rfl
      exact absurd (h.whole _ (List.mem_cons_self ..)) (by decide)
    rw [List.cons_append] at hwhole
    simp [ofText?, hc, hwhole, hisWhole, hfraction, exponent?_exponentText]

theorem isWordChar_of_isDigit {c : Char} (h : c.isDigit) : JsonToken.isWordChar c := by
  simp [JsonToken.isWordChar, Char.isAlphanum, h]

theorem isWordChar_of_mem_ofInt {n : Int} {c : Char} (h : c ∈ Text.ofInt n) :
    JsonToken.isWordChar c := by
  rw [Text.ofInt] at h
  split at h
  · rcases List.mem_cons.mp h with rfl | h
    · decide
    · exact isWordChar_of_isDigit (Text.isDigit_of_mem_ofNat h)
  · exact isWordChar_of_isDigit (Text.isDigit_of_mem_ofNat h)

theorem isWordChar_of_mem_text {n : JsonNumber} (h : n.IsWellFormed) {c : Char} (hc : c ∈ n.text) :
    JsonToken.isWordChar c := by
  rw [text_eq, List.mem_append, List.mem_append, List.mem_append] at hc
  rcases hc with ((hc | hc) | hc) | hc
  · cases hn : n.negative with
    | true => rw [hn] at hc; rw [List.mem_singleton.mp hc]; decide
    | false => rw [hn] at hc; cases hc
  · exact isWordChar_of_isDigit (h.whole c hc)
  · cases hf : n.fraction with
    | none => rw [hf] at hc; cases hc
    | some places =>
      rw [hf] at hc
      rcases List.mem_cons.mp hc with rfl | hc
      · decide
      · exact isWordChar_of_isDigit ((h.fraction places hf).2 c hc)
  · cases he : n.exponent with
    | none => rw [he] at hc; cases hc
    | some e =>
      rw [he, exponentText] at hc
      rcases List.mem_cons.mp hc with rfl | hc
      · decide
      · split at hc
        · rcases List.mem_cons.mp hc with rfl | hc
          · decide
          · exact isWordChar_of_mem_ofInt hc
        · exact isWordChar_of_mem_ofInt hc

/-- A number begins with a sign or a digit, so it is none of the three names. -/
theorem head?_text {n : JsonNumber} (h : n.IsWellFormed) :
    ∃ c, n.text.head? = some c ∧ (c = '-' ∨ c.isDigit) := by
  rw [text_eq]
  cases n.negative with
  | true => exact ⟨'-', rfl, .inl rfl⟩
  | false =>
    cases hwhole : n.whole with
    | nil => exact absurd (hwhole ▸ h.isWhole) (by decide)
    | cons c rest => exact ⟨c, rfl, .inr (h.whole c (by rw [hwhole]; exact List.mem_cons_self ..))⟩

end JsonNumber

/-! ### Tokens -/

namespace JsonToken

/-- What is read in the end, where the walk over the characters stops. -/
def finish? : List JsonToken × Place → Option (List JsonToken)
  | (read, .between) => some read.reverse
  | (read, .inWord letters) => some (word letters.reverse :: read).reverse
  | _ => none

/-- The tokens that are read when a text follows. -/
def lex (read : List JsonToken) (s : Text) : Option (List JsonToken) :=
  (s.foldlM step (read, .between)).bind finish?

theorem ofText?_eq_lex (s : Text) : ofText? s = lex [] s := by
  rw [ofText?, lex]
  cases s.foldlM step ([], .between) with
  | none => rfl
  | some state =>
    obtain ⟨read, place⟩ := state
    cases place <;> rfl

/-- No character that could be part of a word comes next. -/
def EndsWord (rest : Text) : Prop := ∀ c, rest.head? = some c → isWordChar c = false

theorem endsWord_nil : EndsWord [] := fun _ h => nomatch h

theorem endsWord_cons {c : Char} (h : isWordChar c = false) (rest : Text) :
    EndsWord (c :: rest) := by
  intro c' hc
  rw [← Option.some.inj hc, h]

variable {read : List JsonToken} {rest : Text}

theorem lex_nil : lex read [] = some read.reverse := rfl

theorem lex_blank {c : Char} (h : isBlank c) : lex read (c :: rest) = lex read rest := by
  simp [lex, step, stepBetween, h]

theorem lex_ofChar? {c : Char} {token : JsonToken} (h : ofChar? c = some token) :
    lex read (c :: rest) = lex (token :: read) rest := by
  unfold ofChar? at h
  split at h <;> cases h <;> rfl

theorem lex_newLine (depth : Nat) : lex read (Json.newLine depth ++ rest) = lex read rest := by
  have hblanks : ∀ n, lex read (List.replicate n ' ' ++ rest) = lex read rest := by
    intro n
    induction n with
    | zero => rfl
    | succ n ih => rw [List.replicate_succ, List.cons_append, lex_blank (by decide), ih]
  rw [Json.newLine, List.cons_append, lex_blank (by decide), hblanks]

theorem isBlank_of_isWordChar {c : Char} (h : isWordChar c) : isBlank c = false := by
  by_contra hblank
  simp only [isBlank, Bool.not_eq_false, Bool.or_eq_true, decide_eq_true_eq] at hblank
  rcases hblank with ((rfl | rfl) | rfl) | rfl <;> exact absurd h (by decide)

/-- A word is read up to where it ends. -/
theorem lex_word {letters : Text} (hl : ∀ c ∈ letters, isWordChar c) (hne : letters ≠ [])
    (hr : EndsWord rest) : lex read (letters ++ rest) = lex (word letters :: read) rest := by
  have hinside : ∀ (letters acc : Text), (∀ c ∈ letters, isWordChar c) →
      letters.foldlM step (read, .inWord acc) = some (read, .inWord (letters.reverse ++ acc)) := by
    intro letters
    induction letters with
    | nil => exact fun _ _ => rfl
    | cons c letters ih =>
      intro acc h
      rw [List.forall_mem_cons] at h
      simp [step, h.1, ih _ h.2]
  obtain ⟨c, letters, rfl⟩ := List.exists_cons_of_ne_nil hne
  rw [List.forall_mem_cons] at hl
  have hfirst : step (read, .between) c = some (read, .inWord [c]) := by
    simp [step, stepBetween, isBlank_of_isWordChar hl.1, hl.1]
  rw [lex, List.cons_append, List.foldlM_cons, hfirst]
  simp only [Option.bind_eq_bind, Option.bind_some, List.foldlM_append, hinside _ _ hl.2]
  cases rest with
  | nil => simp [finish?, lex]
  | cons c' rest => simp [lex, step, hr c' rfl]

/-- Characters that end no string and begin no escape are collected. -/
theorem step_inString {c : Char} (hquote : c ≠ '"') (hbackslash : c ≠ '\\') (acc : Text) :
    step (read, .inString acc) c = some (read, .inString (c :: acc)) := by
  simp [step, hquote, hbackslash]

theorem step_hexDigit {c : Char} {v : Nat} (h : Escape.hexDigit? c = some v) (acc : Text) :
    step (read, .inString acc) c = some (read, .inString (c :: acc)) := by
  refine step_inString ?_ ?_ acc
  · rintro rfl
    cases h
  · rintro rfl
    cases h

/-- A backslash is collected with the character after it, whatever that is. -/
theorem foldlM_step_escape (c : Char) (rest acc : Text) :
    ('\\' :: c :: rest).foldlM step (read, .inString acc) =
      rest.foldlM step (read, .inString (c :: '\\' :: acc)) := rfl

/-- The characters of a string that is well escaped are walked through without leaving it. -/
theorem foldlM_step_raw {raw : Text} (h : Escape.isWellEscaped raw) (acc : Text) :
    raw.foldlM step (read, .inString acc) = some (read, .inString (raw.reverse ++ acc)) := by
  rw [Escape.isWellEscaped] at h
  fun_induction Escape.pieces? raw generalizing acc with
  | case1 => rfl
  | case2 a b c d rest ih =>
    cases hcode : Escape.hexCode? a b c d with
    | none => simp [hcode] at h
    | some code =>
      cases hrest : Escape.pieces? rest with
      | none => simp [hcode, hrest] at h
      | some pieces =>
        -- all four of them are digits
        simp only [Escape.hexCode?, Option.bind_eq_bind, Option.bind_eq_some_iff] at hcode
        obtain ⟨_, ha, _, hb, _, hc, _, hd, _⟩ := hcode
        rw [foldlM_step_escape]
        simp only [List.foldlM_cons, Option.bind_eq_bind, Option.bind_some, step_hexDigit ha,
          step_hexDigit hb, step_hexDigit hc, step_hexDigit hd, ih (Option.isSome_of_eq_some hrest)]
        simp
  | case3 c rest _ ih =>
    cases hrest : Escape.pieces? rest with
    | none => simp [hrest] at h
    | some pieces =>
      rw [foldlM_step_escape, ih (Option.isSome_of_eq_some hrest)]
      simp
  | case4 => cases h
  | case5 c rest _ _ hc ih =>
    cases hrest : Escape.pieces? rest with
    | none => simp [hrest] at h
    | some pieces =>
      simp only [Bool.or_eq_true, decide_eq_true_eq, not_or] at hc
      rw [List.foldlM_cons, step_inString hc.1.2 hc.1.1, Option.bind_eq_bind, Option.bind_some,
        ih (Option.isSome_of_eq_some hrest)]
      simp

theorem lex_string {raw : Text} (h : Escape.isWellEscaped raw) :
    lex read ('"' :: raw ++ '"' :: rest) = lex (string raw :: read) rest := by
  have hopen : step (read, .between) '"' = some (read, .inString []) := rfl
  have hclose : step (read, .inString (raw.reverse ++ [])) '"' =
      some (string raw :: read, .between) := by
    simp [step, h]
  simp only [lex, List.cons_append, List.foldlM_cons, List.foldlM_append, Option.bind_eq_bind,
    Option.bind_some, hopen, foldlM_step_raw h, hclose]

end JsonToken

namespace Json

/-! ### Values -/

/-- A value that has a text: its numbers and strings have one. -/
inductive IsWellFormed : Json → Prop where
  | null : IsWellFormed null
  | bool (value : Bool) : IsWellFormed (bool value)
  | number {n : JsonNumber} : n.IsWellFormed → IsWellFormed (number n)
  | string {raw : Text} : Escape.isWellEscaped raw → IsWellFormed (string raw)
  | array {items : List Json} : (∀ item ∈ items, IsWellFormed item) → IsWellFormed (array items)
  | object {members : List (Text × Json)} :
      (∀ member ∈ members, Escape.isWellEscaped member.1) →
      (∀ member ∈ members, IsWellFormed member.2) → IsWellFormed (object members)

open JsonToken

mutual

/-- The tokens of a value. -/
def tokens : Json → List JsonToken
  | null => [word "null".toList]
  | bool true => [word "true".toList]
  | bool false => [word "false".toList]
  | number n => [word n.text]
  | string raw => [.string raw]
  | array [] => [openArray, closeArray]
  | array (item :: items) => openArray :: (item.tokens ++ (itemTokens items ++ [closeArray]))
  | object [] => [openObject, closeObject]
  | object ((key, value) :: members) =>
    openObject :: .string key :: colon :: (value.tokens ++ (memberTokens members ++ [closeObject]))

/-- The tokens of the items after the first one. -/
def itemTokens : List Json → List JsonToken
  | [] => []
  | item :: items => comma :: (item.tokens ++ itemTokens items)

/-- The tokens of the members after the first one. -/
def memberTokens : List (Text × Json) → List JsonToken
  | [] => []
  | (key, value) :: members =>
    comma :: .string key :: colon :: (value.tokens ++ memberTokens members)

end

/-! ### From text to tokens -/

/-- A value is written as its tokens. -/
def LexesRight (json : Json) : Prop :=
  ∀ depth read rest, EndsWord rest →
    lex read (json.render depth ++ rest) = lex (json.tokens.reverse ++ read) rest

theorem endsWord_newLine (depth : Nat) (rest : Text) : EndsWord (newLine depth ++ rest) :=
  endsWord_cons (by decide) _

theorem endsWord_renderItems (depth : Nat) (items : List Json) {rest : Text} (h : EndsWord rest) :
    EndsWord (renderItems depth items ++ rest) := by
  cases items with
  | nil => exact h
  | cons item items => rw [renderItems]; exact endsWord_cons (by decide) _

theorem endsWord_renderMembers (depth : Nat) (members : List (Text × Json)) {rest : Text}
    (h : EndsWord rest) : EndsWord (renderMembers depth members ++ rest) := by
  cases members with
  | nil => exact h
  | cons member members =>
    obtain ⟨key, value⟩ := member
    rw [renderMembers]
    exact endsWord_cons (by decide) _

/-- A key with the colon and the blank behind it. -/
theorem lex_key {key : Text} (h : Escape.isWellEscaped key) (read : List JsonToken) (rest : Text) :
    lex read ('"' :: key ++ "\": ".toList ++ rest) = lex (colon :: .string key :: read) rest := by
  have hcolon : lex (.string key :: read) (':' :: ' ' :: rest) =
      lex (colon :: .string key :: read) rest := by
    rw [@lex_ofChar? _ _ ':' colon rfl, lex_blank (by decide)]
  rw [← hcolon, ← lex_string h]
  simp

theorem lex_renderItems {items : List Json} (h : ∀ item ∈ items, item.LexesRight)
    (depth : Nat) (read : List JsonToken) {rest : Text} (hr : EndsWord rest) :
    lex read (renderItems depth items ++ rest) = lex ((itemTokens items).reverse ++ read) rest := by
  induction items generalizing read with
  | nil => rfl
  | cons item items ih =>
    rw [List.forall_mem_cons] at h
    simp only [renderItems, List.cons_append, List.append_assoc]
    rw [@lex_ofChar? _ _ ',' comma rfl, lex_newLine,
      h.1 depth _ _ (endsWord_renderItems depth items hr), ih h.2]
    simp [itemTokens]

theorem lex_renderMembers {members : List (Text × Json)}
    (hk : ∀ member ∈ members, Escape.isWellEscaped member.1)
    (h : ∀ member ∈ members, member.2.LexesRight) (depth : Nat) (read : List JsonToken) {rest : Text}
    (hr : EndsWord rest) : lex read (renderMembers depth members ++ rest) =
      lex ((memberTokens members).reverse ++ read) rest := by
  induction members generalizing read with
  | nil => rfl
  | cons member members ih =>
    obtain ⟨key, value⟩ := member
    rw [List.forall_mem_cons] at hk h
    have hkey := lex_key hk.1 (comma :: read)
      (value.render depth ++ (renderMembers depth members ++ rest))
    simp only [List.cons_append, List.append_assoc] at hkey
    simp only [renderMembers, List.cons_append, List.append_assoc]
    rw [@lex_ofChar? _ _ ',' comma rfl, lex_newLine, hkey,
      h.1 depth _ _ (endsWord_renderMembers depth members hr), ih hk.2 h.2]
    simp [memberTokens]

/-- **The tokens of a text**: those of the value that it is the text of. -/
theorem lex_render {json : Json} (h : json.IsWellFormed) : json.LexesRight := by
  have hname : ∀ {letters : Text}, letters.all isWordChar → letters ≠ [] →
      ∀ read rest, EndsWord rest →
        lex read (letters ++ rest) = lex ([word letters].reverse ++ read) rest :=
    fun hl hne _ _ hr => lex_word (List.all_eq_true.mp hl) hne hr
  induction h with
  | null => exact fun _ => @hname "null".toList (by decide) (by decide)
  | bool value =>
    cases value with
    | true => exact fun _ => @hname "true".toList (by decide) (by decide)
    | false => exact fun _ => @hname "false".toList (by decide) (by decide)
  | @number n hn =>
    obtain ⟨c, hc, -⟩ := JsonNumber.head?_text hn
    have hne : n.text ≠ [] := by
      rintro hnil
      rw [hnil] at hc
      cases hc
    exact fun _ => hname (List.all_eq_true.mpr fun _ => JsonNumber.isWordChar_of_mem_text hn) hne
  | @string raw hraw =>
    intro depth read rest hr
    have hlex := @lex_string read rest raw hraw
    simpa [render, tokens] using hlex
  | @array items _ ih =>
    intro depth read rest hr
    cases items with
    | nil => rfl
    | cons item items =>
      rw [List.forall_mem_cons] at ih
      have hend : EndsWord (newLine depth ++ (']' :: rest)) := endsWord_newLine _ _
      simp only [render, List.cons_append, List.append_assoc, List.nil_append]
      rw [@lex_ofChar? _ _ '[' openArray rfl, lex_newLine,
        ih.1 _ _ _ (endsWord_renderItems _ items hend), lex_renderItems ih.2 _ _ hend, lex_newLine,
        @lex_ofChar? _ _ ']' closeArray rfl]
      simp [tokens]
  | @object members hk _ ih =>
    intro depth read rest hr
    cases members with
    | nil => rfl
    | cons member members =>
      obtain ⟨key, value⟩ := member
      rw [List.forall_mem_cons] at hk ih
      have hend : EndsWord (newLine depth ++ ('\x7d' :: rest)) := endsWord_newLine _ _
      have hkey := lex_key hk.1 (openObject :: read) (value.render (depth + 1) ++
        (renderMembers (depth + 1) members ++ (newLine depth ++ '\x7d' :: rest)))
      simp only [List.cons_append, List.append_assoc] at hkey
      simp only [render, List.cons_append, List.append_assoc, List.nil_append]
      rw [@lex_ofChar? _ _ '\x7b' openObject rfl, lex_newLine, hkey,
        ih.1 _ _ _ (endsWord_renderMembers _ members hend), lex_renderMembers hk.2 ih.2 _ _ hend,
        lex_newLine, @lex_ofChar? _ _ '\x7d' closeObject rfl]
      simp [tokens]

/-! ### From tokens to values -/

/-- After the tokens of a value, this value waits for a separator. -/
def WalksRight (json : Json) : Prop :=
  ∀ stack rest, (json.tokens ++ rest).foldlM step (stack, .value) =
    rest.foldlM step (stack, .separator json)

/-- A number is no name. -/
theorem ofWord?_text {n : JsonNumber} (h : n.IsWellFormed) : ofWord? n.text = some (number n) := by
  obtain ⟨c, hc, hfirst⟩ := JsonNumber.head?_text h
  have hname : ∀ name : Text, name.head?.all (fun c => c ≠ '-' && !c.isDigit) → name ≠ [] →
      n.text ≠ name := by
    rintro name hname hne rfl
    rw [hc, Option.all_some] at hname
    rcases hfirst with rfl | hdigit
    · cases hname
    · simp [hdigit] at hname
  rw [ofWord?, if_neg (hname _ (by decide) (by decide)), if_neg (hname _ (by decide) (by decide)),
    if_neg (hname _ (by decide) (by decide)), JsonNumber.ofText?_text h, Option.map_some]

/-- No value begins with the end of an array. -/
theorem exists_tokens_eq_cons (json : Json) :
    ∃ token more, json.tokens = token :: more ∧ token ≠ closeArray := by
  cases json with
  | null | number | string => exact ⟨_, _, rfl, by simp⟩
  | bool value => cases value <;> exact ⟨_, _, rfl, by simp⟩
  | array items => cases items <;> exact ⟨_, _, rfl, by simp⟩
  | object members => cases members <;> exact ⟨_, _, rfl, by simp⟩

variable {stack : List Frame} {rest : List JsonToken}

/-- The first item of an array is read like the others. -/
theorem foldlM_firstItem (item : Json) (rest : List JsonToken) :
    (item.tokens ++ rest).foldlM step (stack, .firstItem) =
      (item.tokens ++ rest).foldlM step (.array [] :: stack, .value) := by
  obtain ⟨token, more, htokens, hne⟩ := exists_tokens_eq_cons item
  rw [htokens, List.cons_append, List.foldlM_cons, List.foldlM_cons]
  simp [step, hne]

theorem foldlM_itemTokens {items : List Json} (h : ∀ item ∈ items, item.WalksRight)
    (acc : List Json) (value : Json) :
    (itemTokens items ++ closeArray :: rest).foldlM step (.array acc :: stack, .separator value) =
      rest.foldlM step (stack, .separator (array ((value :: acc).reverse ++ items))) := by
  induction items generalizing acc value with
  | nil => simp [itemTokens, step, stepSeparator]
  | cons item items ih =>
    rw [List.forall_mem_cons] at h
    have hcomma : step (.array acc :: stack, .separator value) comma =
      some (.array (value :: acc) :: stack, .value) := rfl
    simp only [itemTokens, List.cons_append, List.append_assoc, List.foldlM_cons, hcomma,
      Option.bind_eq_bind, Option.bind_some]
    rw [h.1, ih h.2]
    simp

theorem foldlM_memberTokens {members : List (Text × Json)}
    (h : ∀ member ∈ members, member.2.WalksRight) (acc : List (Text × Json)) (key : Text)
    (value : Json) :
    (memberTokens members ++ closeObject :: rest).foldlM step
        (.object acc key :: stack, .separator value) =
      rest.foldlM step (stack, .separator (object (((key, value) :: acc).reverse ++ members))) := by
  induction members generalizing acc key value with
  | nil => simp [memberTokens, step, stepSeparator]
  | cons member members ih =>
    obtain ⟨key', value'⟩ := member
    rw [List.forall_mem_cons] at h
    have hcomma : step (.object acc key :: stack, .separator value) comma =
      some (stack, .key ((key, value) :: acc)) := rfl
    have hkey : step (stack, .key ((key, value) :: acc)) (.string key') =
      some (stack, .colon ((key, value) :: acc) key') := rfl
    have hcolon : step (stack, .colon ((key, value) :: acc) key') colon =
      some (.object ((key, value) :: acc) key' :: stack, .value) := rfl
    simp only [memberTokens, List.cons_append, List.append_assoc, List.foldlM_cons, hcomma, hkey,
      hcolon, Option.bind_eq_bind, Option.bind_some]
    rw [h.1, ih h.2]
    simp

/-- **The value of tokens**: the one that they are the tokens of. -/
theorem walk_tokens {json : Json} (h : json.IsWellFormed) : json.WalksRight := by
  induction h with
  | null => exact fun _ _ => rfl
  | bool value => cases value <;> exact fun _ _ => rfl
  | @number n hn =>
    intro stack rest
    have hword : step (stack, .value) (word n.text) = some (stack, .separator (number n)) := by
      simp [step, stepValue, ofWord?_text hn]
    simp [tokens, hword]
  | string _ => exact fun _ _ => rfl
  | @array items _ ih =>
    intro stack rest
    cases items with
    | nil => rfl
    | cons item items =>
      rw [List.forall_mem_cons] at ih
      have hopen : step (stack, .value) openArray = some (stack, .firstItem) := rfl
      simp only [tokens, List.cons_append, List.append_assoc, List.foldlM_cons, hopen,
        Option.bind_eq_bind, Option.bind_some, List.nil_append]
      rw [foldlM_firstItem, ih.1, foldlM_itemTokens ih.2]
      rfl
  | @object members _ _ ih =>
    intro stack rest
    cases members with
    | nil => rfl
    | cons member members =>
      obtain ⟨key, value⟩ := member
      rw [List.forall_mem_cons] at ih
      have hopen : step (stack, .value) openObject = some (stack, .firstKey) := rfl
      have hkey : step (stack, .firstKey) (.string key) = some (stack, .colon [] key) := rfl
      have hcolon : step (stack, .colon [] key) colon = some (.object [] key :: stack, .value) := rfl
      simp only [tokens, List.cons_append, List.append_assoc, List.foldlM_cons, hopen, hkey, hcolon,
        Option.bind_eq_bind, Option.bind_some, List.nil_append]
      rw [ih.1, foldlM_memberTokens ih.2]
      rfl

/-- **A value is read back from its text.** -/
theorem ofText?_text {json : Json} (h : json.IsWellFormed) : ofText? json.text = some json := by
  have hlex := lex_render h 0 [] [] endsWord_nil
  rw [List.append_nil, List.append_nil, lex_nil, List.reverse_reverse] at hlex
  have hwalk := walk_tokens h [] []
  rw [List.append_nil, List.foldlM_nil] at hwalk
  rw [ofText?, text, ofText?_eq_lex, hlex, Option.bind_some, ofTokens?, hwalk]
  rfl

end Json

end Abacus
