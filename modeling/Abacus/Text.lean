/-!
# Text and byte offsets

A text is the list of its characters. Places in a text are counted in bytes of its
UTF-8 form, because that is how spans are written and reported; columns, which people
read, are counted in characters.

A cut at a byte offset exists only between two characters. The functions below answer
`none` for an offset that falls inside a character or past the end, so that a caller has
to say what it does then.
-/

namespace Abacus

/-- A text, as the list of its characters. -/
abbrev Text := List Char

namespace Text

/-- The number of bytes of the UTF-8 form of a text. -/
def byteSize : Text → Nat
  | [] => 0
  | c :: s => c.utf8Size + byteSize s

/-- What follows the first `n` bytes; `none` when they do not end between two characters. -/
def dropBytes? : Nat → Text → Option Text
  | 0, s => some s
  | _ + 1, [] => none
  | n + 1, c :: s => if c.utf8Size ≤ n + 1 then dropBytes? (n + 1 - c.utf8Size) s else none

/-- The first `n` bytes; `none` when they do not end between two characters. -/
def takeBytes? : Nat → Text → Option Text
  | 0, _ => some []
  | _ + 1, [] => none
  | n + 1, c :: s =>
    if c.utf8Size ≤ n + 1 then (takeBytes? (n + 1 - c.utf8Size) s).map (c :: ·) else none

/-- The bytes from offset `start` up to offset `stop`, when both fall between characters and
are in order. -/
def slice? (s : Text) (start stop : Nat) : Option Text :=
  if start ≤ stop then (dropBytes? start s).bind (takeBytes? (stop - start)) else none

/-- A natural number in decimal digits, without leading zeros. -/
def ofNat (n : Nat) : Text := Nat.toDigits 10 n

/-- An integer in decimal digits, a minus sign before a negative one. -/
def ofInt (n : Int) : Text := if n < 0 then '-' :: ofNat n.natAbs else ofNat n.natAbs

/-- The number that a run of decimal digits denotes. -/
def toNat (digits : Text) : Nat := Nat.ofDigitChars 10 digits 0

@[simp] theorem byteSize_nil : byteSize [] = 0 := rfl

@[simp] theorem byteSize_cons (c : Char) (s : Text) :
    byteSize (c :: s) = c.utf8Size + byteSize s := rfl

@[simp] theorem byteSize_append (s t : Text) : byteSize (s ++ t) = byteSize s + byteSize t := by
  induction s with
  | nil => simp
  | cons c s ih => simp [ih, Nat.add_assoc]

/-- A text without bytes is empty. -/
theorem byteSize_eq_zero_iff (s : Text) : byteSize s = 0 ↔ s = [] := by
  cases s with
  | nil => simp
  | cons c s => have := c.utf8Size_pos; simp; omega

/-- Dropping the bytes of a leading part leaves the rest. -/
theorem dropBytes?_append (s t : Text) : dropBytes? (byteSize s) (s ++ t) = some t := by
  induction s with
  | nil => simp [dropBytes?]
  | cons c s ih =>
    have hc := c.utf8Size_pos
    obtain ⟨n, hn⟩ : ∃ n, c.utf8Size + byteSize s = n + 1 := ⟨_, (Nat.sub_add_cancel (by omega)).symm⟩
    rw [List.cons_append, byteSize_cons, hn, dropBytes?, if_pos (by omega)]
    rw [show n + 1 - c.utf8Size = byteSize s by omega, ih]

/-- Taking the bytes of a leading part gives that part. -/
theorem takeBytes?_append (s t : Text) : takeBytes? (byteSize s) (s ++ t) = some s := by
  induction s with
  | nil => simp [takeBytes?]
  | cons c s ih =>
    have hc := c.utf8Size_pos
    obtain ⟨n, hn⟩ : ∃ n, c.utf8Size + byteSize s = n + 1 := ⟨_, (Nat.sub_add_cancel (by omega)).symm⟩
    rw [List.cons_append, byteSize_cons, hn, takeBytes?, if_pos (by omega)]
    rw [show n + 1 - c.utf8Size = byteSize s by omega, ih]
    rfl

/-- A part of a text is the slice between its own offsets. -/
theorem slice?_append (s t u : Text) :
    slice? (s ++ t ++ u) (byteSize s) (byteSize s + byteSize t) = some t := by
  simp [slice?, List.append_assoc, dropBytes?_append, takeBytes?_append]

/-- Reading the digits of a number gives the number. -/
@[simp] theorem toNat_ofNat (n : Nat) : toNat (ofNat n) = n :=
  Nat.ofDigitChars_toDigits (by decide) (by decide)

/-- A natural number is written in digits. -/
theorem isDigit_of_mem_ofNat {n : Nat} {c : Char} (h : c ∈ ofNat n) : c.isDigit :=
  Nat.isDigit_of_mem_toDigits (by decide) (by decide) h

end Text

end Abacus
