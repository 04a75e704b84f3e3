import Abacus.Text.Cluster

/-!
# Text as it was typed

A text that comes from a keyboard or in place of one may hold backspaces. Each of them erases
the last cluster that is left before it, and itself; where nothing is left it erases nothing.
A text without backspaces stays as it is.
-/

namespace Abacus

namespace Text

/-- The character that erases. -/
def backspace : Char := '\x08'

/-- What stands on a line after some keys: its text, backwards, and the sizes of its clusters
in bytes, the last one first. -/
structure Typed where
  backwards : Text
  sizes : List Nat

/-- One more key. The size of a cluster is kept in a byte, so that of a cluster of 256 bytes
and more only what is left over 256 can be erased; where that ends inside a character, nothing
is. -/
def Typed.press (line : Typed) (key : Text) : Typed :=
  if key = [backspace] then
    match line.sizes with
    | [] => line
    | size :: sizes => ⟨(dropBytes? size line.backwards).getD line.backwards, sizes⟩
  else ⟨key.reverse ++ line.backwards, byteSize key % 256 :: line.sizes⟩

/-- What is left of a text when its backspaces have done their work. -/
def typed (s : Text) : Text := ((clusters s).foldl Typed.press ⟨[], []⟩).backwards.reverse

theorem backwards_foldl_press {keys : List Text} (h : [backspace] ∉ keys) (line : Typed) :
    (keys.foldl Typed.press line).backwards = keys.flatten.reverse ++ line.backwards := by
  induction keys generalizing line with
  | nil => simp
  | cons key keys ih =>
    obtain ⟨hkey, hkeys⟩ := not_or.1 (mt List.mem_cons.2 h)
    simp [ih hkeys, Typed.press, Ne.symm hkey]

/-- Without a backspace a text is what was typed. -/
theorem typed_eq_self {s : Text} (h : backspace ∉ s) : typed s = s := by
  have hkeys : [backspace] ∉ clusters s := fun hmem => by
    refine h ?_
    rw [← flatten_clusters s]
    exact List.mem_flatten_of_mem hmem (by simp)
  simp [typed, backwards_foldl_press hkeys, flatten_clusters]

end Text

end Abacus
