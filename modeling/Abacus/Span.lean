import Abacus.Text

/-!
# Spans

A span is a pair of byte offsets into a text. Nothing is asked of the pair: a span read
from a file may be reversed or lie outside every text, and every operation here is defined
on such spans too.
-/

namespace Abacus

/-- The bytes from offset `start` up to, and not including, offset `stop`. -/
structure Span where
  /-- The first byte. -/
  start : Nat
  /-- One past the last byte. -/
  stop : Nat
  deriving DecidableEq, Repr, Inhabited

namespace Span

/-- The smallest span that covers two spans. -/
def cover (a b : Span) : Span := ⟨min a.start b.start, max a.stop b.stop⟩

/-- The empty span at an offset. -/
def empty (offset : Nat) : Span := ⟨offset, offset⟩

/-- The part of `source` that a span covers; empty when the span is no part of it. -/
def slice (span : Span) (source : Text) : Text := (source.slice? span.start span.stop).getD []

@[simp] theorem cover_start (a b : Span) : (a.cover b).start = min a.start b.start := rfl

@[simp] theorem cover_stop (a b : Span) : (a.cover b).stop = max a.stop b.stop := rfl

theorem cover_assoc (a b c : Span) : (a.cover b).cover c = a.cover (b.cover c) := by
  simp [cover, Nat.min_assoc, Nat.max_assoc]

@[simp] theorem cover_self (a : Span) : a.cover a = a := by
  simp [cover]

end Span

end Abacus
