/-!
# Ranges of code points

A property of characters is kept as the runs of code points that have it, each with its first
and last member, in ascending order. Because of the order a search can stop at the first run
that begins past the code point it looks for.
-/

namespace Abacus

namespace Text

/-- Whether a code point lies in one of the runs, which stand in ascending order. -/
def inRanges (code : Nat) : List (Nat × Nat) → Bool
  | [] => false
  | (first, last) :: rest => first ≤ code && (code ≤ last || inRanges code rest)

/-- In runs in ascending order the search misses none. -/
theorem inRanges_iff {code : Nat} {ranges : List (Nat × Nat)}
    (h : ranges.Pairwise fun r s => r.1 ≤ s.1) :
    inRanges code ranges = true ↔ ∃ r ∈ ranges, r.1 ≤ code ∧ code ≤ r.2 := by
  induction ranges with
  | nil => simp [inRanges]
  | cons r rest ih =>
    obtain ⟨hr, hrest⟩ := List.pairwise_cons.1 h
    have later : (∃ s ∈ rest, s.1 ≤ code ∧ code ≤ s.2) → r.1 ≤ code :=
      fun ⟨s, hs, hle, _⟩ => Nat.le_trans (hr s hs) hle
    simp only [inRanges, Bool.and_eq_true, Bool.or_eq_true, decide_eq_true_eq, ih hrest,
      List.mem_cons, exists_eq_or_imp]
    grind

end Text

end Abacus
