import Abacus.Text
import Abacus.Text.Cluster.Class

/-!
# Clusters

A text falls into clusters, the parts that a reader takes for single characters: a letter with
its accents, a syllable, a flag, a family of pictographs. The rules are those of the Unicode
standard for extended grapheme clusters. They look at the two characters around a place and,
in three cases, at what leads up to it: consonants bound by a linker, pictographs bound by a
joiner, and halves of flags, which go together in twos. That much is remembered as a `Chain`.

The clusters of a text, put together again, are the text, and none of them is empty.
-/

namespace Abacus

namespace Text

namespace Cluster

/-- What the end of a cluster may still bind, beyond what its last character does. -/
inductive Chain where
  | none
  /-- A consonant and marks on it, none of them a linker. -/
  | consonant
  /-- A consonant and marks on it, a linker among them. -/
  | linked
  /-- A pictograph and marks on it. -/
  | pictograph
  /-- A pictograph, marks on it, and a joiner. -/
  | joined
  /-- The first half of a flag. -/
  | flag
  deriving DecidableEq

/-- The chain that a character begins. -/
def Chain.start : Class → Chain
  | .consonant => .consonant
  | .pictograph => .pictograph
  | .regional => .flag
  | _ => .none

/-- The chain after one more character of the same cluster. -/
def Chain.next : Chain → Class → Chain
  | .consonant, .extend | .consonant, .joiner => .consonant
  | .consonant, .linker => .linked
  | .linked, .extend | .linked, .joiner | .linked, .linker => .linked
  | .pictograph, .extend | .pictograph, .linker | .pictograph, .nonJoiner => .pictograph
  | .pictograph, .joiner => .joined
  | .flag, .regional => .none
  | _, k => .start k

/-- Whether a chain binds a character of the given class. -/
def Chain.binds : Chain → Class → Bool
  | .linked, .consonant => true
  | .joined, .pictograph => true
  | .flag, .regional => true
  | _, _ => false

/-- The end of a cluster, as far as it decides whether the next character belongs to it. -/
structure Tail where
  last : Class
  chain : Chain

/-- The end of a cluster of one character. -/
def Tail.start (k : Class) : Tail := ⟨k, .start k⟩

/-- The end of a cluster that got one more character. -/
def Tail.next (t : Tail) (k : Class) : Tail := ⟨k, t.chain.next k⟩

/-- Whether the next character belongs to the cluster. -/
def Tail.joins (t : Tail) (k : Class) : Bool :=
  if t.last.isControl || k.isControl then t.last = .carriageReturn && k = .lineFeed
  else t.last.isSyllablePair k || k.isMark || k = .spacingMark || t.last = .prepend ||
    t.chain.binds k

end Cluster

/-- The clusters of a text of which a part is read: `found` are the clusters that are complete,
last first, and `current` is the one in hand, backwards. -/
def clustersFrom (found : List Text) (current : Text) (tail : Cluster.Tail) : Text → List Text
  | [] => (current.reverse :: found).reverse
  | c :: s =>
    let k := Cluster.Class.ofChar c
    if tail.joins k then clustersFrom found (c :: current) (tail.next k) s
    else clustersFrom (current.reverse :: found) [c] (.start k) s

/-- The clusters of a text. -/
def clusters : Text → List Text
  | [] => []
  | c :: s => clustersFrom [] [c] (.start (.ofChar c)) s

theorem flatten_clustersFrom (found : List Text) (current : Text) (tail : Cluster.Tail) (s : Text) :
    (clustersFrom found current tail s).flatten = found.reverse.flatten ++ current.reverse ++ s := by
  induction s generalizing found current tail with
  | nil => simp [clustersFrom]
  | cons c s ih =>
    rw [clustersFrom]
    split <;> simp [ih]

/-- No character is lost, and none changes its place. -/
theorem flatten_clusters (s : Text) : (clusters s).flatten = s := by
  cases s with
  | nil => rfl
  | cons c s => simp [clusters, flatten_clustersFrom]

theorem ne_nil_of_mem_clustersFrom {found : List Text} {current : Text} {tail : Cluster.Tail}
    {s g : Text} (hfound : ∀ f ∈ found, f ≠ []) (hcurrent : current ≠ [])
    (hg : g ∈ clustersFrom found current tail s) : g ≠ [] := by
  induction s generalizing found current tail with
  | nil =>
    simp only [clustersFrom, List.mem_reverse, List.mem_cons] at hg
    rcases hg with rfl | hg
    · simpa using hcurrent
    · exact hfound g hg
  | cons c s ih =>
    rw [clustersFrom] at hg
    split at hg
    · exact ih hfound (by simp) hg
    · refine ih (fun f hf => ?_) (by simp) hg
      rcases List.mem_cons.1 hf with rfl | hf
      · simpa using hcurrent
      · exact hfound f hf

/-- Every cluster has a character. -/
theorem ne_nil_of_mem_clusters {s g : Text} (hg : g ∈ clusters s) : g ≠ [] := by
  cases s with
  | nil => simp [clusters] at hg
  | cons c s => exact ne_nil_of_mem_clustersFrom (by simp) (by simp) hg

end Text

end Abacus
