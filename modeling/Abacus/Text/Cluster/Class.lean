import Abacus.Text.Cluster.Table
import Abacus.Text.Ranges

/-!
# Classes of characters in clusters

Whether two neighbouring characters belong to one cluster is decided by their classes, and
every character has exactly one. The sets behind the classes overlap where one refines
another: a carriage return is a control character, a linker extends what is before it.
-/

namespace Abacus

namespace Text

namespace Cluster

/-- What a character is to its neighbours. -/
inductive Class where
  | carriageReturn
  | lineFeed
  /-- Another character that shows nothing and ends what is before it. -/
  | control
  /-- A mark on the character before it. -/
  | extend
  /-- A mark that also binds two consonants. -/
  | linker
  /-- The zero width non-joiner: a mark that keeps consonants apart. -/
  | nonJoiner
  /-- The zero width joiner: a mark that also binds two pictographs. -/
  | joiner
  /-- One half of a flag. -/
  | regional
  | prepend
  | spacingMark
  /-- A leading consonant of Hangul. -/
  | leading
  | vowel
  | trailing
  /-- A Hangul syllable that has no trailing consonant yet. -/
  | openSyllable
  | closedSyllable
  | pictograph
  /-- A consonant that a linker can bind. -/
  | consonant
  | other
  deriving DecidableEq

namespace Class

/-- The halves of flags, one for each letter of the alphabet. -/
def isRegional (code : Nat) : Bool := 0x1f1e6 ≤ code && code ≤ 0x1f1ff

/-- The syllables of Hangul that have a code point of their own. -/
def isSyllable (code : Nat) : Bool := 0xac00 ≤ code && code ≤ 0xd7a3

/-- The class of a Hangul syllable. Each leading consonant and vowel have 28 syllables in a
row, the first of which is open. -/
def ofSyllable (code : Nat) : Class :=
  if (code - 0xac00) % 28 = 0 then .openSyllable else .closedSyllable

/-- The class of a code point. -/
def ofCode (code : Nat) : Class :=
  if code = 0xd then .carriageReturn
  else if code = 0xa then .lineFeed
  else if code = 0x200c then .nonJoiner
  else if code = 0x200d then .joiner
  else if inRanges code controlRanges then .control
  else if inRanges code linkerRanges then .linker
  else if inRanges code extendRanges then .extend
  else if inRanges code spacingMarkRanges then .spacingMark
  else if inRanges code consonantRanges then .consonant
  else if inRanges code pictographRanges then .pictograph
  else if isRegional code then .regional
  else if isSyllable code then ofSyllable code
  else if inRanges code leadingRanges then .leading
  else if inRanges code vowelRanges then .vowel
  else if inRanges code trailingRanges then .trailing
  else if inRanges code prependRanges then .prepend
  else .other

/-- The class of a character. -/
def ofChar (c : Char) : Class := ofCode c.toNat

/-- Whether a character stands apart from both its neighbours, except that a carriage return
keeps a line feed behind it. -/
def isControl (k : Class) : Bool := k = .carriageReturn || k = .lineFeed || k = .control

/-- Whether a character is a mark on the one before it. -/
def isMark (k : Class) : Bool := k = .extend || k = .linker || k = .nonJoiner || k = .joiner

/-- Whether two parts of a Hangul syllable go together. -/
def isSyllablePair (first second : Class) : Bool :=
  match first with
  | .leading =>
    second = .leading || second = .vowel || second = .openSyllable || second = .closedSyllable
  | .openSyllable | .vowel => second = .vowel || second = .trailing
  | .closedSyllable | .trailing => second = .trailing
  | _ => false

end Class

end Cluster

end Text

end Abacus
