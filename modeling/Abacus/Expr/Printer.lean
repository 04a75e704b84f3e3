import Abacus.Expr

/-!
# Printing an expression

An expression is printed with the parentheses that it needs and no others. An operand that
is a chain of its own gets them when it binds more weakly than the chain around it, and on
the right of an operator also when it is of the same level, because all levels group to the
left. A negative literal as an operand always gets them: an expression cannot contain a
sign. The parentheses of the source are not kept.
-/

namespace Abacus

namespace Expr

/-- The level at which the links of a chain are printed; 0 when there are none. -/
def level (links : List Link) : Nat := (links.head?.map (·.operator.precedence)).getD 0

/-- Whether an operand is put into parentheses, where `weak` says which levels need them. -/
def isWrapped (weak : Nat → Bool) : Expr → Bool
  | literal value _ => value.isNegative
  | chain _ links _ => links.head?.any fun link => weak link.operator.precedence

/-- A text, in parentheses if so told. -/
def wrapIf (wrapped : Bool) (s : Text) : Text := if wrapped then '(' :: s ++ [')'] else s

mutual

/-- The text of an expression. -/
def text : Expr → Text
  | literal value _ => value.text
  | chain first links _ =>
    wrapIf (first.isWrapped (· < level links)) first.text ++ linksText (level links) links

/-- The text of the links of a chain of a given level. -/
def linksText (level : Nat) : List Link → Text
  | [] => []
  | ⟨operator, operand⟩ :: rest =>
    operator.symbol :: wrapIf (operand.isWrapped (· ≤ level)) operand.text ++
      linksText level rest

end

/-- The text of a chain up to and including link `index`. -/
def leadingText (first : Expr) (links : List Link) (index : Nat) : Text :=
  wrapIf (first.isWrapped (· < level links)) first.text ++
    linksText (level links) (links.take (index + 1))

end Expr

end Abacus
