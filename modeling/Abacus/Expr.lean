import Abacus.Literal
import Abacus.Operator
import Abacus.Span

/-!
# Expressions

An expression is a literal or a *chain*: a first operand and any number of links, each an
operator with its right operand, applied from left to right. `8-2-1` is one chain with two
links, so an expression gets deeper by parentheses only, never by being long.

Chains that come from a text have at least one link, and all operators of a chain are of one
level. The type does not ask for that. An expression that was put together by hand or read
from a file may have empty or mixed chains, and everything here is defined for those too:
where one level is needed, the first link decides.

Each node knows the span of the text it came from.
-/

namespace Abacus

mutual

/-- An arithmetic expression. -/
inductive Expr where
  | literal (value : Literal) (span : Span)
  /-- The first operand, and the operators that are applied to it in turn. -/
  | chain (first : Expr) (links : List Link) (span : Span)

/-- One step of a chain. -/
structure Link where
  operator : Operator
  /-- The right operand of the operator. -/
  operand : Expr

end

namespace Expr

/-- Induction over an expression: a statement holds if it holds for literals, and for a chain
whenever it holds for all its operands. -/
theorem induction {motive : Expr → Prop}
    (literal : ∀ value span, motive (.literal value span))
    (chain : ∀ first links span, motive first → (∀ link ∈ links, motive link.operand) →
      motive (.chain first links span)) (e : Expr) : motive e :=
  e.rec (motive_2 := fun link => motive link.operand)
    (motive_3 := fun links => ∀ link ∈ links, motive link.operand)
    literal chain (fun _ _ h => h) (by simp) (fun _ _ h hs => by simp [h]; exact hs)

mutual

private def decEq : (a b : Expr) → Decidable (a = b)
  | .literal v s, .literal v' s' => decidable_of_iff (v = v' ∧ s = s') (by simp)
  | .chain f l s, .chain f' l' s' =>
    match decEq f f', decEqLinks l l' with
    | isTrue hf, isTrue hl => decidable_of_iff (s = s') (by simp [hf, hl])
    | isFalse hf, _ => isFalse (by simp [hf])
    | _, isFalse hl => isFalse (by simp [hl])
  | .literal .., .chain .. => isFalse (by simp)
  | .chain .., .literal .. => isFalse (by simp)

private def decEqLinks : (a b : List Link) → Decidable (a = b)
  | [], [] => isTrue rfl
  | ⟨o, e⟩ :: l, ⟨o', e'⟩ :: l' =>
    match decEq e e', decEqLinks l l' with
    | isTrue he, isTrue hl => decidable_of_iff (o = o') (by simp [he, hl])
    | isFalse he, _ => isFalse (by simp [he])
    | _, isFalse hl => isFalse (by simp [hl])
  | [], _ :: _ => isFalse (by simp)
  | _ :: _, [] => isFalse (by simp)

end

instance : DecidableEq Expr := decEq

instance : Inhabited Expr := ⟨.literal (.int 0) default⟩

/-- The span of a node. -/
def span : Expr → Span
  | literal _ span | chain _ _ span => span

/-- The same node with another span, such as that of the parentheses around it. -/
def withSpan (span : Span) : Expr → Expr
  | literal value _ => .literal value span
  | chain first links _ => .chain first links span

/-- The chain of a first operand and its links, with the span from the first operand to the
last one. Without links it is the first operand itself. -/
def ofChain (first : Expr) (links : List Link) : Expr :=
  match links.getLast? with
  | none => first
  | some last => .chain first links (first.span.cover last.operand.span)

/-- One operator applied to two operands. -/
def binary (left : Expr) (op : Operator) (right : Expr) : Expr := ofChain left [⟨op, right⟩]

/-- The first operator of a chain. -/
def operator? : Expr → Option Operator
  | literal .. => none
  | chain _ links _ => links.head?.map Link.operator

/-- The level of a chain, decided by its first operator. -/
def precedence? (e : Expr) : Option Nat := e.operator?.map Operator.precedence

/-- The span of a chain from its first operand to the operand of link `index`; of the first
operand alone when there is no such link. -/
def leadingSpan (first : Expr) (links : List Link) (index : Nat) : Span :=
  match links[index]? with
  | some link => first.span.cover link.operand.span
  | none => first.span

mutual

/-- How often an operator occurs. -/
def count (op : Operator) : Expr → Nat
  | literal .. => 0
  | chain first links _ => first.count op + countLinks op links

/-- How often an operator occurs in the links of a chain. -/
def countLinks (op : Operator) : List Link → Nat
  | [] => 0
  | ⟨operator, operand⟩ :: rest =>
    (if operator = op then 1 else 0) + operand.count op + countLinks op rest

end

/-- The number of all operators. -/
def countAll (e : Expr) : Nat := Operator.all.foldr (fun op total => e.count op + total) 0

mutual

/-- All literals, from left to right. -/
def literals : Expr → List Literal
  | literal value _ => [value]
  | chain first links _ => first.literals ++ linkLiterals links

/-- All literals in the links of a chain, from left to right. -/
def linkLiterals : List Link → List Literal
  | [] => []
  | ⟨_, operand⟩ :: rest => operand.literals ++ linkLiterals rest

end

mutual

/-- The rightmost literal. -/
def lastLiteral : Expr → Literal
  | literal value _ => value
  | chain first links _ => lastLinkLiteral first.lastLiteral links

/-- The rightmost literal in the links of a chain, or the given one if there are no links. -/
def lastLinkLiteral (before : Literal) : List Link → Literal
  | [] => before
  | ⟨_, operand⟩ :: rest => lastLinkLiteral operand.lastLiteral rest

end

@[simp] theorem span_withSpan (span : Span) (e : Expr) : (e.withSpan span).span = span := by
  cases e <;> rfl

@[simp] theorem ofChain_nil (first : Expr) : ofChain first [] = first := rfl

@[simp] theorem ofChain_concat (first : Expr) (links : List Link) (link : Link) :
    ofChain first (links ++ [link]) =
      .chain first (links ++ [link]) (first.span.cover link.operand.span) := by
  simp [ofChain]

end Expr

end Abacus
