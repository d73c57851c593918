/-
# Trees as expressions

Two texts of a tree.  In the bracketed one every operator has its own
parentheses, and the spaces around an operator keep a minus sign apart from a
digit behind it, so that the text is accepted where `a-1` is not.

The compact one has no spaces, and a side of an operator has parentheses only if
it would be read differently without them: on the left if it binds weaker than
the operator above it, on the right also if it binds equally strong, since
operators group to the left.
-/
import ArithTree.Expr

namespace ArithTree.Expr

/-! ## All parentheses -/

/-- The tree as a text with parentheses around every operator and its sides. -/
def bracketed : Expr → String
  | .operand text => text
  | .binary op left right =>
    "(" ++ left.bracketed ++ " " ++ op.text ++ " " ++ right.bracketed ++ ")"

/-! ## As few parentheses as it takes -/

def isWeaker (bound : Nat) : Expr → Bool
  | .operand _ => false
  | .binary op _ _ => op.precedence < bound

@[simp] theorem isWeaker_zero (e : Expr) : e.isWeaker 0 = false := by
  cases e <;> simp [isWeaker]

/-- A text between parentheses if they are needed, and by itself otherwise. -/
def enclosed (needed : Bool) (text : String) : String :=
  if needed then "(" ++ text ++ ")" else text

/-- The tree as a text without spaces and with as few parentheses as it takes. -/
def compact : Expr → String
  | .operand text => text
  | .binary op left right =>
    enclosed (left.isWeaker op.precedence) left.compact ++ op.text
      ++ enclosed (right.isWeaker (op.precedence + 1)) right.compact

end ArithTree.Expr
