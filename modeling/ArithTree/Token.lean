/-
# Tokens

What an expression is made of.  The kind of a token is decided once, when the
text is scanned; an operand whose text happens to be `+` or `(` stays an
operand in every later step.

The operators are the four arithmetic signs, each with the strength with which
it binds.  All of them take two operands and group to the left.
-/

namespace ArithTree

/-! ## Operators -/

/-- The binary operators of arithmetic. -/
inductive Operator where
  | add
  | sub
  | mul
  | div
  deriving DecidableEq, Repr, Inhabited

namespace Operator

def all : List Operator := [.add, .sub, .mul, .div]

def symbol : Operator → Char
  | .add => '+'
  | .sub => '-'
  | .mul => '*'
  | .div => '/'

def text (op : Operator) : String :=
  String.singleton op.symbol

/-- How strongly the operator binds: products before sums. -/
def precedence : Operator → Nat
  | .add | .sub => 1
  | .mul | .div => 2

def ofSymbol? : Char → Option Operator
  | '+' => some .add
  | '-' => some .sub
  | '*' => some .mul
  | '/' => some .div
  | _ => none

theorem mem_all (op : Operator) : op ∈ all := by
  cases op <;> decide

@[simp] theorem ofSymbol?_symbol (op : Operator) : ofSymbol? op.symbol = some op := by
  cases op <;> rfl

theorem precedence_pos (op : Operator) : 0 < op.precedence := by
  cases op <;> decide

theorem precedence_le_two (op : Operator) : op.precedence ≤ 2 := by
  cases op <;> decide

end Operator

/-! ## Tokens -/

/-- The two sides of a pair of parentheses. -/
inductive Paren where
  | opening
  | closing
  deriving DecidableEq, Repr, Inhabited

def Paren.symbol : Paren → Char
  | .opening => '('
  | .closing => ')'

/-- One piece of an expression. -/
inductive Token where
  /-- a variable or a number -/
  | operand (text : String)
  /-- an arithmetic sign -/
  | operator (op : Operator)
  /-- one side of a pair of parentheses -/
  | paren (side : Paren)
  deriving DecidableEq, Repr, Inhabited

namespace Token

def text : Token → String
  | .operand text => text
  | .operator op => op.text
  | .paren side => String.singleton side.symbol

def isOperand : Token → Bool
  | .operand _ => true
  | _ => false

/-- The tokens as one line, with a space between neighbours. -/
def join (tokens : List Token) : String :=
  " ".intercalate (tokens.map text)

theorem join_singleton (token : Token) : join [token] = token.text := by
  rw [join, List.map_singleton, String.intercalate_singleton]

theorem join_cons (token next : Token) (tokens : List Token) :
    join (token :: next :: tokens) = token.text ++ " " ++ join (next :: tokens) :=
  String.intercalate_cons_cons

end Token

end ArithTree
