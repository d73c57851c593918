/-
# Expression trees

An expression is an operand or an operator over two expressions, so an
operator always has both of its children and an operand never has one.  This
module has the type, what can be read off a node, the sizes of a tree, and its
nodes in the three depth-first orders, as tokens and as the text that is shown
for them.  In that text every node is followed by a space, the last one too.
-/
import ArithTree.Token

namespace ArithTree

/-- The tree of an expression. -/
inductive Expr where
  /-- a variable or a number -/
  | operand (text : String)
  /-- an operator over its left and its right side -/
  | binary (op : Operator) (left right : Expr)
  deriving DecidableEq, Repr, Inhabited

namespace Expr

/-! ## One node -/

def root : Expr → Token
  | .operand text => .operand text
  | .binary op _ _ => .operator op

/-- The text at the root: that of the operand, or the sign of the operator. -/
def label (e : Expr) : String :=
  e.root.text

def left? : Expr → Option Expr
  | .operand _ => none
  | .binary _ left _ => some left

def right? : Expr → Option Expr
  | .operand _ => none
  | .binary _ _ right => some right

def isOperand (e : Expr) : Bool :=
  e.root.isOperand

/-! ## Sizes -/

def operandCount : Expr → Nat
  | .operand _ => 1
  | .binary _ left right => left.operandCount + right.operandCount

def operatorCount : Expr → Nat
  | .operand _ => 0
  | .binary _ left right => 1 + left.operatorCount + right.operatorCount

def nodeCount (e : Expr) : Nat :=
  e.operandCount + e.operatorCount

/-- The number of nodes on the longest way down from the root. -/
def depth : Expr → Nat
  | .operand _ => 1
  | .binary _ left right => 1 + max left.depth right.depth

theorem operandCount_eq (e : Expr) : e.operandCount = e.operatorCount + 1 := by
  induction e with
  | operand _ => rfl
  | binary _ left right ihl ihr => simp only [operandCount, operatorCount]; omega

/-! ## Steps down the tree -/

inductive Step where
  | left
  | right
  deriving DecidableEq, Repr

def child? (e : Expr) : Step → Option Expr
  | .left => e.left?
  | .right => e.right?

/-- The subtree at the end of a way down, if the way stays in the tree. -/
def descend? (e : Expr) : List Step → Option Expr
  | [] => some e
  | step :: way => (e.child? step).bind (·.descend? way)

/-! ## Visits -/

def preorder : Expr → List Token
  | .operand text => [.operand text]
  | .binary op left right => .operator op :: (left.preorder ++ right.preorder)

def inorder : Expr → List Token
  | .operand text => [.operand text]
  | .binary op left right => left.inorder ++ .operator op :: right.inorder

def postorder : Expr → List Token
  | .operand text => [.operand text]
  | .binary op left right => left.postorder ++ right.postorder ++ [.operator op]

@[simp] theorem length_preorder (e : Expr) : e.preorder.length = e.nodeCount := by
  induction e with
  | operand _ => rfl
  | binary _ left right ihl ihr =>
    simp only [preorder, List.length_cons, List.length_append, ihl, ihr, nodeCount,
      operandCount, operatorCount]
    omega

@[simp] theorem length_inorder (e : Expr) : e.inorder.length = e.nodeCount := by
  induction e with
  | operand _ => rfl
  | binary _ left right ihl ihr =>
    simp only [inorder, List.length_cons, List.length_append, ihl, ihr, nodeCount,
      operandCount, operatorCount]
    omega

@[simp] theorem length_postorder (e : Expr) : e.postorder.length = e.nodeCount := by
  induction e with
  | operand _ => rfl
  | binary _ left right ihl ihr =>
    simp only [postorder, List.length_cons, List.length_append, List.length_nil, ihl, ihr,
      nodeCount, operandCount, operatorCount]
    omega

/-! ## Visits as texts -/

/-- The tokens on one line, each followed by a space. -/
def visited (tokens : List Token) : String :=
  String.join (tokens.map fun token => token.text ++ " ")

structure Visits where
  preorder : String
  inorder : String
  postorder : String
  deriving DecidableEq, Repr

def visits (e : Expr) : Visits where
  preorder := visited e.preorder
  inorder := visited e.inorder
  postorder := visited e.postorder

end Expr

end ArithTree
