/-
# Postfix sequences

The tokens of an expression with every operator behind its operands and no
parentheses left.  Operands keep their order.  An operator waits on a stack
until what comes next cannot belong to its right side any more: an operator
that binds no stronger, the parenthesis that closes its group, or the end.

`State` is what has been done after some of the tokens, `State.step` takes one
token more, and `State.finish` releases what still waits at the end.  One
function, `release`, takes operators off the stack for all three.

A postfix sequence is read from left to right over a stack of finished trees: an
operand is a tree, and an operator joins the two latest trees, the later one on
its right.  The sequence is a tree if one tree remains.
-/
import ArithTree.Error
import ArithTree.Expr

namespace ArithTree.Postfix

/-! ## The stack -/

/-- What waits on the stack: an operator, or the place of a parenthesis that is
still open. -/
inductive Pending where
  | operator (op : Operator)
  | opening (index : Nat)
  deriving DecidableEq, Repr

/-- Takes the operators off the top of the stack that bind at least as strongly
as the bound, and stops at an open parenthesis: the operators as tokens, and the
stack that remains. -/
def release (bound : Nat) : List Pending → List Token × List Pending
  | .operator op :: rest =>
    if bound ≤ op.precedence then
      let (released, remaining) := release bound rest
      (.operator op :: released, remaining)
    else ([], .operator op :: rest)
  | stack => ([], stack)

/-- Takes all operators off the top of the stack, down to an open parenthesis. -/
def releaseGroup (stack : List Pending) : List Token × List Pending :=
  release 0 stack

/-! ## One token at a time -/

/-- The work after some of the tokens: what has been put out, and what waits,
the latest first. -/
structure State where
  output : List Token
  stack : List Pending
  deriving DecidableEq, Repr

def State.initial : State := ⟨[], []⟩

/-- Takes the token with the given index. -/
def State.step (s : State) (index : Nat) : Token → Except CompileError State
  | .operand text => .ok { s with output := s.output ++ [.operand text] }
  | .operator op =>
    let (released, remaining) := release op.precedence s.stack
    .ok ⟨s.output ++ released, .operator op :: remaining⟩
  | .paren .opening => .ok { s with stack := .opening index :: s.stack }
  | .paren .closing =>
    match releaseGroup s.stack with
    | (released, .opening _ :: remaining) => .ok ⟨s.output ++ released, remaining⟩
    | _ => .error (.unbalancedParentheses .unexpectedClose index)

/-- Takes the tokens, the first of which has the given index. -/
def State.run (s : State) (index : Nat) : List Token → Except CompileError State
  | [] => .ok s
  | token :: tokens => do
    let s ← s.step index token
    s.run (index + 1) tokens

theorem State.run_append (s : State) (index : Nat) (tokens more : List Token) :
    s.run index (tokens ++ more) =
      (s.run index tokens).bind fun s => s.run (index + tokens.length) more := by
  induction tokens generalizing s index with
  | nil => rfl
  | cons token tokens ih =>
    simp only [List.cons_append, State.run, bind, Except.bind, List.length_cons]
    cases s.step index token with
    | error e => rfl
    | ok s => simp only [ih, Except.bind, Nat.add_right_comm, Nat.add_assoc]

/-- Releases what waits at the end of the tokens. -/
def State.finish (s : State) : Except CompileError (List Token) :=
  match releaseGroup s.stack with
  | (_, .opening index :: _) => .error (.unbalancedParentheses .unclosedOpen index)
  | (released, _) => .ok (s.output ++ released)

def ofTokens (tokens : List Token) : Except CompileError (List Token) := do
  let s ← State.initial.run 0 tokens
  s.finish

end ArithTree.Postfix

/-! ## From a postfix sequence to a tree -/

namespace ArithTree.Expr

/-- Reads the tokens, the first of which has the given position, over the trees
that are finished, the latest first. -/
def assemble (position : Nat) (trees : List Expr) : List Token → Except CompileError Expr
  | [] =>
    match trees with
    | [] => .error (.malformedPostfix .noOperands)
    | [tree] => .ok tree
    | trees => .error (.malformedPostfix (.disconnected trees.length))
  | .operand text :: tokens => assemble (position + 1) (.operand text :: trees) tokens
  | .operator op :: tokens =>
    match trees with
    | right :: left :: trees => assemble (position + 1) (.binary op left right :: trees) tokens
    | _ => .error (.malformedPostfix (.lacksOperands op position))
  | .paren _ :: _ => .error (.malformedPostfix (.parenthesis position))

def ofPostfix (tokens : List Token) : Except CompileError Expr :=
  assemble 0 [] tokens

def ofTokens (tokens : List Token) : Except CompileError Expr := do
  let sequence ← Postfix.ofTokens tokens
  ofPostfix sequence

end ArithTree.Expr
