/-
# What can be wrong with an expression

A `CompileError` says which rule an expression breaks and where.  It holds the
cause, not a sentence about it: the wording is `CompileError.message` alone.
The first rule that is broken ends the work, so an error never comes with a
partial result.

`CompileError.diagnostic` is the text that a user gets to see: the message, the
place, the expression, and a caret below the column at fault if there is one.
-/
import ArithTree.Text.Quoted
import ArithTree.Token

namespace ArithTree

/-! ## Causes -/

/-- What is wrong at one column of a text. -/
inductive Violation where
  /-- a character outside the alphabet of expressions -/
  | disallowed (c : Char)
  /-- a minus sign with a digit right behind it -/
  | negativeLiteral
  /-- a character with which no token begins -/
  | unrecognized (c : Char)
  /-- a fault that the caller words itself -/
  | other (reason : String)
  deriving DecidableEq, Repr

/-- What keeps a postfix sequence from being one tree. -/
inductive Malformation where
  /-- an operator that finds fewer than two trees before it -/
  | lacksOperands (op : Operator) (position : Nat)
  /-- a parenthesis, which no postfix sequence holds -/
  | parenthesis (position : Nat)
  /-- nothing to make a tree of -/
  | noOperands
  /-- more than one tree at the end -/
  | disconnected (trees : Nat)
  /-- a fault that the caller words itself -/
  | other (reason : String)
  deriving DecidableEq, Repr

/-- The two ways in which a parenthesis can lack its partner. -/
inductive Unmatched where
  /-- a closing parenthesis with nothing open before it -/
  | unexpectedClose
  /-- an opening parenthesis that nothing closes -/
  | unclosedOpen
  deriving DecidableEq, Repr

inductive CompileError where
  /-- a fault at a column of the text, counted in characters from 1 -/
  | invalidExpression (column : Nat) (violation : Violation)
  /-- a text without tokens -/
  | emptyExpression
  /-- a postfix sequence that is not one tree -/
  | malformedPostfix (malformation : Malformation)
  /-- a parenthesis without a partner, by its index among the tokens -/
  | unbalancedParentheses (kind : Unmatched) (index : Nat)
  deriving DecidableEq, Repr

/-! ## Wording -/

def Violation.reason : Violation → String
  | .disallowed c => "disallowed character " ++ Text.quoted '\'' c
  | .negativeLiteral => "negative number literals are not supported"
  | .unrecognized c => "unrecognized input " ++ Text.quoted '"' c
  | .other reason => reason

def Malformation.reason : Malformation → String
  | .lacksOperands op position =>
    s!"operator '{op.text}' at position {position} lacks two operands"
  | .parenthesis position => s!"unexpected parenthesis at position {position}"
  | .noOperands => "no operands remain"
  | .disconnected trees => s!"{trees} disconnected subtrees remain"
  | .other reason => reason

def Unmatched.reason : Unmatched → String
  | .unexpectedClose => "')' has no matching '('"
  | .unclosedOpen => "'(' is never closed"

namespace CompileError

def message : CompileError → String
  | .invalidExpression column violation =>
    s!"Invalid expression at column {column}: {violation.reason}"
  | .emptyExpression => "No expression to parse"
  | .malformedPostfix malformation =>
    s!"Malformed postfix sequence: {malformation.reason}"
  | .unbalancedParentheses kind index =>
    s!"Unbalanced parentheses: {kind.reason} (token #{index})"

/-- The step of the work that refused the expression. -/
def stage : CompileError → String
  | .invalidExpression _ _ => "validation"
  | .emptyExpression => "tokenization"
  | .unbalancedParentheses _ _ => "conversion"
  | .malformedPostfix _ => "tree construction"

def column? : CompileError → Option Nat
  | .invalidExpression column _ => some column
  | _ => none

/-! ## Diagnostic -/

/-- The margin that sets the expression off from the lines around it. -/
def margin : String := "   | "

/-- The line under the expression whose caret stands below the given column. -/
def caretLine (column : Nat) : String :=
  margin ++ String.ofList (List.replicate (column - 1) ' ') ++ "^\n"

/-- Where the expression came from, and the column at fault if there is one. -/
def place (origin : String) : Option Nat → String
  | some column => s!"  --> {origin}:{column}\n"
  | none => s!"  --> {origin}\n"

/-- The error with its context: message, place, expression, caret. -/
def diagnostic (e : CompileError) (source origin : String) : String :=
  s!"error[{e.stage}]: {e.message}\n"
    ++ place origin e.column?
    ++ "   |\n"
    ++ margin ++ source ++ "\n"
    ++ (e.column?.map caretLine).getD ""

theorem diagnostic_eq (e : CompileError) (source origin : String) :
    e.diagnostic source origin =
      "error[" ++ e.stage ++ "]: " ++ e.message ++ "\n" ++
      ("  --> " ++ origin ++ (e.column?.elim "" fun column => ":" ++ toString column) ++ "\n") ++
      ("   |\n" ++ "   | " ++ source ++ "\n" ++ (e.column?.elim "" fun column =>
        "   | " ++ String.ofList (List.replicate (column - 1) ' ') ++ "^\n")) := by
  -- an equation for the definition would take long to prove, and is not needed
  delta diagnostic
  cases e.column? with
  | none => simp only [place, margin, Option.map_none, Option.getD_none, Option.elim_none,
      String.append_assoc, String.append_empty, ToString.toString]
  | some column => simp only [place, margin, caretLine, Option.map_some, Option.getD_some,
      Option.elim_some, String.append_assoc, ToString.toString]

end CompileError

end ArithTree
