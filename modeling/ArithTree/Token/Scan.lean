/-
# Scanning

Cuts a text into tokens from left to right.  A run of letters is one operand
and a run of digits is one operand, each as long as it can be; signs and
parentheses stand for themselves; blanks only separate.

The text is read by recursion on its characters.  A letter or digit joins the
operand that begins right behind it when both are of one kind (`attach`), which
makes every run as long as it can be.
-/
import ArithTree.Error
import ArithTree.Token

namespace ArithTree.Token

inductive CharKind where
  /-- separates tokens and stands for none -/
  | blank
  /-- part of a variable -/
  | letter
  /-- part of a number -/
  | digit
  /-- a token of its own -/
  | sign (token : Token)
  /-- begins no token -/
  | foreign
  deriving DecidableEq, Repr

/-- The kind of a character.  Letters and digits are those of ASCII; the
blanks are space, tab, carriage return, line feed and form feed. -/
def kind (c : Char) : CharKind :=
  if c.isAlpha then .letter
  else if c.isDigit then .digit
  else if c ∈ [' ', '\t', '\r', '\n', '\x0c'] then .blank
  else if c = Paren.opening.symbol then .sign (.paren .opening)
  else if c = Paren.closing.symbol then .sign (.paren .closing)
  else match Operator.ofSymbol? c with
    | some op => .sign (.operator op)
    | none => .foreign

/-- Two neighbours belong to one run: both are letters, or both are digits. -/
def sameRun (c d : Char) : Bool :=
  (c.isAlpha && d.isAlpha) || (c.isDigit && d.isDigit)

/-- Puts a letter or digit in front of the tokens of the text `rest` behind it. -/
def attach (c : Char) (rest : List Char) : List Token → List Token
  | .operand text :: tokens =>
    if rest.head?.any (sameRun c) then .operand (String.singleton c ++ text) :: tokens
    else .operand (String.singleton c) :: .operand text :: tokens
  | tokens => .operand (String.singleton c) :: tokens

/-- The tokens of a text whose first character has the given column. -/
def scanFrom (column : Nat) : List Char → Except CompileError (List Token)
  | [] => .ok []
  | c :: rest =>
    match kind c with
    | .foreign => .error (.invalidExpression column (.unrecognized c))
    | .blank => scanFrom (column + 1) rest
    | .sign token => (scanFrom (column + 1) rest).map (token :: ·)
    | .letter | .digit => (scanFrom (column + 1) rest).map (attach c rest)

def scan (source : String) : Except CompileError (List Token) :=
  scanFrom 1 source.toList

end ArithTree.Token
