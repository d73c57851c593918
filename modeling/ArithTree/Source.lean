/-
# The text of an expression

Which texts are accepted for reading at all: every character belongs to a
small alphabet, and no minus sign has a digit right behind it, because numbers
carry no sign.  `check` names the leftmost place that breaks one of the two.
-/
import ArithTree.Error

namespace ArithTree.Source

/-- The alphabet of expressions: ASCII letters and digits, the four signs, the
parentheses and the space. -/
def isAllowed (c : Char) : Bool :=
  c.isAlphanum || c ∈ ['+', '-', '*', '/', '(', ')', ' ']

/-- What is wrong with a character, in view of the text behind it. -/
def violation? (c : Char) (rest : List Char) : Option Violation :=
  if !isAllowed c then some (.disallowed c)
  else if c = '-' ∧ rest.head?.any Char.isDigit then some .negativeLiteral
  else none

/-- The leftmost violation and its column, the first character having the
given column. -/
def firstViolation? (column : Nat) : List Char → Option (Nat × Violation)
  | [] => none
  | c :: rest =>
    match violation? c rest with
    | some v => some (column, v)
    | none => firstViolation? (column + 1) rest

/-- Refuses a text with a violation, naming the leftmost one. -/
def check (source : String) : Except CompileError Unit :=
  match firstViolation? 1 source.toList with
  | some (column, v) => .error (.invalidExpression column v)
  | none => .ok ()

def isValid (source : String) : Bool :=
  (firstViolation? 1 source.toList).isNone

theorem isValid_iff {source : String} : isValid source = true ↔ check source = .ok () := by
  unfold isValid check
  cases firstViolation? 1 source.toList <;> simp

end ArithTree.Source
