/-
# Reading numbers

A binary64 number from its text: an optional sign, then digits with an optional
point among, before or behind them and an optional power of ten; or one of the
words `inf`, `infinity` and `nan` in any mixture of capital and small letters.
The number read is the one nearest to what is written.
-/

namespace ArithTree.Decimal

/-- The binary64 number nearest to `digits * 10 ^ exponent`. -/
def nearest (digits : Nat) (exponent : Int) : Float :=
  Float.ofScientific digits (exponent < 0) exponent.natAbs

/-- A sign in front of a text, and the text behind it: `true` for a minus. -/
def splitSign : List Char → Bool × List Char
  | '-' :: rest => (true, rest)
  | '+' :: rest => (false, rest)
  | text => (false, text)

def splitDigits (text : List Char) : List Char × List Char :=
  (text.takeWhile Char.isDigit, text.dropWhile Char.isDigit)

def splitFraction : List Char → List Char × List Char
  | '.' :: rest => splitDigits rest
  | text => ([], text)

/-- The power of ten at the end of a number: nothing, or a mark, an optional
sign and at least one digit. -/
def exponent? : List Char → Option Int
  | [] => some 0
  | mark :: rest =>
    let (minus, digits) := splitSign rest
    if (mark = 'e' ∨ mark = 'E') ∧ digits ≠ [] ∧ digits.all Char.isDigit then
      let magnitude : Int := Nat.ofDigitChars 10 digits 0
      some (if minus then -magnitude else magnitude)
    else none

/-- The magnitude that a text of digits, point and power of ten writes. -/
def magnitude? (text : List Char) : Option Float :=
  let (whole, rest) := splitDigits text
  let (fraction, rest) := splitFraction rest
  if whole ++ fraction = [] then none
  else (exponent? rest).map fun exponent =>
    nearest (Nat.ofDigitChars 10 (whole ++ fraction) 0) (exponent - fraction.length)

def named? (text : List Char) : Option Float :=
  let word := text.map Char.toLower
  if word = "inf".toList ∨ word = "infinity".toList then some (1 / 0)
  else if word = "nan".toList then some (0 / 0)
  else none

def read? (text : String) : Option Float :=
  let (minus, rest) := splitSign text.toList
  ((named? rest).or (magnitude? rest)).map fun x => if minus then -x else x

end ArithTree.Decimal
