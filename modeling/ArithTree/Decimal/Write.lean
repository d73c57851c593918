/-
# Writing numbers

A finite binary64 number as the shortest decimal that reads back as it, and the
nearest one if there are several of that length.

The number is an integer times a power of two, and the numbers that round to it
are an interval of exact fractions.  The decimals with a given last place are a
grid.  If a grid has a point in the interval, then one of the two points next to
the number is in it, so only those two are tried, on finer and finer grids.

The decimal that is found is written with a point among or before its digits
while its size is moderate, and with one digit before the point and a power of
ten otherwise.  Where the one ends and the other begins is a `Style`.
-/

namespace ArithTree.Decimal

/-! ## Scales -/

def powerOfTwo (n : Nat) : Nat := Nat.pow 2 n

def powerOfTen (n : Nat) : Nat := Nat.pow 10 n

/-! ## Binary fractions -/

/-- The number `mantissa * 2 ^ exponent`. -/
structure Dyadic where
  mantissa : Nat
  exponent : Int
  deriving DecidableEq, Repr

def fractionBits : Nat := 52

def exponentBits : Nat := 11

def leastExponent : Int := -1074

/-- The magnitude of a finite binary64 number, its sign left out. -/
def Dyadic.ofFloat (x : Float) : Dyadic :=
  let bits := x.toBits.toNat
  let fraction := bits % powerOfTwo fractionBits
  match bits / powerOfTwo fractionBits % powerOfTwo exponentBits with
  | 0 => ⟨fraction, leastExponent⟩
  | biased + 1 => ⟨powerOfTwo fractionBits + fraction, leastExponent + biased⟩

/-- The lower neighbour is only half as far as the upper one: a power of two,
unless it is among the smallest numbers. -/
def Dyadic.isNarrowBelow (d : Dyadic) : Bool :=
  d.mantissa == powerOfTwo fractionBits && leastExponent < d.exponent

/-- Numbers around a value, as fractions over one denominator. -/
structure Interval where
  least : Nat
  value : Nat
  greatest : Nat
  denominator : Nat
  /-- the two ends belong to it -/
  closed : Bool
  deriving DecidableEq, Repr

/-- The numbers that round to `d`: up to half way to each neighbour, the ends
included if the mantissa is even, since a tie goes to the even one. -/
def Dyadic.interval (d : Dyadic) : Interval :=
  let quarter := powerOfTwo (d.exponent - 2).toNat
  { least := (4 * d.mantissa - if d.isNarrowBelow then 1 else 2) * quarter
    value := 4 * d.mantissa * quarter
    greatest := (4 * d.mantissa + 2) * quarter
    denominator := powerOfTwo (2 - d.exponent).toNat
    closed := d.mantissa % 2 == 0 }

/-! ## Shortest decimals -/

/-- The number `digits * 10 ^ exponent`. -/
structure Scaled where
  digits : Nat
  exponent : Int
  deriving DecidableEq, Repr

/-- The number of decimal digits of a number, and none for zero. -/
def digitCount (n : Nat) : Nat :=
  if n = 0 then 0 else (Nat.toDigits 10 n).length

namespace Interval

/-- The exponent of the leading digit of the value. -/
def leadingExponent (i : Interval) : Int :=
  if i.denominator ≤ i.value then digitCount (i.value / i.denominator) - 1
  else -(digitCount ((i.denominator - 1) / i.value) : Int)

/-- A point of the grid with last place `10 ^ place`, made comparable with the
fractions of the interval once these are scaled likewise. -/
def point (i : Interval) (place : Int) (p : Nat) : Nat :=
  p * powerOfTen place.toNat * i.denominator

/-- A fraction of the interval, made comparable with the points of a grid. -/
def scaled (place : Int) (numerator : Nat) : Nat :=
  numerator * powerOfTen (-place).toNat

def has (i : Interval) (place : Int) (p : Nat) : Bool :=
  let x := i.point place p
  if i.closed then scaled place i.least ≤ x && x ≤ scaled place i.greatest
  else scaled place i.least < x && x < scaled place i.greatest

/-- The last point of the grid that does not exceed the value. -/
def below (i : Interval) (place : Int) : Nat :=
  scaled place i.value / i.point place 1

/-- The point below the value is nearer than the one above it; half way between
them, the even one is. -/
def prefersBelow (i : Interval) (place : Int) : Bool :=
  let p := i.below place
  let toBelow := scaled place i.value - i.point place p
  let toAbove := i.point place (p + 1) - scaled place i.value
  toBelow < toAbove || (toBelow == toAbove && p % 2 == 0)

/-- The point of the grid that is nearest to the value, among the two next to it
that the interval holds. -/
def nearest? (i : Interval) (place : Int) : Option Nat :=
  let p := i.below place
  match i.has place p, i.has place (p + 1) with
  | true, true => some (if i.prefersBelow place then p else p + 1)
  | true, false => some p
  | false, true => some (p + 1)
  | false, false => none

/-- The first hit on the grids from a place on, each ten times finer than the
one before it, as many as are given. -/
def search (i : Interval) (place : Int) : Nat → Scaled
  | 0 => ⟨i.below place, place⟩
  | grids + 1 =>
    match i.nearest? place with
    | some p => ⟨p, place⟩
    | none => i.search (place - 1) grids

end Interval

/-- Enough digits to tell any two binary64 numbers apart. -/
def enoughDigits : Nat := 17

/-- The shortest decimal that rounds to `d`, which is not zero. -/
def Dyadic.shortest (d : Dyadic) : Scaled :=
  d.interval.search d.interval.leadingExponent enoughDigits

/-! ## Decimals in writing -/

/-- The sizes that are written without a power of ten, by the exponent of the
leading digit. -/
structure Style where
  leastPlain : Int
  greatestPlain : Int
  deriving DecidableEq, Repr

def zeros (n : Nat) : List Char :=
  List.replicate n '0'

/-- The digits of a number without the zeros at the end. -/
def significantDigits (n : Nat) : List Char :=
  ((Nat.toDigits 10 n).reverse.dropWhile (· == '0')).reverse

/-- Digits with a point behind the one that has exponent zero, and at least one
digit on each side of the point. -/
def plain (digits : List Char) (leading : Int) : List Char :=
  if leading < 0 then '0' :: '.' :: (zeros (-leading - 1).toNat ++ digits)
  else
    let whole := leading.toNat + 1
    let fraction := digits.drop whole
    digits.take whole ++ zeros (whole - digits.length) ++
      '.' :: (if fraction.isEmpty then ['0'] else fraction)

/-- Digits with a point behind the first, unless it is the only one, and the
power of ten with its sign. -/
def scientific (digits : List Char) (leading : Int) : List Char :=
  let mantissa := match digits with
    | first :: second :: more => first :: '.' :: second :: more
    | digits => digits
  mantissa ++ 'e' :: (if leading < 0 then '-' else '+') :: Nat.toDigits 10 leading.natAbs

/-- A decimal that is not zero, in the given style. -/
def Scaled.written (style : Style) (s : Scaled) : List Char :=
  let digits := significantDigits s.digits
  let leading := s.exponent + digitCount s.digits - 1
  if style.leastPlain ≤ leading ∧ leading ≤ style.greatestPlain then plain digits leading
  else scientific digits leading

/-- The sign of a binary64 number is a minus, be it that of a zero. -/
def isMinus (x : Float) : Bool :=
  powerOfTwo (exponentBits + fractionBits) ≤ x.toBits.toNat

/-- A finite binary64 number as the shortest decimal that reads back as it.  A
zero keeps its sign. -/
def write (style : Style) (x : Float) : String :=
  let d := Dyadic.ofFloat x
  let magnitude := if d.mantissa = 0 then plain ['0'] 0 else d.shortest.written style
  String.ofList (if isMinus x then '-' :: magnitude else magnitude)

end ArithTree.Decimal
