/-
# The outcome of a command

What a command leaves behind: an exit code and what it wrote to its two outputs.
A command is a function from its arguments and surroundings to an outcome; the
only things that such a function cannot know, the time of day and the time that
the work takes, are left open as pieces of their own.

A length of time is written in the largest unit of which it has at least one,
with as many digits behind the point as it takes.
-/
import ArithTree.Compile
import ArithTree.Decimal.Write

namespace ArithTree.Cli

/-! ## What is written -/

/-- A piece of what a command writes. -/
inductive Piece where
  | text (s : String)
  /-- the moment at which the piece is written -/
  | moment
  /-- the time since the work began -/
  | elapsed
  deriving DecidableEq, Repr

def line (s : String) : List Piece :=
  [.text (s ++ "\n")]

def lines (ss : List String) : List Piece :=
  ss.flatMap line

theorem lines_eq_map (ss : List String) : lines ss = ss.map fun s => .text (s ++ "\n") := by
  induction ss with
  | nil => rfl
  | cons s ss ih => exact congrArg (.text (s ++ "\n") :: ·) ih

def logLine (event : Event) : List Piece :=
  [.moment, .text (" " ++ event.text ++ "\n")]

/-- Events as lines of the log, if the user asked for them. -/
def log (verbose : Bool) (events : List Event) : List Piece :=
  if verbose then events.flatMap logLine else []

/-! ## What is left behind -/

/-- The exit code of a command and what it wrote. -/
structure Outcome where
  code : Nat
  output : List Piece
  errors : List Piece
  deriving DecidableEq, Repr

def success : Nat := 0

def failure : Nat := 1

def misuse : Nat := 2

/-- How a complaint begins. -/
def complaint (message : String) : String :=
  "错误: " ++ message

/-- The outcome of arguments that make no sense: what is wrong with them, and
how the command is used. -/
def refusal (message : String) (usage : List String) : Outcome :=
  ⟨misuse, lines usage, line (complaint message)⟩

/-- The outcome of a request for text about the command. -/
def information (text : List String) : Outcome :=
  ⟨success, lines text, []⟩

def version : String := "0.1.0"

/-! ## Durations -/

open Decimal (powerOfTen)

/-- A number below `10 ^ places` as digits behind a point, without zeros at the
end; nothing if it is zero. -/
def fractionText (places n : Nat) : String :=
  let digits := Nat.toDigits 10 n
  let padded := List.replicate (places - digits.length) '0' ++ digits
  let significant := (padded.reverse.dropWhile (· == '0')).reverse
  if significant.isEmpty then "" else "." ++ String.ofList significant

/-- So many nanoseconds in a unit of `10 ^ places` nanoseconds. -/
def inUnit (nanoseconds places : Nat) (name : String) : String :=
  toString (nanoseconds / powerOfTen places)
    ++ fractionText places (nanoseconds % powerOfTen places) ++ name

def durationText (nanoseconds : Nat) : String :=
  if powerOfTen 9 ≤ nanoseconds then inUnit nanoseconds 9 "s"
  else if powerOfTen 6 ≤ nanoseconds then inUnit nanoseconds 6 "ms"
  else if powerOfTen 3 ≤ nanoseconds then inUnit nanoseconds 3 "µs"
  else inUnit nanoseconds 0 "ns"

end ArithTree.Cli
