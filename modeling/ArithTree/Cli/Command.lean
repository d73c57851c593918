/-
# The two commands

One program holds both commands; the name under which it is started says which
one is meant.  `Command.wants` says what a run will read, so that the program
reads nothing else.
-/
import ArithTree.Cli.Check
import ArithTree.Cli.Display

namespace ArithTree.Cli

inductive Command where
  /-- show what is made of one expression -/
  | display
  /-- check expressions stage by stage -/
  | check
  deriving DecidableEq, Repr

/-- What a run reads before it starts. -/
inductive Want where
  | nothing
  | input
  | file (path : String)
  deriving DecidableEq, Repr

namespace Command

/-- The command that a program of the given name stands for. -/
def ofProgram (name : String) : Command :=
  if name = "exprtree-check" then .check else .display

/-- What a run with the given arguments reads. -/
def wants (arguments : List String) : Command → Want
  | .display =>
    match Display.interpret {} [] arguments with
    | .ok (.compile _ none) => .input
    | _ => .nothing
  | .check =>
    match Check.interpret {} none arguments with
    | .ok (.check _ (.file path)) => .file path
    | _ => .nothing

def run (arguments : List String) (surroundings : Surroundings) : Command → Outcome
  | .display => Display.run arguments surroundings
  | .check => Check.run arguments surroundings

end Command

end ArithTree.Cli
