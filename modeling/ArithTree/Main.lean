/-
# The program

Reads what the command wants, runs it, and writes what it leaves behind.  All
decisions are those of `Cli.Command`; only the reading, the writing and the
clock are here.
-/
import ArithTree.Cli.Command
import ArithTree.Cli.Outcome
import Std.Time.Format

namespace ArithTree.Cli

def ReadError.ofSystem : IO.Error → ReadError
  | .noFileOrDirectory .. => .missing
  | .inappropriateType .. => .directory
  | e => .system (toString e)

def readFile (path : String) : IO (Except ReadError ByteArray) :=
  try
    let bytes ← IO.FS.readBinFile path
    pure (.ok bytes)
  catch e => pure (.error (ReadError.ofSystem e))

partial def readRest (stream : IO.FS.Stream) (before : ByteArray) : IO ByteArray := do
  let bytes ← stream.read 65536
  if bytes.isEmpty then pure before else readRest stream (before ++ bytes)

/-- What a run reads, and no more. -/
def surroundingsFor : Want → IO Surroundings
  | .nothing => pure ⟨.empty, fun _ => .error .missing⟩
  | .input => do
    let bytes ← readRest (← IO.getStdin) .empty
    pure ⟨bytes, fun _ => .error .missing⟩
  | .file path => do
    let content ← readFile path
    pure ⟨.empty, fun _ => content⟩

/-- The time of day, in Greenwich and to the microsecond. -/
def momentText : IO String := do
  let moment := Std.Time.DateTime.ofTimestamp (← Std.Time.Timestamp.now) .UTC
  pure (moment.format "uuuu-MM-dd'T'HH:mm:ss.SSSSSS'Z'")

def writePieces (stream : IO.FS.Stream) (began : Nat) (pieces : List Piece) : IO Unit := do
  for piece in pieces do
    match piece with
    | .text s => stream.putStr s
    | .moment => stream.putStr (← momentText)
    | .elapsed => stream.putStr (durationText ((← IO.monoNanosNow) - began))
  stream.flush

/-- The last step of the path under which the program was started. -/
def programName : IO String := do
  let path := toString (← IO.appPath)
  pure ((path.splitOn "/").getLastD path)

end ArithTree.Cli

open ArithTree.Cli

def main (arguments : List String) : IO UInt32 := do
  let command := Command.ofProgram (← programName)
  let surroundings ← surroundingsFor (command.wants arguments)
  let began ← IO.monoNanosNow
  let outcome := command.run arguments surroundings
  writePieces (← IO.getStdout) began outcome.output
  writePieces (← IO.getStderr) began outcome.errors
  pure outcome.code.toUInt32
