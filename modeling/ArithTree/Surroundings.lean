/-
# The surroundings of the program

What the program may read: its standard input and the files of its directory.
What is read has to be text in UTF-8.
-/

namespace ArithTree

inductive ReadError where
  | missing
  | directory
  | notText
  /-- any other refusal, in the words of the system -/
  | system (message : String)
  deriving DecidableEq, Repr

/-- The refusal in the words of the system. -/
def ReadError.message : ReadError → String
  | .missing => "No such file or directory (os error 2)"
  | .directory => "Is a directory (os error 21)"
  | .notText => "stream did not contain valid UTF-8"
  | .system message => message

/-- What the program may read. -/
structure Surroundings where
  input : ByteArray
  file : String → Except ReadError ByteArray

def decodeText (bytes : ByteArray) : Except ReadError String :=
  match String.fromUTF8? bytes with
  | some text => .ok text
  | none => .error .notText

theorem decodeText_toUTF8 (text : String) : decodeText text.toUTF8 = .ok text := by
  have hvalid : String.fromUTF8? text.toUTF8 = some text := dif_pos text.isValidUTF8
  simp only [decodeText, hvalid]

def Surroundings.inputText (s : Surroundings) : Except ReadError String :=
  decodeText s.input

def Surroundings.fileText (s : Surroundings) (path : String) : Except ReadError String := do
  let bytes ← s.file path
  decodeText bytes

end ArithTree
