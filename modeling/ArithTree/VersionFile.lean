/-
# Version files

A small file of settings under headings.  A line `[name]` begins a heading, a
line `key = "value"` sets a key of the heading above it, and lines that begin
with `;` or `#` are comments.  A key that is set twice has the later value, and
a heading may come back.
-/
import ArithTree.Surroundings
import ArithTree.Text.Parts
import ArithTree.VersionFile.Entry

namespace ArithTree

/-- What a version file says: its entries in order, one for each key. -/
structure VersionFile where
  entries : List VersionFile.Entry
  ordered : entries.Pairwise VersionFile.Entry.before
  deriving DecidableEq, Repr

namespace VersionFile

def empty : VersionFile := ⟨[], .nil⟩

def get? (file : VersionFile) (heading key : String) : Option String :=
  (file.entries.find? fun e => e.heading = heading ∧ e.key = key).map Entry.value

def set (file : VersionFile) (e : Entry) : VersionFile :=
  ⟨put e file.entries, pairwise_put e file.ordered⟩

theorem get?_set (file : VersionFile) (e : Entry) (heading key : String) :
    (file.set e).get? heading key =
      if e.heading = heading ∧ e.key = key then some e.value else file.get? heading key := by
  simp only [get?, set, find?_put]
  split <;> rfl

/-! ## Lines -/

inductive Line where
  /-- nothing: a blank line, a comment, or a line of no known form -/
  | nothing
  /-- begins a heading -/
  | heading (name : String)
  /-- sets a key -/
  | setting (key value : String)
  deriving DecidableEq, Repr

/-- The name between the brackets of a heading. -/
def bracketed? : List Char → Option (List Char)
  | '[' :: rest => if rest.getLast? = some ']' then some rest.dropLast else none
  | _ => none

/-- A value without the blanks and then without the quotes at its two ends. -/
def unquoted (value : List Char) : List Char :=
  Text.strip (· == '"') (Text.strip Text.isBlank value)

/-- What a line without blanks at its ends does. -/
def Line.ofTrimmed (line : List Char) : Line :=
  if line.head?.all fun c => c = ';' ∨ c = '#' then .nothing
  else match bracketed? line, Text.cutAt '=' line with
    | some name, _ => .heading (String.ofList name)
    | none, some (key, value) =>
      .setting (String.ofList (Text.strip Text.isBlank key)) (String.ofList (unquoted value))
    | none, none => .nothing

def Line.of (line : String) : Line :=
  .ofTrimmed (Text.strip Text.isBlank line.toList)

/-! ## The file -/

/-- What has been read of a file: the heading that its next line stands under,
if there is one, and what the lines so far say. -/
structure Reading where
  heading : Option String
  file : VersionFile

def Reading.initial : Reading := ⟨none, empty⟩

/-- Reads a line.  A setting above the first heading says nothing. -/
def Reading.step (r : Reading) (line : String) : Reading :=
  match Line.of line, r.heading with
  | .heading name, _ => { r with heading := some name }
  | .setting key value, some heading => { r with file := r.file.set ⟨heading, key, value⟩ }
  | _, _ => r

def ofText (text : String) : VersionFile :=
  ((Text.lines text).foldl Reading.step .initial).file

def fileName : String := ".verinfo"

def load (surroundings : Surroundings) : Except ReadError VersionFile := do
  let text ← surroundings.fileText fileName
  .ok (ofText text)

/-- What is said about a version file that cannot be read. -/
def unreadable (e : ReadError) : String :=
  s!"Failed to read {fileName}: {e.message}"

end VersionFile

end ArithTree
