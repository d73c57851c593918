/-
# Reports

What the program puts out about an expression that compiles: three lines with
the visits of its tree, or a document with everything that a renderer needs.

A document is a JSON value.  Its text has one member or element a line, two
spaces further in at every level.  Strings keep every character above the
controls as it is; numbers that are not finite have no text in JSON and become
`null`.
-/
import ArithTree.Compile
import ArithTree.Decimal.Write

namespace ArithTree

/-! ## JSON -/

inductive Json where
  | natural (n : Nat)
  | real (x : Float)
  | string (s : String)
  | array (elements : List Json)
  /-- members in the order in which they are written -/
  | object (members : List (String × Json))

namespace Json

/-! ### Strings and numbers -/

/-- A digit in base sixteen, as a small letter from ten on. -/
def hexDigit (n : Nat) : Char :=
  Nat.digitChar (n % 16)

/-- A character inside a string: the short escape if it has one, four digits of
its code if it is another control, and itself otherwise. -/
def escape (c : Char) : List Char :=
  match c with
  | '"' => ['\\', '"']
  | '\\' => ['\\', '\\']
  | '\x08' => ['\\', 'b']
  | '\t' => ['\\', 't']
  | '\n' => ['\\', 'n']
  | '\x0c' => ['\\', 'f']
  | '\r' => ['\\', 'r']
  | c =>
    if c.toNat < 0x20 then ['\\', 'u', '0', '0', hexDigit (c.toNat / 16), hexDigit c.toNat]
    else [c]

def quoted (s : String) : String :=
  "\"" ++ String.ofList (s.toList.flatMap escape) ++ "\""

/-- Numbers are written without a power of ten from `0.00001` up to sixteen
digits before the point. -/
def numberStyle : Decimal.Style := ⟨-5, 15⟩

/-- A binary64 number; `null` if it is not finite. -/
def number (x : Float) : String :=
  if x.isFinite then Decimal.write numberStyle x else "null"

/-! ### Values -/

/-- The line break before what stands at a level. -/
def lineBreak (level : Nat) : String :=
  "\n" ++ String.ofList (List.replicate (2 * level) ' ')

/-- Lines between two brackets, one level further in than the brackets; nothing
stands between the brackets if there is no line. -/
def bracket (left right : String) (level : Nat) (lines : List String) : String :=
  if lines.isEmpty then left ++ right
  else
    left ++ ",".intercalate (lines.map fun line => lineBreak (level + 1) ++ line)
      ++ lineBreak level ++ right

mutual

def pretty (level : Nat) : Json → String
  | .natural n => toString n
  | .real x => number x
  | .string s => quoted s
  | .array elements => bracket "[" "]" level (prettyElements (level + 1) elements)
  | .object members => bracket "\x7b" "\x7d" level (prettyMembers (level + 1) members)

def prettyElements (level : Nat) : List Json → List String
  | [] => []
  | element :: elements => pretty level element :: prettyElements level elements

def prettyMembers (level : Nat) : List (String × Json) → List String
  | [] => []
  | (name, value) :: members =>
    (quoted name ++ ": " ++ pretty level value) :: prettyMembers level members

end

end Json

/-! ## Lines -/

def Expr.Visits.lines (visits : Expr.Visits) : List String :=
  ["Preorder:  " ++ visits.preorder,
   "Inorder:   " ++ visits.inorder,
   "Postorder: " ++ visits.postorder]

/-! ## Documents -/

def Layout.Node.document (node : Layout.Node Float) : Json :=
  .object [("id", .natural node.id), ("label", .string node.label),
    ("x", .real node.x), ("y", .real node.y)]

def Layout.Edge.document (edge : Layout.Edge) : Json :=
  .object [("from", .natural edge.source), ("to", .natural edge.target)]

def Compilation.document (source : String) (c : Compilation Float) : Json :=
  .object [
    ("expression", .string source),
    ("postfix", .array (c.sequence.map fun token => .string token.text)),
    ("preorder", .string c.visits.preorder),
    ("inorder", .string c.visits.inorder),
    ("postorder", .string c.visits.postorder),
    ("nodes", .array (c.layout.nodes.map Layout.Node.document)),
    ("edges", .array (c.layout.edges.map Layout.Edge.document))]

end ArithTree
