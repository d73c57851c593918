/-
# Compiling an expression

The whole way from a text to what can be shown of it: the text is checked and
scanned, its tokens are put into postfix order and made into a tree, and the
tree is visited and drawn.  The first step that fails decides the answer.

A user who asks for it is told what is going on: each step that succeeds leaves
one event behind.  The events are functions of the same input as the results,
and no result depends on them.
-/
import ArithTree.Layout
import ArithTree.Postfix
import ArithTree.Source
import ArithTree.Token.Scan

namespace ArithTree

/-! ## Steps -/

/-- The tokens of a text without violations; a text without tokens is refused. -/
def lex (source : String) : Except CompileError (List Token) := do
  Source.check source
  match ← Token.scan source with
  | [] => .error .emptyExpression
  | tokens => .ok tokens

structure Parsed where
  sequence : List Token
  tree : Expr
  deriving DecidableEq, Repr

def build (tokens : List Token) : Except CompileError Parsed := do
  let sequence ← Postfix.ofTokens tokens
  let tree ← Expr.ofPostfix sequence
  .ok ⟨sequence, tree⟩

def parse (source : String) : Except CompileError Parsed := do
  let tokens ← lex source
  build tokens

/-- Everything that is made of an expression. -/
structure Compilation (α : Type) extends Parsed where
  visits : Expr.Visits
  layout : Layout α

/-- Compiles a text, drawing its tree with the given options. -/
def compile {α : Type} [Coordinate α] (options : Layout.Options α) (source : String) :
    Except CompileError (Compilation α) := do
  let parsed ← parse source
  .ok { parsed with
    visits := parsed.tree.visits
    layout := Layout.ofExpr options parsed.tree }

/-! ## Events -/

/-- The success of one step. -/
inductive Event where
  /-- so many tokens were scanned -/
  | lexed (tokens : Nat)
  /-- the postfix sequence was found -/
  | converted (sequence : List Token)
  /-- a tree was made, so large and so deep -/
  | built (nodes depth : Nat)
  /-- the tree was drawn -/
  | drawn (nodes edges : Nat)
  deriving DecidableEq, Repr

namespace Event

/-- The event as it is logged, the time left out. -/
def text : Event → String
  | .lexed tokens => s!"DEBUG exprtree: lexed expression tokens={tokens}"
  | .converted sequence =>
    s!"DEBUG exprtree: converted to postfix postfix={Token.join sequence}"
  | .built nodes depth => s!"DEBUG exprtree: built tree nodes={nodes} depth={depth}"
  | .drawn nodes edges =>
    s!"DEBUG exprtree::layout: assigned layout nodes={nodes} edges={edges}"

def ofLex (source : String) : List Event :=
  match lex source with
  | .ok tokens => [.lexed tokens.length]
  | .error _ => []

def ofBuild (tokens : List Token) : List Event :=
  match Postfix.ofTokens tokens with
  | .error _ => []
  | .ok sequence =>
    .converted sequence :: match Expr.ofPostfix sequence with
      | .error _ => []
      | .ok tree => [.built tree.nodeCount tree.depth]

/-- The events of making a tree of a text, its scanning left out. -/
def ofParse (source : String) : List Event :=
  match lex source with
  | .ok tokens => ofBuild tokens
  | .error _ => []

def ofLayout {α : Type} [Coordinate α] (options : Layout.Options α) (source : String) :
    List Event :=
  match compile options source with
  | .ok c => [.drawn c.layout.nodes.length c.layout.edges.length]
  | .error _ => []

def ofCompile {α : Type} [Coordinate α] (options : Layout.Options α) (source : String) :
    List Event :=
  ofLex source ++ ofParse source ++ ofLayout options source

end Event

end ArithTree
