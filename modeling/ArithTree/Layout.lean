/-
# Layouts

A drawing of a tree for an outside renderer: the nodes with their places, and
the edges between them.  Nodes are numbered from 1 in preorder.  The left side
of an operator lies to its left and the right side to its right, one step
further down, and with every step the distance halves.

The arithmetic of coordinates is a parameter.  The program draws with binary64
numbers, but nothing here depends on how they round, and over exact numbers
the same definition has the geometry that one expects.
-/
import ArithTree.Expr

namespace ArithTree

/-- The arithmetic that a drawing needs of its coordinates. -/
class Coordinate (α : Type) extends Add α, Sub α where
  /-- half of a distance -/
  half : α → α

instance : Coordinate Float where
  half distance := distance / 2

namespace Layout

/-- Where a drawing begins and how far apart its nodes are. -/
structure Options (α : Type) where
  /-- the place of the root -/
  originX : α
  originY : α
  /-- how far to the side of the root its children are -/
  offset : α
  /-- how far below a node its children are -/
  levelStep : α
  deriving Repr

def Options.standard : Options Float where
  originX := 300
  originY := 50
  offset := 150
  levelStep := 150

structure Node (α : Type) where
  id : Nat
  label : String
  x : α
  y : α
  deriving Repr

/-- An edge of a drawing, by the numbers of its ends. -/
structure Edge where
  source : Nat
  target : Nat
  deriving DecidableEq, Repr

end Layout

/-- A drawing: its nodes and its edges, each in the order in which they are drawn. -/
structure Layout (α : Type) where
  nodes : List (Layout.Node α)
  edges : List Layout.Edge
  deriving Repr

namespace Layout

variable {α : Type}

/-! ## Drawing a tree -/

def empty : Layout α := ⟨[], []⟩

/-- Draws a tree.  Its root is at the given place and has the number `first`,
and its children are at the given distance to the side and one step below.  The
numbers of the left side follow on the root, those of the right side on the left
side, and the edge to a child stands before the edges of that child. -/
def drawFrom [Coordinate α] (step : α) (first : Nat) (x y offset : α) : Expr → Layout α
  | .operand text => ⟨[⟨first, text, x, y⟩], []⟩
  | .binary op left right =>
    let onLeft := drawFrom step (first + 1)
      (x - offset) (y + step) (Coordinate.half offset) left
    let next := first + 1 + onLeft.nodes.length
    let onRight := drawFrom step next
      (x + offset) (y + step) (Coordinate.half offset) right
    { nodes := ⟨first, op.text, x, y⟩ :: (onLeft.nodes ++ onRight.nodes)
      edges := ⟨first, first + 1⟩ :: (onLeft.edges ++ ⟨first, next⟩ :: onRight.edges) }

def ofExpr [Coordinate α] (options : Options α) (tree : Expr) : Layout α :=
  drawFrom options.levelStep 1 options.originX options.originY options.offset tree

@[simp] theorem length_nodes_drawFrom [Coordinate α] (step : α) (first : Nat) (x y offset : α)
    (e : Expr) : (drawFrom step first x y offset e).nodes.length = e.nodeCount := by
  induction e generalizing first x y offset with
  | operand _ => rfl
  | binary _ left right ihl ihr =>
    simp only [drawFrom, List.length_cons, List.length_append, ihl, ihr, Expr.nodeCount,
      Expr.operandCount, Expr.operatorCount]
    omega

theorem length_edges_drawFrom [Coordinate α] (step : α) (first : Nat) (x y offset : α)
    (e : Expr) : (drawFrom step first x y offset e).edges.length + 1 = e.nodeCount := by
  induction e generalizing first x y offset with
  | operand _ => rfl
  | binary _ left right ihl ihr =>
    have hl := ihl (first + 1) (x - offset) (y + step) (Coordinate.half offset)
    have hr := ihr (first + 1 + left.nodeCount) (x + offset) (y + step) (Coordinate.half offset)
    simp only [drawFrom, List.length_cons, List.length_append, length_nodes_drawFrom]
    simp only [Expr.nodeCount, Expr.operandCount, Expr.operatorCount] at hl hr ⊢
    omega

/-! ## Drawing into a drawing

The same drawing made by one pen that only ever adds behind what is there.  A
node gets the number of the place at which it is added, so that the edge to a
child is drawn when the child is not there yet.
-/

def nextId (layout : Layout α) : Nat :=
  layout.nodes.length + 1

def addNode (layout : Layout α) (label : String) (x y : α) : Layout α :=
  { layout with nodes := layout.nodes ++ [⟨layout.nextId, label, x, y⟩] }

theorem nextId_addNode (layout : Layout α) (label : String) (x y : α) :
    (layout.addNode label x y).nextId = layout.nextId + 1 := by
  simp [addNode, nextId]

def addEdge (layout : Layout α) (source : Nat) : Layout α :=
  { layout with edges := layout.edges ++ [⟨source, layout.nextId⟩] }

/-- Adds the nodes and edges of a tree. -/
def place [Coordinate α] (layout : Layout α) (step x y offset : α) : Expr → Layout α
  | .operand text => layout.addNode text x y
  | .binary op left right =>
    let id := layout.nextId
    let withLeft := ((layout.addNode op.text x y).addEdge id).place step
      (x - offset) (y + step) (Coordinate.half offset) left
    (withLeft.addEdge id).place step (x + offset) (y + step) (Coordinate.half offset) right

/-- What is added is the drawing that begins with the next number. -/
theorem place_eq [Coordinate α] (layout : Layout α) (step x y offset : α) (e : Expr) :
    layout.place step x y offset e =
      { nodes := layout.nodes ++ (drawFrom step layout.nextId x y offset e).nodes
        edges := layout.edges ++ (drawFrom step layout.nextId x y offset e).edges } := by
  induction e generalizing layout x y offset with
  | operand text => simp [place, addNode, drawFrom]
  | binary op left right ihl ihr =>
    let rooted := (layout.addNode op.text x y).addEdge layout.nextId
    let onLeft := drawFrom step (layout.nextId + 1)
      (x - offset) (y + step) (Coordinate.half offset) left
    have hrooted : rooted.nextId = layout.nextId + 1 := nextId_addNode layout op.text x y
    have hedges : rooted.edges = layout.edges ++ [⟨layout.nextId, layout.nextId + 1⟩] :=
      congrArg (fun id => layout.edges ++ [Edge.mk layout.nextId id]) hrooted
    have hleft : rooted.place step (x - offset) (y + step) (Coordinate.half offset) left =
        ⟨rooted.nodes ++ onLeft.nodes, rooted.edges ++ onLeft.edges⟩ := by
      rw [ihl, hrooted]
    have hnext : ∀ edges, nextId ⟨rooted.nodes ++ onLeft.nodes, edges⟩ =
        layout.nextId + 1 + left.nodeCount := by
      intro edges
      rw [← hrooted, nextId, nextId, List.length_append, length_nodes_drawFrom]
      omega
    have hplace : layout.place step x y offset (.binary op left right) =
        (addEdge ⟨rooted.nodes ++ onLeft.nodes, rooted.edges ++ onLeft.edges⟩ layout.nextId).place
          step (x + offset) (y + step) (Coordinate.half offset) right :=
      congrArg (fun drawn => (addEdge drawn layout.nextId).place step (x + offset) (y + step)
        (Coordinate.half offset) right) hleft
    rw [hplace, ihr]
    simp only [addEdge, hnext, hedges]
    simp [drawFrom, rooted, onLeft, addEdge, addNode]

theorem place_empty [Coordinate α] (options : Options α) (tree : Expr) :
    empty.place options.levelStep options.originX options.originY options.offset tree =
      ofExpr options tree := by
  rw [place_eq]
  rfl

/-! ## Reading a drawing -/

/-- The node at the place of a number: the number counts nodes from 1. -/
def node? (layout : Layout α) : Nat → Option (Node α)
  | 0 => none
  | index + 1 => layout.nodes[index]?

/-- The first node that no edge leads to. -/
def root? (layout : Layout α) : Option (Node α) :=
  layout.nodes.find? fun node => layout.edges.all fun edge => edge.target != node.id

/-- The nodes that the edges from a number lead to, in the order of the edges.
An edge that leads nowhere is passed over. -/
def children (layout : Layout α) (id : Nat) : List (Node α) :=
  (layout.edges.filter fun edge => edge.source == id).filterMap fun edge =>
    layout.node? edge.target

end Layout

end ArithTree
