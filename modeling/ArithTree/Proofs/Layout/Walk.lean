/-
# Walking through a drawing

A drawing is flat: a list of nodes and a list of edges.  Whoever walks through
it finds the root as the node that no edge leads to, and the children of a node
by going through all edges.  Still it is like walking through the tree
(`navigation_ofExpr`), and the tree can be read off the drawing (`toExpr?`).

The induction needs to know what a part of the drawing shows when it is looked
at in the whole.  `Shows whole first part` says that, as far as the numbers from
`first` on are concerned that the part has, nodes and outgoing edges of the
whole are those of the part.  The two sides of an operator inherit it from the
operator (`Shows.left`, `Shows.right`), because edges from elsewhere have other
numbers at their source.
-/
import ArithTree.Proofs.Layout.Numbers

namespace ArithTree

namespace Layout

variable {α : Type}

/-! ## Ways through a drawing -/

/-- The child that a step leads to: the first or the second one. -/
def child? (layout : Layout α) (id : Nat) : Expr.Step → Option (Node α)
  | .left => (layout.children id)[0]?
  | .right => (layout.children id)[1]?

/-- The node at the end of a way that begins at the given node. -/
def walkFrom (layout : Layout α) (node : Node α) : List Expr.Step → Option (Node α)
  | [] => some node
  | step :: way => (layout.child? node.id step).bind (layout.walkFrom · way)

def walk? (layout : Layout α) (way : List Expr.Step) : Option (Node α) :=
  layout.root?.bind (layout.walkFrom · way)

/-- A place to draw at, and how far to the sides its children go. -/
structure Place (α : Type) where
  x : α
  y : α
  offset : α

namespace Place
variable [Coordinate α] (levelStep : α)

/-- To the left or to the right, a step further down, and half the distance from there. -/
def move (p : Place α) : Expr.Step → Place α
  | .left => ⟨p.x - p.offset, p.y + levelStep, Coordinate.half p.offset⟩
  | .right => ⟨p.x + p.offset, p.y + levelStep, Coordinate.half p.offset⟩

/-- The place at the end of a way. -/
def follow (p : Place α) (way : List Expr.Step) : Place α :=
  way.foldl (move levelStep) p

theorem follow_cons (p : Place α) (s : Expr.Step) (way : List Expr.Step) :
    p.follow levelStep (s :: way) = (p.move levelStep s).follow levelStep way := rfl

end Place

def Options.start (options : Options α) : Place α :=
  ⟨options.originX, options.originY, options.offset⟩

/-- The node stands for the root of the tree, at the place. -/
structure Depicts (layout : Layout α) (place : Place α) (node : Node α) (e : Expr) : Prop where
  label : node.label = e.label
  children : (layout.children node.id).length = if e.isOperand then 0 else 2
  x : node.x = place.x
  y : node.y = place.y

/-! ## Parts of a drawing -/

/-- The numbers of the part, from `first` on, have the nodes and the outgoing
edges in the whole that they have in the part. -/
structure Shows (whole : Layout α) (first : Nat) (part : Layout α) : Prop where
  node? : ∀ i < part.nodes.length, whole.node? (first + i) = part.nodes[i]?
  edges : ∀ id, first ≤ id → id < first + part.nodes.length →
    whole.edges.filter (·.source == id) = part.edges.filter (·.source == id)

section DrawFrom
variable [Coordinate α] {step : α} {whole : Layout α} {first : Nat} {x y offset : α}

theorem shows_ofExpr (options : Options α) (t : Expr) :
    Shows (ofExpr options t) 1
      (drawFrom options.levelStep 1 options.originX options.originY options.offset t) := by
  constructor
  · intro i _
    rw [Nat.add_comm]
    rfl
  · intro id _ _
    rfl

/-- No edge of a part comes from outside of its numbers. -/
theorem filter_edges_eq_nil {e : Expr} {id : Nat} (h : id < first ∨ first + e.nodeCount ≤ id) :
    (drawFrom step first x y offset e).edges.filter (·.source == id) = [] := by
  refine List.filter_eq_nil_iff.mpr fun edge hedge => ?_
  have hbounds := bounds_of_mem_edges _ _ _ _ _ _ edge hedge
  rw [beq_iff_eq]
  omega

theorem nodes_head (e : Expr) :
    (drawFrom step first x y offset e).nodes[0]? = some ⟨first, e.label, x, y⟩ := by
  cases e with
  | operand text => rfl
  | binary op left right => rfl

namespace Shows
variable {op : Operator} {l r e : Expr}

theorem head (h : Shows whole first (drawFrom step first x y offset e)) :
    whole.node? first = some ⟨first, e.label, x, y⟩ := by
  have hpos : 0 < (drawFrom step first x y offset e).nodes.length := by
    rw [length_nodes_drawFrom]
    exact e.nodeCount_pos
  exact (h.node? 0 hpos).trans (nodes_head e)

theorem left (h : Shows whole first (drawFrom step first x y offset (.binary op l r))) :
    Shows whole (first + 1)
      (drawFrom step (first + 1) (x - offset) (y + step) (Coordinate.half offset) l) := by
  have hlen := length_nodes_drawFrom step first x y offset (.binary op l r)
  rw [Expr.nodeCount_binary] at hlen
  constructor
  · intro i hi
    have hwhole := h.node? (i + 1)
    rw [length_nodes_drawFrom] at hi
    rw [hlen] at hwhole
    rw [Nat.add_assoc, Nat.add_comm 1, hwhole (by omega)]
    exact List.getElem?_append_left (by rw [length_nodes_drawFrom]; exact hi)
  · intro id hge hlt
    rw [length_nodes_drawFrom] at hlt
    rw [h.edges id (by omega) (by rw [hlen]; omega)]
    -- the edges to the children come from `first`, those of the right side from higher numbers
    have hfirst : (first == id) = false := beq_false_of_ne (by omega)
    simp only [drawFrom, length_nodes_drawFrom, List.filter_cons, List.filter_append, hfirst,
      Bool.false_eq_true, if_false]
    rw [filter_edges_eq_nil (e := r) (Or.inl (by omega)), List.append_nil]

theorem right (h : Shows whole first (drawFrom step first x y offset (.binary op l r))) :
    Shows whole (first + 1 + l.nodeCount)
      (drawFrom step (first + 1 + l.nodeCount) (x + offset) (y + step)
        (Coordinate.half offset) r) := by
  have hlen := length_nodes_drawFrom step first x y offset (.binary op l r)
  rw [Expr.nodeCount_binary] at hlen
  constructor
  · intro i hi
    have hwhole := h.node? (l.nodeCount + i + 1)
    rw [length_nodes_drawFrom] at hi
    rw [hlen] at hwhole
    rw [show first + 1 + l.nodeCount + i = first + (l.nodeCount + i + 1) by omega,
      hwhole (by omega)]
    simp only [drawFrom, List.getElem?_cons_succ, length_nodes_drawFrom]
    rw [List.getElem?_append_right (by rw [length_nodes_drawFrom]; omega), length_nodes_drawFrom,
      Nat.add_sub_cancel_left]
  · intro id hge hlt
    rw [length_nodes_drawFrom] at hlt
    rw [h.edges id (by omega) (by rw [hlen]; omega)]
    have hfirst : (first == id) = false := beq_false_of_ne (by omega)
    simp only [drawFrom, length_nodes_drawFrom, List.filter_cons, List.filter_append, hfirst,
      Bool.false_eq_true, if_false]
    rw [filter_edges_eq_nil (e := l) (Or.inr (by omega)), List.nil_append]

theorem children_operand {text : String}
    (h : Shows whole first (drawFrom step first x y offset (.operand text))) :
    whole.children first = [] := by
  rw [Layout.children, h.edges first (Nat.le_refl _) (Nat.lt_succ_self _)]
  rfl

theorem edges_binary
    (h : Shows whole first (drawFrom step first x y offset (.binary op l r))) :
    whole.edges.filter (·.source == first) =
      [⟨first, first + 1⟩, ⟨first, first + 1 + l.nodeCount⟩] := by
  have hpos := (Expr.binary op l r).nodeCount_pos
  rw [h.edges first (Nat.le_refl _) (by rw [length_nodes_drawFrom]; omega)]
  simp only [drawFrom, length_nodes_drawFrom, List.filter_cons, List.filter_append, beq_self_eq_true,
    if_true]
  rw [filter_edges_eq_nil (e := l) (Or.inl (by omega)),
    filter_edges_eq_nil (e := r) (Or.inl (by omega)), List.nil_append]

theorem children_binary
    (h : Shows whole first (drawFrom step first x y offset (.binary op l r))) :
    whole.children first =
      [⟨first + 1, l.label, x - offset, y + step⟩,
        ⟨first + 1 + l.nodeCount, r.label, x + offset, y + step⟩] := by
  rw [Layout.children, h.edges_binary]
  simp only [List.filterMap_cons, List.filterMap_nil, h.left.head, h.right.head]

end Shows

/-! ## Both walks together -/

theorem rel_imp {β γ : Type} {r r' : β → γ → Prop} {b : Option β} {c : Option γ}
    (hr : ∀ b c, r b c → r' b c) (h : Option.Rel r b c) : Option.Rel r' b c := by
  cases h with
  | none => exact .none
  | some h => exact .some (hr _ _ h)

theorem rel_bind {β γ β' γ' : Type} {r : β → γ → Prop} {r' : β' → γ' → Prop} {b : Option β}
    {c : Option γ} {f : β → Option β'} {g : γ → Option γ'} (h : Option.Rel r b c)
    (hr : ∀ b c, r b c → Option.Rel r' (f b) (g c)) : Option.Rel r' (b.bind f) (c.bind g) := by
  cases h with
  | none => exact .none
  | some h => exact hr _ _ h

/-- The node is the root of a drawing of the tree that begins at the place, and
the whole shows this drawing. -/
structure Drawn (step : α) (whole : Layout α) (place : Place α) (node : Node α) (e : Expr) :
    Prop where
  eq : node = ⟨node.id, e.label, place.x, place.y⟩
  shows_drawFrom : Shows whole node.id (drawFrom step node.id place.x place.y place.offset e)

theorem drawn_ofExpr (options : Options α) (t : Expr) : ∃ node,
    (ofExpr options t).root? = some node ∧
      Drawn options.levelStep (ofExpr options t) options.start node t := by
  obtain ⟨node, hroot, hnode⟩ := root?_ofExpr options t
  have hhead := (shows_ofExpr options t).head
  cases hnode.symm.trans hhead
  exact ⟨_, hroot, rfl, shows_ofExpr options t⟩

namespace Drawn
variable {place : Place α} {node : Node α} {e : Expr}

/-- One step leads in the drawing where it leads in the tree. -/
theorem child? (h : Drawn step whole place node e) (s : Expr.Step) :
    Option.Rel (Drawn step whole (place.move step s)) (whole.child? node.id s) (e.child? s) := by
  have hshows := h.shows_drawFrom
  cases e with
  | operand text =>
      cases s with
      | left =>
          rw [Layout.child?, hshows.children_operand]
          exact .none
      | right =>
          rw [Layout.child?, hshows.children_operand]
          exact .none
  | binary op left right =>
      cases s with
      | left =>
          rw [Layout.child?, hshows.children_binary]
          exact .some ⟨rfl, hshows.left⟩
      | right =>
          rw [Layout.child?, hshows.children_binary]
          exact .some ⟨rfl, hshows.right⟩

theorem walkFrom (h : Drawn step whole place node e) (way : List Expr.Step) :
    Option.Rel (Drawn step whole (place.follow step way))
      (whole.walkFrom node way) (e.descend? way) := by
  induction way generalizing place node e with
  | nil => exact .some h
  | cons s way ih =>
      rw [Layout.walkFrom, Expr.descend?]
      exact rel_bind (h.child? s) fun _ _ hnext => ih hnext

theorem depicts (h : Drawn step whole place node e) : Depicts whole place node e := by
  have hshows := h.shows_drawFrom
  rw [h.eq]
  refine ⟨rfl, ?_, rfl, rfl⟩
  cases e with
  | operand text => exact congrArg List.length hshows.children_operand
  | binary op left right => exact congrArg List.length hshows.children_binary

end Drawn

end DrawFrom

/-! ## The tree in a drawing

Read from the last node to the first, a drawing is a tree in postfix order with
the sides exchanged.  The edges tell where an operator is: an operand may have
any text. -/

end Layout

def Operator.ofText? (text : String) : Option Operator :=
  Operator.all.find? fun op => op.text == text

theorem Operator.ofText?_text (op : Operator) : Operator.ofText? op.text = some op := by
  cases op <;> rfl

namespace Layout

/-- The trees of the nodes, the first one first.  A node that no edge begins at
is an operand, and any other joins the two trees behind it. -/
def readNodes (edges : List Edge) : List (Nat × String) → Option (List Expr)
  | [] => some []
  | (id, label) :: nodes => do
    let trees ← readNodes edges nodes
    if (edges.filter (·.source == id)).isEmpty then
      some (.operand label :: trees)
    else
      match Operator.ofText? label, trees with
      | some op, left :: right :: trees => some (.binary op left right :: trees)
      | _, _ => none

/-- The tree that is drawn, if one is. -/
def Outline.toExpr? (outline : Outline) : Option Expr :=
  match readNodes outline.edges outline.nodes with
  | some [t] => some t
  | _ => none

section DrawFrom
variable [Coordinate α] {step : α} {whole : Layout α}

theorem Shows.read {e : Expr} (rest : List (Nat × String)) :
    ∀ {first : Nat} {x y offset : α}, Shows whole first (drawFrom step first x y offset e) →
      readNodes whole.edges ((drawFrom step first x y offset e).outline.nodes ++ rest) =
        (readNodes whole.edges rest).map (e :: ·) := by
  induction e generalizing rest with
  | operand text =>
      intro first x y offset h
      have hnone : whole.edges.filter (·.source == first) = [] :=
        h.edges first (Nat.le_refl _) (Nat.lt_succ_self _)
      show (readNodes whole.edges rest).bind _ = _
      rw [hnone]
      cases readNodes whole.edges rest with
      | none => rfl
      | some trees => rfl
  | binary op left right ihl ihr =>
      intro first x y offset h
      have hnodes : (drawFrom step first x y offset (.binary op left right)).outline.nodes ++ rest =
          (first, op.text) ::
            ((drawFrom step (first + 1) (x - offset) (y + step) (Coordinate.half offset)
                left).outline.nodes ++
              ((drawFrom step (first + 1 + left.nodeCount) (x + offset) (y + step)
                (Coordinate.half offset) right).outline.nodes ++ rest)) := by
        simp [drawFrom, outline]
      rw [hnodes, readNodes, ihl _ h.left, ihr _ h.right, h.edges_binary, Operator.ofText?_text]
      cases readNodes whole.edges rest with
      | none => rfl
      | some trees => rfl

end DrawFrom

section OfExpr
variable [Coordinate α] (options : Options α) (t : Expr)

theorem toExpr?_outline : (ofExpr options t).outline.toExpr? = some t := by
  have hread := (shows_ofExpr options t).read []
  rw [List.append_nil] at hread
  have hread : readNodes (ofExpr options t).outline.edges (ofExpr options t).outline.nodes =
      some [t] := hread
  rw [Outline.toExpr?, hread]

/-- A way leads through the drawing of a tree as far as it leads through the
tree: as every beginning of a way is a way, both are left at the same step.  The
node at its end is drawn for the tree there, at the place that the steps add up
to.  The tree can be read off the outline, so no other tree has the same
outline, whatever the options. -/
theorem navigation_ofExpr :
    (∀ way, Option.Rel (Depicts (ofExpr options t) (options.start.follow options.levelStep way))
      ((ofExpr options t).walk? way) (t.descend? way)) ∧
    (ofExpr options t).outline.toExpr? = some t ∧
    ∀ {β : Type} [Coordinate β] (options' : Options β) (u : Expr),
      (ofExpr options' u).outline = (ofExpr options t).outline ↔ u = t := by
  refine ⟨?_, toExpr?_outline options t, ?_⟩
  · intro way
    obtain ⟨node, hroot, hdrawn⟩ := drawn_ofExpr options t
    rw [walk?, hroot, Option.bind_some]
    exact rel_imp (fun _ _ hend => hend.depicts) (hdrawn.walkFrom way)
  · intro β _ options' u
    constructor
    · intro h
      have hu := toExpr?_outline options' u
      rw [h, toExpr?_outline options t] at hu
      exact (Option.some.inj hu).symm
    · rintro rfl
      rw [outline_ofExpr, outline_ofExpr]

end OfExpr

end Layout

end ArithTree
