/-
# The numbers of a drawing

The nodes of a drawing are numbered while it is made, and an edge is drawn
before the node that it leads to has a number.  What comes out is a numbering in
preorder: a node has the number of its way, and an edge leads from the number
of a way to the number of the way that is one step longer (`edges_drawFrom`).
`Numbered` says this of a drawing and a tree, together with what follows for
the look-ups; `numbered_ofExpr` says that the drawing of a tree is numbered so.

The inductions are over the tree, for a drawing that begins at any number.
-/
import ArithTree.Layout
import ArithTree.Proofs.Ways

namespace ArithTree

namespace Layout

variable {α : Type}

/-! ## What does not depend on the places -/

/-- A drawing without the places of its nodes. -/
structure Outline where
  nodes : List (Nat × String)
  edges : List Edge
  deriving DecidableEq, Repr

def outline (layout : Layout α) : Outline where
  nodes := layout.nodes.map fun node => (node.id, node.label)
  edges := layout.edges

/-- The edge to the end of a way, all numbers being higher by `base`. -/
def link (base : Nat) (t : Expr) (way : List Expr.Step) : Edge where
  source := base + t.number way.dropLast
  target := base + t.number way

section DrawFrom
variable [Coordinate α] (step : α)

theorem ids_drawFrom (first : Nat) (x y offset : α) (e : Expr) :
    (drawFrom step first x y offset e).nodes.map (·.id) = List.range' first e.nodeCount := by
  induction e generalizing first x y offset with
  | operand text => rfl
  | binary op left right ihl ihr =>
      rw [Expr.nodeCount_binary, List.range'_succ, ← List.range'_append_1]
      simp only [drawFrom, List.map_cons, List.map_append, ihl, ihr, length_nodes_drawFrom]

theorem labels_drawFrom (first : Nat) (x y offset : α) (e : Expr) :
    (drawFrom step first x y offset e).nodes.map (·.label) = e.preorder.map Token.text := by
  induction e generalizing first x y offset with
  | operand text => rfl
  | binary op left right ihl ihr =>
      simp only [drawFrom, Expr.preorder, List.map_cons, List.map_append, ihl, ihr]
      rfl

/-- An edge leads to a higher number, and neither end is outside of the drawing. -/
theorem bounds_of_mem_edges (first : Nat) (x y offset : α) (e : Expr) :
    ∀ edge ∈ (drawFrom step first x y offset e).edges,
      first ≤ edge.source ∧ edge.source < edge.target ∧ edge.target < first + e.nodeCount := by
  induction e generalizing first x y offset with
  | operand text =>
      intro edge h
      exact absurd h List.not_mem_nil
  | binary op left right ihl ihr =>
      intro edge h
      have hl := left.nodeCount_pos
      have hr := right.nodeCount_pos
      rw [Expr.nodeCount_binary]
      simp only [drawFrom, length_nodes_drawFrom, List.mem_cons, List.mem_append] at h
      rcases h with rfl | h | rfl | h
      · simp only; omega
      · have := ihl _ _ _ _ edge h; omega
      · simp only; omega
      · have := ihr _ _ _ _ edge h; omega

/-! ## Edges and ways -/

section Link
variable (base : Nat) (op : Operator) (left right : Expr)

theorem map_link_left :
    (left.ways.map (Expr.Step.left :: ·)).map (link base (.binary op left right)) =
      ⟨base + 1, base + 1 + 1⟩ :: left.ways.tail.map (link (base + 1) left) := by
  have hnil : [] ∈ left.ways := by rw [left.ways_eq_cons]; exact List.mem_cons_self
  rw [left.ways_eq_cons, List.map_cons, List.map_cons, List.map_map, List.tail_cons]
  refine congrArg₂ List.cons ?_ (List.map_congr_left fun way h => ?_)
  · simp only [link, List.dropLast_singleton, Expr.number_nil, Expr.number_left_cons op hnil]
  · obtain ⟨hne, hway, hparent⟩ := Expr.mem_tail_ways h
    simp only [link, Function.comp_apply, List.dropLast_cons_of_ne_nil hne,
      Expr.number_left_cons op hway, Expr.number_left_cons op hparent, Nat.add_assoc,
      Nat.add_comm 1]

theorem map_link_right :
    (right.ways.map (Expr.Step.right :: ·)).map (link base (.binary op left right)) =
      ⟨base + 1, base + 1 + 1 + left.nodeCount⟩ ::
        right.ways.tail.map (link (base + 1 + left.nodeCount) right) := by
  rw [right.ways_eq_cons, List.map_cons, List.map_cons, List.map_map, List.tail_cons]
  refine congrArg₂ List.cons ?_ (List.map_congr_left fun way h => ?_)
  · simp only [link, List.dropLast_singleton, Expr.number_nil, Expr.number_right_cons,
      Edge.mk.injEq, true_and]
    omega
  · obtain ⟨hne, _, _⟩ := Expr.mem_tail_ways h
    simp only [link, Function.comp_apply, List.dropLast_cons_of_ne_nil hne,
      Expr.number_right_cons, Edge.mk.injEq]
    omega

end Link

/-- An edge is drawn to every node but the root, from the node one step before it. -/
theorem edges_drawFrom (base : Nat) (x y offset : α) (e : Expr) :
    (drawFrom step (base + 1) x y offset e).edges = e.ways.tail.map (link base e) := by
  induction e generalizing base x y offset with
  | operand text => rfl
  | binary op left right ihl ihr =>
      have hnext : base + 1 + 1 + left.nodeCount = base + 1 + left.nodeCount + 1 := by omega
      rw [Expr.ways, List.tail_cons, List.map_append, map_link_left, map_link_right]
      simp only [drawFrom, length_nodes_drawFrom, ihl, List.cons_append]
      rw [hnext, ihr]

end DrawFrom

/-! ## The drawing of a tree -/

/-- The drawing is numbered as the tree is in preorder. -/
structure Numbered (layout : Layout α) (t : Expr) : Prop where
  /-- the nodes have the numbers from 1 on, in their order -/
  ids : layout.nodes.map (·.id) = List.range' 1 t.nodeCount
  /-- and the texts of the visit in preorder -/
  labels : layout.nodes.map (·.label) = t.preorder.map Token.text
  /-- the number of a way is that of the node at its end -/
  label_at : ∀ way e, t.descend? way = some e →
    (layout.node? (t.number way)).map (·.label) = some e.label
  /-- there is an edge to every way but the empty one, from the way one step shorter -/
  edges : layout.edges = t.ways.tail.map fun way => ⟨t.number way.dropLast, t.number way⟩
  length_edges : layout.edges.length + 1 = t.nodeCount
  target : ∀ k edge, layout.edges[k]? = some edge → edge.target = k + 2
  source_lt_target : ∀ edge ∈ layout.edges, edge.source < edge.target
  /-- the children of a node have the next number and the next after the left side -/
  children : ∀ way op left right, t.descend? way = some (.binary op left right) →
    t.number (way ++ [.left]) = t.number way + 1 ∧
      t.number (way ++ [.right]) = t.number way + 1 + left.nodeCount
  /-- a node is found under its own number and under no other -/
  node?_iff : ∀ id node, layout.node? id = some node ↔ node ∈ layout.nodes ∧ node.id = id
  isSome_node?_iff : ∀ id, (layout.node? id).isSome ↔ 1 ≤ id ∧ id ≤ t.nodeCount
  root? : ∃ node, layout.root? = some node ∧ layout.node? 1 = some node

section OfExpr
variable [Coordinate α] (options : Options α) (t : Expr)

theorem length_nodes_ofExpr : (ofExpr options t).nodes.length = t.nodeCount :=
  length_nodes_drawFrom _ _ _ _ _ _

theorem length_edges_ofExpr : (ofExpr options t).edges.length + 1 = t.nodeCount :=
  length_edges_drawFrom _ _ _ _ _ _

theorem ids_ofExpr : (ofExpr options t).nodes.map (·.id) = List.range' 1 t.nodeCount :=
  ids_drawFrom _ _ _ _ _ _

theorem labels_ofExpr : (ofExpr options t).nodes.map (·.label) = t.preorder.map Token.text :=
  labels_drawFrom _ _ _ _ _ _

theorem edges_ofExpr : (ofExpr options t).edges = t.ways.tail.map (link 0 t) :=
  edges_drawFrom _ 0 _ _ _ _

theorem bounds_ofExpr : ∀ edge ∈ (ofExpr options t).edges,
    1 ≤ edge.source ∧ edge.source < edge.target ∧ edge.target < 1 + t.nodeCount :=
  bounds_of_mem_edges _ _ _ _ _ _

theorem outline_ofExpr : (ofExpr options t).outline =
    ⟨(List.range' 1 t.nodeCount).zip (t.preorder.map Token.text),
      t.ways.tail.map (link 0 t)⟩ := by
  rw [outline, edges_ofExpr, ← ids_ofExpr options t, ← labels_ofExpr options t, List.zip_map']

theorem id_of_getElem? {i : Nat} {node : Node α} (h : (ofExpr options t).nodes[i]? = some node) :
    node.id = i + 1 := by
  have hi := congrArg (·[i]?) (ids_ofExpr options t)
  have hlt : i < t.nodeCount := by
    rw [← length_nodes_ofExpr options t]
    exact (List.getElem?_eq_some_iff.mp h).1
  simp only [List.getElem?_map, h, Option.map_some, List.getElem?_range' hlt,
    Option.some.injEq] at hi
  omega

theorem node?_ofExpr_eq_some_iff (id : Nat) (node : Node α) :
    (ofExpr options t).node? id = some node ↔
      node ∈ (ofExpr options t).nodes ∧ node.id = id := by
  constructor
  · intro h
    cases id with
    | zero => exact nomatch h
    | succ index =>
        have hindex : (ofExpr options t).nodes[index]? = some node := h
        exact ⟨List.mem_of_getElem? hindex, id_of_getElem? options t hindex⟩
  · rintro ⟨hmem, rfl⟩
    obtain ⟨index, hindex⟩ := List.mem_iff_getElem?.mp hmem
    rw [id_of_getElem? options t hindex]
    exact hindex

theorem isSome_node?_ofExpr_iff (id : Nat) :
    ((ofExpr options t).node? id).isSome ↔ 1 ≤ id ∧ id ≤ t.nodeCount := by
  cases id with
  | zero => simp [node?]
  | succ index =>
      rw [node?, isSome_getElem?, length_nodes_ofExpr]
      omega

theorem root?_ofExpr :
    ∃ node, (ofExpr options t).root? = some node ∧ (ofExpr options t).node? 1 = some node := by
  obtain ⟨node, hnode⟩ := Option.isSome_iff_exists.mp
    ((isSome_node?_ofExpr_iff options t 1).mpr ⟨Nat.le_refl 1, t.nodeCount_pos⟩)
  refine ⟨node, ?_, hnode⟩
  have hid := ((node?_ofExpr_eq_some_iff options t 1 node).mp hnode).2
  have hhead : (ofExpr options t).nodes.head? = some node := by
    rw [List.head?_eq_getElem?]
    exact hnode
  obtain ⟨rest, hrest⟩ := List.head?_eq_some_iff.mp hhead
  rw [root?, hrest]
  refine List.find?_cons_of_pos (List.all_eq_true.mpr fun edge hedge => ?_)
  have hbounds := bounds_ofExpr options t edge hedge
  rw [hid]
  exact bne_iff_ne.mpr (by omega)

theorem target_ofExpr {k : Nat} {edge : Edge} (h : (ofExpr options t).edges[k]? = some edge) :
    edge.target = k + 2 := by
  rw [edges_ofExpr, List.getElem?_map, List.getElem?_tail] at h
  obtain ⟨way, hway, rfl⟩ := Option.map_eq_some_iff.mp h
  obtain ⟨hlt, rfl⟩ := List.getElem?_eq_some_iff.mp hway
  simp only [link, Expr.number, t.nodup_ways.idxOf_getElem]
  omega

theorem label_at_way {way : List Expr.Step} {e : Expr} (h : t.descend? way = some e) :
    ((ofExpr options t).node? (t.number way)).map (·.label) = some e.label := by
  show ((ofExpr options t).nodes[t.ways.idxOf way]?).map (·.label) = _
  rw [← List.getElem?_map, labels_ofExpr, List.getElem?_map, Expr.root_at_way h]
  rfl

/-- The drawing of a tree is numbered in preorder, and the options have no part in that. -/
theorem numbered_ofExpr :
    Numbered (ofExpr options t) t ∧
      ∀ {β : Type} [Coordinate β] (options' : Options β),
        (ofExpr options' t).outline = (ofExpr options t).outline := by
  refine ⟨?_, fun options' => ?_⟩
  · exact
      { ids := ids_ofExpr options t
        labels := labels_ofExpr options t
        label_at := fun way e h => label_at_way options t h
        edges := (edges_ofExpr options t).trans
          (List.map_congr_left fun way _ => by simp only [link, Nat.zero_add])
        length_edges := length_edges_ofExpr options t
        target := fun k edge h => target_ofExpr options t h
        source_lt_target := fun edge h => (bounds_ofExpr options t edge h).2.1
        children := fun way op left right h => Expr.number_children h
        node?_iff := node?_ofExpr_eq_some_iff options t
        isSome_node?_iff := isSome_node?_ofExpr_iff options t
        root? := root?_ofExpr options t }
  · rw [outline_ofExpr, outline_ofExpr]

end OfExpr

end Layout

end ArithTree
