/-
# Nothing is drawn over anything else

Over exact numbers a drawing keeps left and right: what hangs to the left of a
node is drawn to its left, however far down, and the same on the right.  The
distances halve with every step, so a way that turns back towards the node never
gets there: all that is below a child lies within twice the distance of the
child (`Place.abs_follow_sub_lt`), and that is as far as the step to it has gone.

Which of two nodes is to be on the left, their ways say (`Expr.LeftOf`), and the
places at the ends of the ways keep to that (`Place.follow_x_lt_of_leftOf`).  As
inorder lists the ways from the left to the right, the rest follows.
-/
import ArithTree.Proofs.Layout.Walk
import Mathlib.Algebra.Order.Field.Basic
import Mathlib.Algebra.Order.Ring.Rat
import Mathlib.Tactic.Linarith
import Mathlib.Tactic.Ring

namespace ArithTree.Layout

/-! ## The node at the end of a way -/

variable {α : Type}

/-- The node that is drawn for the tree at the end of a way: the node with its number. -/
def nodeAt? (layout : Layout α) (t : Expr) (way : List Expr.Step) : Option (Node α) :=
  layout.node? (t.number way)

/-- The nodes in the order in which the tree has them in inorder. -/
def inorder (layout : Layout α) (t : Expr) : List (Node α) :=
  t.across.filterMap (layout.nodeAt? t)

section OfExpr
variable [Coordinate α]

/-- A node is drawn at the end of every way, at the place that the steps add up to. -/
theorem map_some_nodes_drawFrom (step : α) (base : Nat) (place : Place α) (e : Expr) :
    (drawFrom step (base + 1) place.x place.y place.offset e).nodes.map some =
      e.ways.map fun way => (e.descend? way).map fun e' =>
        ⟨base + e.number way, e'.label, (place.follow step way).x, (place.follow step way).y⟩ := by
  induction e generalizing base place with
  | operand text => rfl
  | binary op left right ihl ihr =>
      have hnext : base + 1 + 1 + left.nodeCount = base + 1 + left.nodeCount + 1 := by omega
      simp only [drawFrom, length_nodes_drawFrom, Expr.ways, List.map_cons, List.map_append,
        List.map_map]
      refine congrArg₂ List.cons ?_ (congrArg₂ (· ++ ·) ?_ ?_)
      · rw [Expr.number_nil]
        rfl
      · refine (ihl (base + 1) (place.move step .left)).trans (List.map_congr_left ?_)
        intro way hway
        rw [Function.comp_apply, Expr.number_left_cons op hway, Nat.add_assoc, Nat.add_comm 1]
        rfl
      · rw [hnext]
        refine (ihr (base + 1 + left.nodeCount) (place.move step .right)).trans
          (List.map_congr_left ?_)
        intro way _
        have hnumber : base + (left.nodeCount + right.number way + 1) =
            base + 1 + left.nodeCount + right.number way := by omega
        rw [Function.comp_apply, Expr.number_right_cons, hnumber]
        rfl

variable (options : Options α) (t : Expr)

theorem nodeAt?_ofExpr (way : List Expr.Step) :
    (ofExpr options t).nodeAt? t way = (t.descend? way).map fun e =>
      ⟨t.number way, e.label, (options.start.follow options.levelStep way).x,
        (options.start.follow options.levelStep way).y⟩ := by
  have hat := congrArg (·[t.ways.idxOf way]?)
    (map_some_nodes_drawFrom options.levelStep 0 options.start t)
  simp only [List.getElem?_map, Nat.zero_add] at hat
  show (ofExpr options t).nodes[t.ways.idxOf way]? = _
  cases hway : t.descend? way with
  | none =>
      have hnot : way ∉ t.ways := by
        rw [Expr.mem_ways, hway]
        exact Bool.false_ne_true
      rw [List.idxOf_eq_length hnot, Expr.length_ways, ← length_nodes_ofExpr options t]
      exact List.getElem?_length _
  | some e =>
      rw [List.getElem?_idxOf (Expr.mem_ways_of_descend? hway), Option.map_some, hway] at hat
      obtain ⟨node, hnode, hsome⟩ := Option.map_eq_some_iff.mp hat
      cases hsome
      exact hnode

theorem filterMap_nodeAt?_ways :
    t.ways.filterMap ((ofExpr options t).nodeAt? t) = (ofExpr options t).nodes := by
  have hnodes := map_some_nodes_drawFrom options.levelStep 0 options.start t
  simp only [Nat.zero_add, ← nodeAt?_ofExpr] at hnodes
  have hsome := congrArg (List.filterMap id) hnodes
  rw [List.filterMap_map, List.filterMap_map] at hsome
  exact hsome.symm.trans List.filterMap_some

theorem inorder_perm_nodes : ((ofExpr options t).inorder t).Perm (ofExpr options t).nodes := by
  rw [← filterMap_nodeAt?_ways options t]
  exact t.across_perm_ways.filterMap _

theorem labels_inorder :
    ((ofExpr options t).inorder t).map (·.label) = t.inorder.map Token.text := by
  have hroots := congrArg (List.filterMap (Option.map Token.text)) t.map_some_inorder
  rw [List.filterMap_map, List.filterMap_map] at hroots
  rw [inorder, List.map_filterMap, ← List.filterMap_eq_map]
  refine Eq.trans (List.filterMap_congr fun way _ => ?_) hroots.symm
  rw [nodeAt?_ofExpr, Function.comp_apply, Option.map_map, Option.map_map]
  rfl

end OfExpr

/-! ## Exact places -/

/-- Exact numbers, with the halves that they have. -/
instance : Coordinate ℚ where
  half distance := distance / 2

namespace Place
variable (levelStep : ℚ) {p : Place ℚ}

theorem move_offset (s : Expr.Step) : (p.move levelStep s).offset = p.offset / 2 := by
  cases s <;> rfl

theorem move_offset_pos (h : 0 < p.offset) (s : Expr.Step) :
    0 < (p.move levelStep s).offset := by
  rw [move_offset]
  exact half_pos h

theorem move_y (s : Expr.Step) : (p.move levelStep s).y = p.y + levelStep := by
  cases s <;> rfl

theorem abs_move_sub (h : 0 < p.offset) (s : Expr.Step) :
    |(p.move levelStep s).x - p.x| = p.offset := by
  cases s with
  | left =>
      show |p.x - p.offset - p.x| = p.offset
      rw [sub_sub_cancel_left, abs_neg, abs_of_pos h]
  | right =>
      show |p.x + p.offset - p.x| = p.offset
      rw [add_sub_cancel_left, abs_of_pos h]

theorem follow_y (way : List Expr.Step) :
    (p.follow levelStep way).y = p.y + way.length * levelStep := by
  induction way generalizing p with
  | nil => simp [follow]
  | cons s way ih => rw [follow_cons, ih, move_y, List.length_cons, Nat.cast_succ]; ring

/-- However far down, a way ends within twice the distance to the first children. -/
theorem abs_follow_sub_lt (h : 0 < p.offset) (way : List Expr.Step) :
    |(p.follow levelStep way).x - p.x| < 2 * p.offset := by
  induction way generalizing p with
  | nil => simpa [follow] using h
  | cons s way ih =>
      have hpos := move_offset_pos levelStep h s
      calc |(p.follow levelStep (s :: way)).x - p.x|
          ≤ |(p.follow levelStep (s :: way)).x - (p.move levelStep s).x| +
              |(p.move levelStep s).x - p.x| := abs_sub_le _ _ _
        _ < 2 * (p.move levelStep s).offset + p.offset := by
            rw [abs_move_sub levelStep h]
            exact add_lt_add_left (ih hpos) _
        _ = 2 * p.offset := by rw [move_offset]; ring

/-- Below a child, within the distance that the step to it has gone. -/
theorem abs_follow_cons_sub_lt (h : 0 < p.offset) (s : Expr.Step) (way : List Expr.Step) :
    |(p.follow levelStep (s :: way)).x - (p.move levelStep s).x| < p.offset := by
  have hlt := abs_follow_sub_lt levelStep (move_offset_pos levelStep h s) way
  rwa [move_offset, mul_div_cancel₀ _ two_ne_zero] at hlt

theorem follow_left_x_lt (h : 0 < p.offset) (below : List Expr.Step) :
    (p.follow levelStep (.left :: below)).x < p.x := by
  have hlt := (abs_lt.mp (abs_follow_cons_sub_lt levelStep h .left below)).2
  have hmove : (p.move levelStep .left).x = p.x - p.offset := rfl
  linarith

theorem lt_follow_right_x (h : 0 < p.offset) (below : List Expr.Step) :
    p.x < (p.follow levelStep (.right :: below)).x := by
  have hlt := (abs_lt.mp (abs_follow_cons_sub_lt levelStep h .right below)).1
  have hmove : (p.move levelStep .right).x = p.x + p.offset := rfl
  linarith

theorem follow_x_lt_of_leftOf {way way' : List Expr.Step} (hleft : Expr.LeftOf way way')
    (h : 0 < p.offset) : (p.follow levelStep way).x < (p.follow levelStep way').x := by
  induction hleft generalizing p with
  | left way => exact follow_left_x_lt levelStep h way
  | right way => exact lt_follow_right_x levelStep h way
  | part way way' =>
      exact (follow_left_x_lt levelStep h way).trans (lt_follow_right_x levelStep h way')
  | under s _ ih => exact ih (move_offset_pos levelStep h s)

end Place

/-! ## The drawing of a tree -/

/-- Every node of the drawing has a place of its own, on the side of every other
on which the tree has it. -/
structure Spread (options : Options ℚ) (layout : Layout ℚ) (t : Expr) : Prop where
  /-- every node of the tree is drawn, one level below the root for every step of its way -/
  level : ∀ way e, t.descend? way = some e → ∃ node, layout.nodeAt? t way = some node ∧
    node.label = e.label ∧ node.y = options.originY + way.length * options.levelStep
  /-- all that is on the left side of a node is drawn to its left -/
  left : ∀ way below node other, layout.nodeAt? t way = some node →
    layout.nodeAt? t (way ++ .left :: below) = some other → other.x < node.x
  /-- and all that is on its right side to its right -/
  right : ∀ way below node other, layout.nodeAt? t way = some node →
    layout.nodeAt? t (way ++ .right :: below) = some other → node.x < other.x
  /-- in inorder, every node is drawn to the right of those before it -/
  rising : (layout.inorder t).Pairwise fun node other => node.x < other.x
  /-- these are all nodes of the drawing, each once -/
  inorder_perm : (layout.inorder t).Perm layout.nodes
  /-- and they have the texts of the visit in inorder -/
  labels : (layout.inorder t).map (·.label) = t.inorder.map Token.text
  /-- no two nodes are drawn at one place -/
  nodup_places : (layout.nodes.map fun node => (node.x, node.y)).Nodup

section Exact
variable {options : Options ℚ} {t : Expr} {way way' : List Expr.Step} {node other : Node ℚ}

theorem x_of_nodeAt? (h : (ofExpr options t).nodeAt? t way = some node) :
    node.x = (options.start.follow options.levelStep way).x := by
  rw [nodeAt?_ofExpr] at h
  obtain ⟨e, _, rfl⟩ := Option.map_eq_some_iff.mp h
  rfl

theorem x_lt_of_leftOf (hoffset : 0 < options.offset) (hleft : Expr.LeftOf way way')
    (h : (ofExpr options t).nodeAt? t way = some node)
    (h' : (ofExpr options t).nodeAt? t way' = some other) : node.x < other.x := by
  rw [x_of_nodeAt? h, x_of_nodeAt? h']
  exact Place.follow_x_lt_of_leftOf options.levelStep hleft hoffset

theorem rising_inorder (hoffset : 0 < options.offset) :
    ((ofExpr options t).inorder t).Pairwise fun node other => node.x < other.x := by
  refine List.pairwise_filterMap.mpr (t.pairwise_across.imp ?_)
  intro way way' hleft node h other h'
  exact x_lt_of_leftOf hoffset hleft h h'

theorem nodup_places_ofExpr (hoffset : 0 < options.offset) :
    ((ofExpr options t).nodes.map fun node => (node.x, node.y)).Nodup := by
  refine ((inorder_perm_nodes options t).map _).nodup_iff.mp (List.pairwise_map.mpr ?_)
  refine (rising_inorder hoffset).imp fun hlt heq => ?_
  exact absurd (congrArg Prod.fst heq) hlt.ne

/-- Over exact numbers, and with the children of the root at some distance to its
sides, a drawing has left and right as the tree has them: inorder goes through it
from the left to the right, so nothing is drawn over anything else. -/
theorem spread_ofExpr (options : Options ℚ) (hoffset : 0 < options.offset) (t : Expr) :
    Spread options (ofExpr options t) t where
  level way e h := by
    rw [nodeAt?_ofExpr, h]
    exact ⟨_, rfl, rfl, Place.follow_y options.levelStep way⟩
  left way below node other h h' := x_lt_of_leftOf hoffset (.left_below below way) h' h
  right way below node other h h' := x_lt_of_leftOf hoffset (.right_below below way) h h'
  rising := rising_inorder hoffset
  inorder_perm := inorder_perm_nodes options t
  labels := labels_inorder options t
  nodup_places := nodup_places_ofExpr hoffset

end Exact

/-- `(a - b * (c + d)) / e`: from the left side of the root, three steps lead back
towards it, and `d` is drawn closest to the root of all, but to its left. -/
theorem spread_drifting_back :
    let options : Options ℚ := ⟨300, 50, 150, 150⟩
    let t : Expr := .binary .div (.binary .sub (.operand "a") (.binary .mul (.operand "b")
      (.binary .add (.operand "c") (.operand "d")))) (.operand "e")
    0 < options.offset ∧
      (ofExpr options t).nodeAt? t [] = some ⟨1, "/", 300, 50⟩ ∧
      (∃ node, (ofExpr options t).nodeAt? t [.left, .right, .right, .right] = some node ∧
        node.label = "d" ∧ node.x = 1125 / 4 ∧ node.y = 50 + (4 : ℕ) * 150) ∧
      (1125 / 4 : ℚ) < 300 ∧
      Spread options (ofExpr options t) t := by
  intro options t
  have hoffset : 0 < options.offset := by decide
  have hspread := spread_ofExpr options hoffset t
  have hroot : (ofExpr options t).nodeAt? t [] = some ⟨1, "/", 300, 50⟩ := rfl
  have hx : (options.start.follow options.levelStep [.left, .right, .right, .right]).x =
      1125 / 4 := by decide +kernel
  obtain ⟨node, hnode, hlabel, hlevel⟩ :=
    hspread.level [.left, .right, .right, .right] (.operand "d") rfl
  have hleft := hspread.left [] [.right, .right, .right] _ _ hroot hnode
  rw [x_of_nodeAt? hnode, hx] at hleft
  exact ⟨hoffset, hroot, ⟨node, hnode, hlabel, (x_of_nodeAt? hnode).trans hx, hlevel⟩, hleft,
    hspread⟩

end ArithTree.Layout
