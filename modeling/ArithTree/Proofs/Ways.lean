/-
# The ways through a tree

A node is not the same as the tree below it: one tree may stand at several
places.  What tells nodes apart is the way from the root to them.  `ways` lists
the ways in preorder, each once (`nodup_ways`), and these are the ways that stay
in the tree (`mem_ways`).  The number of a node is its place in that list.

From the list alone follows where the children of a node are numbered
(`number_children`): the left one next, the right one when the whole left side
has its numbers.

`LeftOf` says of two ways which of them ends further to the left, without a tree.
`across` lists the ways in inorder, and this is from the left to the right
(`pairwise_across`).
-/
import ArithTree.Proofs.Postfix.Tree
import Mathlib.Data.List.Nodup

namespace ArithTree.Expr

/-! ## Going down -/

theorem descend?_append (t : Expr) (way more : List Step) :
    t.descend? (way ++ more) = (t.descend? way).bind (·.descend? more) := by
  induction way generalizing t with
  | nil => rfl
  | cons step way ih =>
      rw [List.cons_append, descend?, descend?]
      cases t.child? step with
      | none => rfl
      | some e => exact ih e

theorem isSome_descend?_of_append {t : Expr} {way more : List Step}
    (h : (t.descend? (way ++ more)).isSome) : (t.descend? way).isSome := by
  rw [descend?_append] at h
  exact Option.isSome_of_isSome_bind h

/-! ## All ways -/

/-- The ways from the root to the nodes, in preorder. -/
def ways : Expr → List (List Step)
  | .operand _ => [[]]
  | .binary _ left right =>
    [] :: (left.ways.map (Step.left :: ·) ++ right.ways.map (Step.right :: ·))

/-- The number of the node at the end of a way, the nodes being counted from 1. -/
def number (t : Expr) (way : List Step) : Nat :=
  t.ways.idxOf way + 1

@[simp] theorem length_ways (t : Expr) : t.ways.length = t.nodeCount := by
  induction t with
  | operand text => rfl
  | binary op left right ihl ihr =>
      rw [ways, List.length_cons, List.length_append, List.length_map, List.length_map, ihl, ihr,
        nodeCount_binary]

theorem ways_eq_cons (t : Expr) : t.ways = [] :: t.ways.tail := by
  cases t with
  | operand text => rfl
  | binary op left right => rfl

theorem mem_ways {t : Expr} {way : List Step} : way ∈ t.ways ↔ (t.descend? way).isSome := by
  induction t generalizing way with
  | operand text =>
      cases way with
      | nil => simp [ways, descend?]
      | cons step way => cases step <;> simp [ways, descend?, child?, left?, right?]
  | binary op left right ihl ihr =>
      cases way with
      | nil => simp [ways, descend?]
      | cons step way => cases step <;> simp [ways, descend?, child?, left?, right?, ihl, ihr]

theorem mem_ways_of_descend? {t e : Expr} {way : List Step} (h : t.descend? way = some e) :
    way ∈ t.ways := by
  rw [mem_ways, h]
  rfl

theorem nodup_ways (t : Expr) : t.ways.Nodup := by
  induction t with
  | operand text => exact List.nodup_singleton _
  | binary op left right ihl ihr =>
      rw [ways, List.nodup_cons, List.nodup_append]
      refine ⟨by simp, ihl.map List.cons_injective, ihr.map List.cons_injective, ?_⟩
      -- the first steps differ
      rintro _ hl _ hr rfl
      obtain ⟨way, _, rfl⟩ := List.mem_map.mp hl
      obtain ⟨way', _, h⟩ := List.mem_map.mp hr
      exact nomatch h

/-- A way that is not the first one has a way before it that is one step shorter. -/
theorem mem_tail_ways {t : Expr} {way : List Step} (h : way ∈ t.ways.tail) :
    way ≠ [] ∧ way ∈ t.ways ∧ way.dropLast ∈ t.ways := by
  have hmem : way ∈ t.ways := List.mem_of_mem_tail h
  have hne : way ≠ [] := by
    rintro rfl
    have hnodup := t.nodup_ways
    rw [t.ways_eq_cons] at hnodup
    exact (List.nodup_cons.mp hnodup).1 h
  have hway : (t.descend? (way.dropLast ++ [way.getLast hne])).isSome := by
    rw [List.dropLast_append_getLast hne]
    exact mem_ways.mp hmem
  exact ⟨hne, hmem, mem_ways.mpr (isSome_descend?_of_append hway)⟩

theorem map_some_preorder (t : Expr) :
    t.preorder.map some = t.ways.map fun way => (t.descend? way).map root := by
  induction t with
  | operand text => rfl
  | binary op left right ihl ihr =>
      rw [preorder, ways, List.map_cons, List.map_cons, List.map_append, List.map_append, ihl, ihr,
        List.map_map, List.map_map]
      rfl

theorem root_at_way {t e : Expr} {way : List Step} (h : t.descend? way = some e) :
    t.preorder[t.ways.idxOf way]? = some e.root := by
  have hway : t.ways[t.ways.idxOf way]? = some way :=
    List.getElem?_idxOf (mem_ways_of_descend? h)
  have hroot := congrArg (·[t.ways.idxOf way]?) (map_some_preorder t)
  simp only [List.getElem?_map, hway, Option.map_some, h] at hroot
  obtain ⟨token, htoken, hsome⟩ := Option.map_eq_some_iff.mp hroot
  cases hsome
  exact htoken

/-! ## Numbers -/

theorem idxOf_map_cons (step : Step) (way : List Step) (ws : List (List Step)) :
    (ws.map (step :: ·)).idxOf (step :: way) = ws.idxOf way := by
  induction ws with
  | nil => rfl
  | cons w ws ih => simp [List.idxOf_cons, ih]

section Number
variable (op : Operator) {left right : Expr} {way : List Step}

theorem number_left_cons (h : way ∈ left.ways) :
    (binary op left right).number (.left :: way) = left.number way + 1 := by
  have hmem : Step.left :: way ∈ left.ways.map (Step.left :: ·) := List.mem_map_of_mem h
  rw [number, ways, List.idxOf_cons_ne _ (List.cons_ne_nil _ _).symm,
    List.idxOf_append_of_mem hmem, idxOf_map_cons, number]

theorem number_right_cons :
    (binary op left right).number (.right :: way) = left.nodeCount + right.number way + 1 := by
  have hmem : Step.right :: way ∉ left.ways.map (Step.left :: ·) := by
    intro h
    obtain ⟨_, _, h⟩ := List.mem_map.mp h
    exact nomatch h
  rw [number, ways, List.idxOf_cons_ne _ (List.cons_ne_nil _ _).symm,
    List.idxOf_append_of_notMem hmem, idxOf_map_cons, List.length_map, length_ways, number]
  omega

end Number

theorem number_nil (t : Expr) : t.number [] = 1 := by
  rw [number, ways_eq_cons, List.idxOf_cons_self]

/-- The left child of a node has the next number, and the right child the one
after those of the left side. -/
theorem number_children {t left right : Expr} {op : Operator} {way : List Step}
    (h : t.descend? way = some (.binary op left right)) :
    t.number (way ++ [.left]) = t.number way + 1 ∧
      t.number (way ++ [.right]) = t.number way + 1 + left.nodeCount := by
  induction way generalizing t with
  | nil =>
      cases h
      rw [List.nil_append, List.nil_append, number_nil, number_right_cons, number_nil,
        number_left_cons op (by rw [ways_eq_cons]; exact List.mem_cons_self), number_nil]
      exact ⟨rfl, by omega⟩
  | cons step way ih =>
      cases t with
      | operand text => cases step <;> exact nomatch h
      | binary op' l r =>
          cases step with
          | left =>
              have hway : l.descend? way = some (.binary op left right) := h
              have hleft : l.descend? (way ++ [.left]) = some left := by
                rw [descend?_append, hway]
                rfl
              have hright : l.descend? (way ++ [.right]) = some right := by
                rw [descend?_append, hway]
                rfl
              obtain ⟨ihl, ihr⟩ := ih hway
              rw [List.cons_append, List.cons_append,
                number_left_cons op' (mem_ways_of_descend? hway),
                number_left_cons op' (mem_ways_of_descend? hleft),
                number_left_cons op' (mem_ways_of_descend? hright), ihl, ihr]
              omega
          | right =>
              obtain ⟨ihl, ihr⟩ := ih (t := r) h
              rw [List.cons_append, List.cons_append, number_right_cons, number_right_cons,
                number_right_cons, ihl, ihr]
              omega

/-! ## From the left to the right -/

/-- The first way ends further to the left: it is on the left side of the other,
or the other on its right side, or they part in this way. -/
inductive LeftOf : List Step → List Step → Prop
  | left (way : List Step) : LeftOf (.left :: way) []
  | right (way : List Step) : LeftOf [] (.right :: way)
  | part (way way' : List Step) : LeftOf (.left :: way) (.right :: way')
  | under (step : Step) {way way' : List Step} :
      LeftOf way way' → LeftOf (step :: way) (step :: way')

theorem LeftOf.left_below (below : List Step) : ∀ way, LeftOf (way ++ .left :: below) way
  | [] => .left below
  | step :: way => .under step (left_below below way)

theorem LeftOf.right_below (below : List Step) : ∀ way, LeftOf way (way ++ .right :: below)
  | [] => .right below
  | step :: way => .under step (right_below below way)

/-- The ways from the root to the nodes, in inorder. -/
def across : Expr → List (List Step)
  | .operand _ => [[]]
  | .binary _ left right =>
    left.across.map (Step.left :: ·) ++ [] :: right.across.map (Step.right :: ·)

theorem across_perm_ways (t : Expr) : t.across.Perm t.ways := by
  induction t with
  | operand text => exact .refl _
  | binary op left right ihl ihr =>
      refine List.perm_middle.trans (.cons _ ?_)
      exact (ihl.map _).append (ihr.map _)

theorem map_some_inorder (t : Expr) :
    t.inorder.map some = t.across.map fun way => (t.descend? way).map root := by
  induction t with
  | operand text => rfl
  | binary op left right ihl ihr =>
      rw [inorder, across, List.map_append, List.map_append, List.map_cons, List.map_cons, ihl, ihr,
        List.map_map, List.map_map]
      rfl

theorem pairwise_across (t : Expr) : t.across.Pairwise LeftOf := by
  induction t with
  | operand text => exact List.pairwise_singleton _ _
  | binary op left right ihl ihr =>
      refine List.pairwise_append.mpr ⟨?_, List.pairwise_cons.mpr ⟨?_, ?_⟩, ?_⟩
      · exact List.pairwise_map.mpr (ihl.imp (.under .left))
      · intro way hway
        obtain ⟨way, _, rfl⟩ := List.mem_map.mp hway
        exact .right way
      · exact List.pairwise_map.mpr (ihr.imp (.under .right))
      · intro way hway way' hway'
        obtain ⟨way, _, rfl⟩ := List.mem_map.mp hway
        rcases List.mem_cons.mp hway' with rfl | hway'
        · exact .left way
        · obtain ⟨way', _, rfl⟩ := List.mem_map.mp hway'
          exact .part way way'

end ArithTree.Expr
