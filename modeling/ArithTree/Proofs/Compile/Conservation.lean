/-
# What a compilation keeps of its tokens

Texts are accepted that are no expressions of the grammar, such as `a b +`.
Of these, too, nothing is lost and nothing is made up: the tree has the
operands of the text for its leaves, in the order of the text, and its
operators in some order (`compile_conserves`).

The tokens are followed backwards.  The postfix sequence is the postorder of
the tree, and it was made of the tokens by moving operators alone; so whatever
a postorder shows of a tree is to be found among the tokens.
-/
import ArithTree.Proofs.Bracketed
import ArithTree.Proofs.Layout.Numbers

namespace ArithTree

namespace Expr

/-- The operators of the tree, each before those of its sides. -/
def signs : Expr → List Operator
  | .operand _ => []
  | .binary op left right => op :: (left.signs ++ right.signs)

theorem filter_isOperand_postorder (t : Expr) :
    t.postorder.filter Token.isOperand = t.leaves.map .operand := by
  induction t with
  | operand text => rfl
  | binary op left right ihl ihr =>
      rw [postorder, List.filter_append, List.filter_append, ihl, ihr, leaves, List.map_append]
      exact List.append_nil _

theorem filter_isOperator_postorder (t : Expr) :
    (t.postorder.filter Token.isOperator).Perm (t.signs.map .operator) := by
  induction t with
  | operand text => exact .nil
  | binary op left right ihl ihr =>
      rw [postorder, List.filter_append, List.filter_append, signs, List.map_cons, List.map_append]
      exact (List.perm_append_singleton _ _).trans ((ihl.append ihr).cons _)

theorem length_leaves (t : Expr) : t.leaves.length = t.operandCount := by
  induction t with
  | operand text => rfl
  | binary op left right ihl ihr => rw [leaves, List.length_append, ihl, ihr, operandCount]

theorem length_signs (t : Expr) : t.signs.length = t.operatorCount := by
  induction t with
  | operand text => rfl
  | binary op left right ihl ihr =>
      rw [signs, List.length_cons, List.length_append, ihl, ihr, operatorCount]
      omega

end Expr

theorem Token.filter_isOperator_bare (tokens : List Token) :
    (Token.bare tokens).filter Token.isOperator = tokens.filter Token.isOperator := by
  rw [Token.bare, List.filter_filter]
  refine List.filter_congr fun token _ => ?_
  cases token with
  | operand _ | operator _ | paren _ => rfl

/-! ## The tree of some tokens -/

section Build
variable {tokens : List Token} {p : Parsed}

theorem leaves_of_build (h : build tokens = .ok p) :
    p.tree.leaves.map .operand = tokens.filter Token.isOperand := by
  obtain ⟨hpost, htree⟩ := build_eq_ok_iff.mp h
  rw [← Postfix.filter_isOperand_of_ofTokens hpost, Expr.eq_postorder_of_ofPostfix htree,
    Expr.filter_isOperand_postorder]

theorem signs_of_build (h : build tokens = .ok p) :
    (p.tree.signs.map .operator).Perm (tokens.filter Token.isOperator) := by
  obtain ⟨hpost, htree⟩ := build_eq_ok_iff.mp h
  have hperm := (Postfix.perm_of_ofTokens hpost).filter Token.isOperator
  rw [Token.filter_isOperator_bare, Expr.eq_postorder_of_ofPostfix htree] at hperm
  exact (Expr.filter_isOperator_postorder p.tree).symm.trans hperm

theorem operandCount_of_build (h : build tokens = .ok p) :
    p.tree.operandCount = Token.operands tokens := by
  have hlen := congrArg List.length (leaves_of_build h)
  rwa [List.length_map, Expr.length_leaves, ← List.countP_eq_length_filter] at hlen

theorem operatorCount_of_build (h : build tokens = .ok p) :
    p.tree.operatorCount = Token.operators tokens := by
  have hlen := (signs_of_build h).length_eq
  rwa [List.length_map, Expr.length_signs, ← List.countP_eq_length_filter] at hlen

end Build

/-! ## The compilation of a text -/

section Compile
variable {α : Type} [Coordinate α] {options : Layout.Options α} {source : String}
  {c : Compilation α}

/-- Everything in the compilation comes from the tokens, and every operand and
operator among them is there. -/
structure Conserved (tokens : List Token) (c : Compilation α) : Prop where
  leaves : c.tree.leaves.map .operand = tokens.filter Token.isOperand
  signs : (c.tree.signs.map .operator).Perm (tokens.filter Token.isOperator)
  sequence : c.sequence.Perm (Token.bare tokens)
  order : c.sequence.filter Token.isOperand = tokens.filter Token.isOperand
  operandCount : c.tree.operandCount = Token.operands tokens
  operatorCount : c.tree.operatorCount = Token.operators tokens
  surplus : c.tree.operandCount = c.tree.operatorCount + 1
  nodes : c.layout.nodes.length = c.tree.operandCount + c.tree.operatorCount
  edges : c.layout.edges.length + 1 = c.layout.nodes.length

/-- The leaves of the tree are the operands of the text in their order, and its
operators are those of the text.  The postfix sequence is all of these, with
the operands in their order.  So the numbers agree, and the drawing has a node
for each of them. -/
theorem compile_conserves (h : compile options source = .ok c) :
    ∃ tokens, lex source = .ok tokens ∧ Conserved tokens c := by
  obtain ⟨p, hparse, rfl⟩ := (compile_eq_ok_iff options source).mp h
  obtain ⟨tokens, hlex, hbuild⟩ := parse_eq_ok_iff.mp hparse
  have hpost := (build_eq_ok_iff.mp hbuild).1
  have hnodes := Layout.length_nodes_ofExpr options p.tree
  have hedges := Layout.length_edges_ofExpr options p.tree
  refine ⟨tokens, hlex, ?_⟩
  exact
    { leaves := leaves_of_build hbuild
      signs := signs_of_build hbuild
      sequence := Postfix.perm_of_ofTokens hpost
      order := Postfix.filter_isOperand_of_ofTokens hpost
      operandCount := operandCount_of_build hbuild
      operatorCount := operatorCount_of_build hbuild
      surplus := p.tree.operandCount_eq
      nodes := hnodes
      edges := hedges.trans hnodes.symm }

/-- The operators of the group stand behind their operands. -/
theorem conserves_misplaced_operators :
    let t : Expr := .binary .mul
      (.binary .sub (.operand "a") (.binary .sub (.operand "b") (.operand "7"))) (.operand "c")
    let c : Compilation Float := ⟨⟨t.postorder, t⟩, t.visits, Layout.ofExpr .standard t⟩
    compile .standard "(a b - 7 -) * c" = .ok c ∧
      ∃ tokens, lex "(a b - 7 -) * c" = .ok tokens ∧ Conserved tokens c := by
  intro t c
  have h : compile .standard "(a b - 7 -) * c" = .ok c := rfl
  exact ⟨h, compile_conserves h⟩

end Compile

end ArithTree
