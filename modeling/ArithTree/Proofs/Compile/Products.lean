/-
# One tree in all that is shown

The postfix sequence, the three visits, the drawing and the bracketed text are
each made in a way of their own.  For an accepted text they tell of one tree
(`compile_coherent`): the sequence is read back to it, the visits in postorder
and in preorder are the texts of the sequence and of the drawing, and the visit
in inorder is what the bracketed text says when its parentheses are left out.

The last of these goes through the scanner, which is why it is a statement
about accepted texts: their operands are scanned as they stand.
-/
import ArithTree.Proofs.Bracketed
import ArithTree.Proofs.Layout.Numbers

namespace ArithTree

namespace Expr

/-! ## Texts of tokens -/

theorem visited_cons (token : Token) (tokens : List Token) :
    visited (token :: tokens) = token.text ++ " " ++ visited tokens :=
  String.join_cons

theorem visited_eq_join : ∀ {tokens : List Token}, tokens ≠ [] →
    visited tokens = Token.join tokens ++ " "
  | [], h => absurd rfl h
  | [token], _ => by
      rw [visited_cons, Token.join_singleton]
      exact String.append_empty
  | token :: next :: tokens, _ => by
      have ih : visited (next :: tokens) = _ := visited_eq_join (List.cons_ne_nil _ _)
      rw [visited_cons, ih, Token.join_cons]
      exact String.append_assoc.symm

theorem postorder_ne_nil (t : Expr) : t.postorder ≠ [] := by
  rw [ne_eq, ← List.length_eq_zero_iff, length_postorder]
  exact t.nodeCount_pos.ne'

theorem bare_bracketedTokens (t : Expr) : Token.bare t.bracketedTokens = t.inorder := by
  induction t with
  | operand text => rfl
  | binary op left right ihl ihr =>
      rw [bracketedTokens, List.append_assoc, List.cons_append, inorder]
      show Token.bare (left.bracketedTokens ++ _) = _
      rw [Token.bare_append, ihl]
      show left.inorder ++ .operator op :: Token.bare (right.bracketedTokens ++ _) = _
      rw [Token.bare_append, ihr, show Token.bare [.paren .closing] = [] from rfl, List.append_nil]

end Expr

/-! ## The compilation of a text -/

section Compile
variable {α : Type} [Coordinate α] {options : Layout.Options α} {source : String}
  {c : Compilation α}

theorem visited_preorder (options : Layout.Options α) (t : Expr) :
    Expr.visited t.preorder =
      String.join ((Layout.ofExpr options t).nodes.map fun node => node.label ++ " ") := by
  have h := congrArg (List.map (· ++ " ")) (Layout.labels_ofExpr options t)
  rw [List.map_map, List.map_map] at h
  exact congrArg String.join h.symm

/-- Everything in the compilation tells of its tree. -/
structure Coherent (c : Compilation α) : Prop where
  sequence : Expr.ofPostfix c.sequence = .ok c.tree
  postorder : c.visits.postorder = Token.join c.sequence ++ " "
  preorder : c.visits.preorder = String.join (c.layout.nodes.map fun node => node.label ++ " ")
  inorder : ∃ tokens, Token.scan c.tree.bracketed = .ok tokens ∧
    c.visits.inorder = String.join ((Token.bare tokens).map fun token => token.text ++ " ")

/-- Everything that is made of an accepted text tells of the same tree. -/
theorem compile_coherent (h : compile options source = .ok c) : Coherent c := by
  obtain ⟨p, hparse, rfl⟩ := (compile_eq_ok_iff options source).mp h
  have hsequence := sequence_of_parse hparse
  have hscan : Token.scan p.tree.bracketed = .ok p.tree.bracketedTokens :=
    Token.scanFrom_eq_ok_iff.mpr (Expr.scans_bracketed (plain_of_parse hparse))
  constructor
  · rw [hsequence]
    exact Expr.ofPostfix_postorder p.tree
  · rw [hsequence]
    exact Expr.visited_eq_join p.tree.postorder_ne_nil
  · exact visited_preorder options p.tree
  · refine ⟨_, hscan, ?_⟩
    rw [Expr.bare_bracketedTokens]
    rfl

/-- Products before sums, and an operator behind its operands. -/
theorem coherent_mixed_order :
    let t : Expr := .binary .add (.operand "x")
      (.binary .mul (.binary .sub (.operand "12") (.operand "y")) (.operand "z"))
    let c : Compilation Float := ⟨⟨t.postorder, t⟩, t.visits, Layout.ofExpr .standard t⟩
    compile .standard "x + (12 y -) * z" = .ok c ∧ Coherent c := by
  intro t c
  have h : compile .standard "x + (12 y -) * z" = .ok c := rfl
  exact ⟨h, compile_coherent h⟩

end Compile

end ArithTree
