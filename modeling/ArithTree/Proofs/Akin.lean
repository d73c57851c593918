/-
# Tokens of one kind

After the scanner, only the kind of a token counts and, for an operator, how
strongly it binds.  Two lists of tokens that agree in this at every place are
treated alike (`akin_treated_alike`): they fail at the same place for the same
cause, or their postfix sequences are the same rearrangement of them, and their
trees have one shape and are drawn with the same nodes and edges.  An operand may
be called `+` or `(` or nothing at all.

Tokens are akin exactly if they have the same pattern (`akin_iff_pattern`), and
each step makes of the patterns of its input the pattern of its answer.  So two
runs need not be followed together: both have the answer to their pattern.
-/
import ArithTree.Expr
import ArithTree.Layout
import ArithTree.Postfix
import ArithTree.Proofs.Postfix.Pattern
import Mathlib.Data.List.Forall2

namespace ArithTree

/-! ## Akin tokens, trees and errors -/

/-- Two operands with any texts, two operators that bind equally strong, or the
same parenthesis twice. -/
inductive Token.Akin : Token → Token → Prop
  | operand (text text' : String) : Akin (.operand text) (.operand text')
  | operator {op op' : Operator} : op.precedence = op'.precedence →
      Akin (.operator op) (.operator op')
  | paren (side : Paren) : Akin (.paren side) (.paren side)

/-- Trees of one shape with akin tokens at their nodes. -/
inductive Expr.Akin : Expr → Expr → Prop
  | operand (text text' : String) : Akin (.operand text) (.operand text')
  | binary {op op' : Operator} {left left' right right' : Expr} : op.precedence = op'.precedence →
      Akin left left' → Akin right right' → Akin (.binary op left right) (.binary op' left' right')

/-- The same error, or one that names an akin operator at the same position. -/
inductive CompileError.Akin : CompileError → CompileError → Prop
  | refl (e : CompileError) : Akin e e
  | lacksOperands {op op' : Operator} (position : Nat) : op.precedence = op'.precedence →
      Akin (.malformedPostfix (.lacksOperands op position))
        (.malformedPostfix (.lacksOperands op' position))

theorem Token.akin_iff_pattern {token token' : Token} :
    token.Akin token' ↔ token.pattern = token'.pattern := by
  constructor
  · intro h
    cases h with
    | operand _ _ | paren _ => rfl
    | operator h => exact congrArg Token.operator (Operator.pattern_eq_iff.mpr h)
  · intro h
    match token, token', h with
    | .operand text, .operand text', _ => exact .operand text text'
    | .operator op, .operator op', h =>
        exact .operator (Operator.pattern_eq_iff.mp (Token.operator.inj h))
    | .paren side, .paren side', h =>
        cases h
        exact .paren side

theorem Token.forall₂_akin_iff {tokens tokens' : List Token} :
    List.Forall₂ Akin tokens tokens' ↔ tokens.map pattern = tokens'.map pattern := by
  have hakin : Akin = fun token token' => token.pattern = token'.pattern :=
    funext₂ fun _ _ => propext akin_iff_pattern
  rw [← List.forall₂_eq_eq_eq, List.forall₂_map_left_iff, List.forall₂_map_right_iff, hakin]

def Expr.pattern : Expr → Expr
  | .operand _ => .operand ""
  | .binary op left right => .binary op.pattern left.pattern right.pattern

theorem Expr.akin_of_pattern_eq : ∀ {t t' : Expr}, t.pattern = t'.pattern → t.Akin t'
  | .operand text, .operand text', _ => .operand text text'
  | .binary op left right, .binary op' left' right', h => by
      obtain ⟨hop, hleft, hright⟩ := Expr.binary.inj h
      exact .binary (Operator.pattern_eq_iff.mp hop) (akin_of_pattern_eq hleft)
        (akin_of_pattern_eq hright)

/-- The error without the sign of the operator that it names. -/
def CompileError.pattern : CompileError → CompileError
  | .malformedPostfix (.lacksOperands op position) =>
    .malformedPostfix (.lacksOperands op.pattern position)
  | e => e

theorem CompileError.akin_of_pattern_eq {e e' : CompileError} (h : e.pattern = e'.pattern) :
    e.Akin e' := by
  unfold pattern at h
  split at h
  · split at h
    · obtain ⟨hop, rfl⟩ := Malformation.lacksOperands.inj (CompileError.malformedPostfix.inj h)
      exact .lacksOperands _ (Operator.pattern_eq_iff.mp hop)
    · next hne => exact absurd h.symm (hne _ _)
  · split at h
    · next hne _ _ _ => exact absurd h (hne _ _)
    · cases h
      exact .refl _

/-- Both fail or both succeed, with related errors or related results. -/
inductive Agree {ε ρ : Type} (error : ε → ε → Prop) (result : ρ → ρ → Prop) :
    Except ε ρ → Except ε ρ → Prop
  | error {e e' : ε} : error e e' → Agree error result (.error e) (.error e')
  | ok {a a' : ρ} : result a a' → Agree error result (.ok a) (.ok a')

theorem agree_of_map_eq {ε δ ρ σ : Type} {error : ε → ε → Prop} {result : ρ → ρ → Prop}
    {f : ε → δ} {g : ρ → σ} {r r' : Except ε ρ}
    (h : (r.map g).mapError f = (r'.map g).mapError f)
    (herror : ∀ e e', f e = f e' → error e e')
    (hresult : ∀ a a', r = .ok a → r' = .ok a' → g a = g a' → result a a') :
    Agree error result r r' := by
  cases r with
  | error e =>
      cases r' with
      | error e' => exact .error (herror e e' (Except.error.inj h))
      | ok a' => exact nomatch h
  | ok a =>
      cases r' with
      | error e' => exact nomatch h
      | ok a' => exact .ok (hresult a a' rfl rfl (Except.ok.inj h))

/-! ## Trees -/

namespace Expr

/-- Of the patterns, reading makes the pattern of the tree, or finds the same
fault but for the sign of the operator. -/
theorem assemble_pattern : ∀ (tokens : List Token) (position : Nat) (trees : List Expr),
    assemble position (trees.map pattern) (tokens.map Token.pattern) =
      ((assemble position trees tokens).map pattern).mapError CompileError.pattern
  | [], _, [] | [], _, [_] => rfl
  | [], _, t :: u :: trees => by
      simp [assemble, Except.map, Except.mapError, CompileError.pattern]
  | .operand text :: tokens, position, trees =>
      assemble_pattern tokens (position + 1) (.operand text :: trees)
  | .operator op :: tokens, position, right :: left :: trees =>
      assemble_pattern tokens (position + 1) (.binary op left right :: trees)
  | .operator _ :: _, _, [] | .operator _ :: _, _, [_] | .paren _ :: _, _, _ => rfl

theorem ofPostfix_pattern (tokens : List Token) : ofPostfix (tokens.map Token.pattern) =
    ((ofPostfix tokens).map pattern).mapError CompileError.pattern :=
  assemble_pattern tokens 0 []

theorem ofTokens_pattern (tokens : List Token) : ofTokens (tokens.map Token.pattern) =
    ((ofTokens tokens).map pattern).mapError CompileError.pattern := by
  unfold ofTokens
  rw [Postfix.ofTokens_pattern]
  cases h : Postfix.ofTokens tokens with
  | error e =>
      obtain ⟨kind, index, rfl⟩ := Postfix.ofTokens_error h
      rfl
  | ok sequence => exact ofPostfix_pattern sequence

end Expr

/-! ## Drawings -/

namespace Layout
variable {α : Type}

/-- The drawing without its texts: the numbers and the places of its nodes, and its edges. -/
def frame (layout : Layout α) : List (Nat × α × α) × List Edge :=
  (layout.nodes.map fun node => (node.id, node.x, node.y), layout.edges)

theorem frame_drawFrom_pattern [Coordinate α] (step : α) (t : Expr) :
    ∀ (first : Nat) (x y offset : α), (drawFrom step first x y offset t.pattern).frame =
      (drawFrom step first x y offset t).frame := by
  induction t with
  | operand text => exact fun _ _ _ _ => rfl
  | binary op left right ihl ihr =>
      intro first x y offset
      obtain ⟨hnodesl, hedgesl⟩ := Prod.mk.inj
        (ihl (first + 1) (x - offset) (y + step) (Coordinate.half offset))
      -- the numbers on the right begin behind those on the left
      have hlength := congrArg List.length hnodesl
      rw [List.length_map, List.length_map] at hlength
      obtain ⟨hnodesr, hedgesr⟩ := Prod.mk.inj
        (ihr (first + 1 + (drawFrom step (first + 1) (x - offset) (y + step)
          (Coordinate.half offset) left).nodes.length) (x + offset) (y + step)
          (Coordinate.half offset))
      simp only [frame, Expr.pattern, drawFrom, hlength, List.map_cons, List.map_append, hnodesl,
        hedgesl, hnodesr, hedgesr]

end Layout

section Congruent
variable {α : Type} [Coordinate α] {options : Layout.Options α}

/-- Trees of one shape with akin tokens at their nodes, which are drawn alike but
for the texts. -/
structure Expr.Congruent (options : Layout.Options α) (t t' : Expr) : Prop where
  akin : t.Akin t'
  frame : (Layout.ofExpr options t).frame = (Layout.ofExpr options t').frame

theorem Expr.congruent_of_pattern_eq {t t' : Expr} (h : t.pattern = t'.pattern) :
    Congruent options t t' := by
  refine ⟨akin_of_pattern_eq h, ?_⟩
  unfold Layout.ofExpr
  rw [← Layout.frame_drawFrom_pattern, h, Layout.frame_drawFrom_pattern]

/-! ## Two runs with one pattern -/

/-- The two sequences are the same rearrangement of the tokens that they are made of. -/
structure Postfix.Matching (tokens tokens' sequence sequence' : List Token) : Prop where
  akin : List.Forall₂ Token.Akin sequence sequence'
  left : Arranges (order tokens) tokens sequence
  right : Arranges (order tokens) tokens' sequence'

theorem agree_ofTokens {tokens tokens' : List Token}
    (h : tokens.map Token.pattern = tokens'.map Token.pattern) :
    Agree Eq (Postfix.Matching tokens tokens') (Postfix.ofTokens tokens)
      (Postfix.ofTokens tokens') := by
  have horder : Postfix.order tokens = Postfix.order tokens' := by
    rw [← Postfix.order_pattern, h, Postfix.order_pattern]
  have hpattern : (Postfix.ofTokens tokens).map (List.map Token.pattern) =
      (Postfix.ofTokens tokens').map (List.map Token.pattern) := by
    rw [← Postfix.ofTokens_pattern, h, Postfix.ofTokens_pattern]
  refine agree_of_map_eq (congrArg (Except.mapError id) hpattern) (fun _ _ => id) ?_
  intro sequence sequence' hleft hright hsame
  refine ⟨Token.forall₂_akin_iff.mpr hsame, Postfix.arranges_order hleft, ?_⟩
  rw [horder]
  exact Postfix.arranges_order hright

theorem agree_trees {r r' : Except CompileError Expr}
    (h : (r.map Expr.pattern).mapError CompileError.pattern =
      (r'.map Expr.pattern).mapError CompileError.pattern) :
    Agree CompileError.Akin (Expr.Congruent options) r r' :=
  agree_of_map_eq h (fun _ _ => CompileError.akin_of_pattern_eq)
    (fun _ _ _ _ => Expr.congruent_of_pattern_eq)

/-- Of akin tokens, the conversion to postfix order finds the same fault, or makes
akin sequences by the same rearrangement.  Read as a postfix sequence or as an
expression, they come to faults of the same kind at the same position, or to
trees of one shape with akin nodes and with drawings that differ in the texts alone. -/
theorem akin_treated_alike (options : Layout.Options α) {tokens tokens' : List Token}
    (h : List.Forall₂ Token.Akin tokens tokens') :
    Agree Eq (Postfix.Matching tokens tokens') (Postfix.ofTokens tokens)
      (Postfix.ofTokens tokens') ∧
    Agree CompileError.Akin (Expr.Congruent options) (Expr.ofPostfix tokens)
      (Expr.ofPostfix tokens') ∧
    Agree CompileError.Akin (Expr.Congruent options) (Expr.ofTokens tokens)
      (Expr.ofTokens tokens') := by
  have hpattern := Token.forall₂_akin_iff.mp h
  refine ⟨agree_ofTokens hpattern, agree_trees ?_, agree_trees ?_⟩
  · rw [← Expr.ofPostfix_pattern, hpattern, Expr.ofPostfix_pattern]
  · rw [← Expr.ofTokens_pattern, hpattern, Expr.ofTokens_pattern]

end Congruent

/-- The operands of the first list look like a sign, like nothing and like a parenthesis. -/
theorem akin_misleading_operands :
    let tokens : List Token := [.paren .opening, .operand "+", .operator .sub, .operand "",
      .paren .closing, .operator .div, .operand "("]
    let tokens' : List Token := [.paren .opening, .operand "x", .operator .add, .operand "y",
      .paren .closing, .operator .mul, .operand "z"]
    let t : Expr := .binary .div (.binary .sub (.operand "+") (.operand "")) (.operand "(")
    let t' : Expr := .binary .mul (.binary .add (.operand "x") (.operand "y")) (.operand "z")
    List.Forall₂ Token.Akin tokens tokens' ∧ Expr.ofTokens tokens = .ok t ∧
      Expr.ofTokens tokens' = .ok t' ∧ Postfix.Matching tokens tokens' t.postorder t'.postorder ∧
      Expr.Congruent .standard t t' := by
  intro tokens tokens' t t'
  have h : List.Forall₂ Token.Akin tokens tokens' := Token.forall₂_akin_iff.mpr rfl
  have ht : Expr.ofTokens tokens = .ok t := rfl
  have ht' : Expr.ofTokens tokens' = .ok t' := rfl
  have hsequence : Postfix.ofTokens tokens = .ok t.postorder := rfl
  have hsequence' : Postfix.ofTokens tokens' = .ok t'.postorder := rfl
  obtain ⟨hsequences, _, htrees⟩ := akin_treated_alike .standard h
  rw [hsequence, hsequence'] at hsequences
  rw [ht, ht'] at htrees
  cases hsequences with
  | ok hmatching =>
      cases htrees with
      | ok hcongruent => exact ⟨h, ht, ht', hmatching, hcongruent⟩

/-- The signs that lack operands are not the same, but their position is. -/
example :
    Expr.ofTokens [.operand "a", .operator .add, .operator .mul] =
        .error (.malformedPostfix (.lacksOperands .mul 1)) ∧
      Expr.ofTokens [.operand "*", .operator .sub, .operator .div] =
        .error (.malformedPostfix (.lacksOperands .div 1)) :=
  ⟨rfl, rfl⟩

end ArithTree
