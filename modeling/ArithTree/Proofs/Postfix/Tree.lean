/-
# Postfix sequences as trees

Reading a postfix sequence undoes writing a tree in postorder, and nothing else
is read: `ofPostfix_postorder` and `eq_postorder_of_ofPostfix`.  Both are one
induction, the first over the tree with the sequence behind it and the finished
trees before it left open, the second over the sequence with the invariant that
the postorders of the finished trees are what has been read.

Which sequences are read to the end is a matter of counting (`Fed`): every
operator finds two operands more than operators before it.
-/
import ArithTree.Expr
import ArithTree.Postfix
import Mathlib.Data.List.Induction

namespace ArithTree

/-! ## Counting tokens -/

namespace Token

def isOperator : Token → Bool
  | .operator _ => true
  | _ => false

def operands (tokens : List Token) : Nat :=
  tokens.countP isOperand

def operators (tokens : List Token) : Nat :=
  tokens.countP isOperator

theorem operands_snoc (tokens : List Token) (token : Token) :
    operands (tokens ++ [token]) = operands tokens + if token.isOperand then 1 else 0 := by
  rw [operands, List.countP_append, List.countP_singleton, operands]

theorem operators_snoc (tokens : List Token) (token : Token) :
    operators (tokens ++ [token]) = operators tokens + if token.isOperator then 1 else 0 := by
  rw [operators, List.countP_append, List.countP_singleton, operators]

end Token

namespace Expr

open Token (operands operators operands_snoc operators_snoc)

/-! ## Writing and reading -/

theorem nodeCount_binary (op : Operator) (left right : Expr) :
    (binary op left right).nodeCount = left.nodeCount + right.nodeCount + 1 := by
  simp only [nodeCount, operandCount, operatorCount]
  omega

theorem nodeCount_pos (t : Expr) : 0 < t.nodeCount := by
  have := t.operandCount_eq
  rw [nodeCount]
  omega

/-- Reading the postorder of a tree puts the tree on top of the finished ones. -/
theorem assemble_postorder (t : Expr) : ∀ (position : Nat) (trees : List Expr)
    (rest : List Token), assemble position trees (t.postorder ++ rest) =
      assemble (position + t.nodeCount) (t :: trees) rest := by
  induction t with
  | operand text => intro position trees rest; rfl
  | binary op left right ihl ihr =>
      intro position trees rest
      rw [postorder, List.append_assoc, List.append_assoc, ihl, ihr, nodeCount_binary]
      simp only [List.cons_append, List.nil_append, assemble, Nat.add_assoc]

theorem ofPostfix_postorder (t : Expr) : ofPostfix t.postorder = .ok t := by
  have := assemble_postorder t 0 [] []
  rwa [List.append_nil] at this

/-- What is read to one tree is the postorder of that tree: the finished trees
account for what came before. -/
theorem postorder_of_assemble {t : Expr} : ∀ (tokens : List Token) (position : Nat)
    (trees : List Expr), assemble position trees tokens = .ok t →
      t.postorder = trees.reverse.flatMap postorder ++ tokens
  | [], _, [], h => nomatch h
  | [], _, [tree], h => by cases h; simp
  | [], _, _ :: _ :: _, h => nomatch h
  | .operand text :: tokens, position, trees, h => by
      have ih := postorder_of_assemble tokens (position + 1) (.operand text :: trees) h
      simpa [postorder] using ih
  | .operator op :: tokens, position, right :: left :: trees, h => by
      have ih := postorder_of_assemble tokens (position + 1) (.binary op left right :: trees) h
      simpa [postorder] using ih
  | .operator _ :: _, _, [], h => nomatch h
  | .operator _ :: _, _, [_], h => nomatch h
  | .paren _ :: _, _, _, h => nomatch h

theorem eq_postorder_of_ofPostfix {t : Expr} {tokens : List Token}
    (h : ofPostfix tokens = .ok t) : tokens = t.postorder :=
  (postorder_of_assemble tokens 0 [] h).symm

/-- A tree is read from its postorder and from no other sequence; so what is
read is written back token for token. -/
theorem ofPostfix_iff_postorder (tokens : List Token) (t : Expr) :
    (ofPostfix tokens = .ok t ↔ tokens = t.postorder) ∧
      ∃! sequence, ofPostfix sequence = .ok t := by
  have hiff : ∀ sequence, ofPostfix sequence = .ok t ↔ sequence = t.postorder := by
    intro sequence
    constructor
    · exact eq_postorder_of_ofPostfix
    · rintro rfl
      exact ofPostfix_postorder t
  refine ⟨hiff tokens, t.postorder, ofPostfix_postorder t, ?_⟩
  intro sequence h
  exact (hiff sequence).mp h

/-! ## Sequences that are read to the end -/

/-- What came before leaves too little for the token: an operator takes two
trees, and nothing is enough for a parenthesis. -/
def Starves (before : List Token) : Token → Prop
  | .operand _ => False
  | .operator _ => operands before < operators before + 2
  | .paren _ => True

/-- Every token finds what it needs in what came before. -/
def Fed (tokens : List Token) : Prop :=
  ∀ before token after, tokens = before ++ token :: after → ¬ Starves before token

theorem fed_nil : Fed [] := by
  intro before token after h
  exact absurd h.symm (by simp)

theorem fed_snoc {tokens : List Token} {token : Token} :
    Fed (tokens ++ [token]) ↔ Fed tokens ∧ ¬ Starves tokens token := by
  constructor
  · intro h
    refine ⟨fun before t after ht => h before t (after ++ [token]) ?_, h tokens token [] rfl⟩
    rw [ht, List.append_assoc, List.cons_append]
  · rintro ⟨h, ht⟩ before t after heq
    rcases List.eq_nil_or_concat after with rfl | ⟨after', last, rfl⟩
    · obtain ⟨rfl, hlast⟩ := List.append_inj' heq rfl
      cases hlast
      exact ht
    · rw [List.concat_eq_append, ← List.cons_append, ← List.append_assoc] at heq
      exact h before t after' (List.append_inj' heq rfl).1

theorem fed_or_starves (tokens : List Token) : Fed tokens ∨
    ∃ before token after, tokens = before ++ token :: after ∧ Fed before ∧
      Starves before token := by
  induction tokens using List.reverseRecOn with
  | nil => exact Or.inl fed_nil
  | append_singleton tokens token ih =>
      rcases ih with ih | ⟨before, t, after, rfl, hfed, ht⟩
      · by_cases h : Starves tokens token
        · exact Or.inr ⟨tokens, token, [], rfl, ih, h⟩
        · exact Or.inl (fed_snoc.mpr ⟨ih, h⟩)
      · refine Or.inr ⟨before, t, after ++ [token], ?_, hfed, ht⟩
        rw [List.append_assoc, List.cons_append]

/-- Tokens that are fed are read without a fault, and the number of finished
trees is the surplus of their operands. -/
theorem assemble_of_fed (tokens : List Token) : Fed tokens →
    ∃ trees : List Expr, trees.length + operators tokens = operands tokens ∧
      ∀ rest, assemble 0 [] (tokens ++ rest) = assemble tokens.length trees rest := by
  induction tokens using List.reverseRecOn with
  | nil => exact fun _ => ⟨[], rfl, fun _ => rfl⟩
  | append_singleton tokens token ih =>
      intro h
      obtain ⟨hfed, ht⟩ := fed_snoc.mp h
      obtain ⟨trees, hlen, hrun⟩ := ih hfed
      rw [operands_snoc, operators_snoc, List.length_append]
      simp only [List.append_assoc, List.singleton_append, List.length_singleton]
      cases token with
      | operand text =>
          refine ⟨.operand text :: trees, ?_, fun rest => hrun (.operand text :: rest)⟩
          show trees.length + 1 + operators tokens = operands tokens + 1
          omega
      | operator op =>
          have hop : operators tokens + 2 ≤ operands tokens := Nat.not_lt.mp ht
          -- two operands more than operators are two finished trees
          match trees, hlen, hrun with
          | right :: left :: trees, hlen, hrun =>
              refine ⟨.binary op left right :: trees, ?_,
                fun rest => hrun (.operator op :: rest)⟩
              simp only [List.length_cons] at hlen
              show trees.length + 1 + (operators tokens + 1) = operands tokens + 0
              omega
          | [_], hlen, _ | [], hlen, _ =>
              simp only [List.length_cons, List.length_nil] at hlen
              omega
      | paren side => exact absurd trivial ht

theorem ofPostfix_of_fed {tokens : List Token} (h : Fed tokens) :
    ∃ trees : List Expr, trees.length + operators tokens = operands tokens ∧
      ofPostfix tokens = assemble tokens.length trees [] := by
  obtain ⟨trees, hlen, hrun⟩ := assemble_of_fed tokens h
  refine ⟨trees, hlen, ?_⟩
  rw [← hrun [], List.append_nil]
  rfl

/-- The fault that is reported at a token which what came before leaves too little for. -/
def faultAt (before : List Token) : Token → Malformation
  | .operator op => .lacksOperands op before.length
  | .operand _ | .paren _ => .parenthesis before.length

/-- The first token that is not fed decides, whatever comes behind it. -/
theorem ofPostfix_of_starves {before : List Token} {token : Token} (after : List Token)
    (hfed : Fed before) (ht : Starves before token) :
    ofPostfix (before ++ token :: after) = .error (.malformedPostfix (faultAt before token)) := by
  obtain ⟨trees, hlen, hrun⟩ := assemble_of_fed before hfed
  show assemble 0 [] _ = _
  rw [hrun (token :: after)]
  match token, ht, trees, hlen with
  | .paren _, _, _, _ => rfl
  | .operator op, _, [], _ | .operator op, _, [_], _ => rfl
  | .operator op, ht, _ :: _ :: trees, hlen =>
      have ht : operands before < operators before + 2 := ht
      simp only [List.length_cons] at hlen
      omega

/-- Some operator has fewer than two operands more than operators before it, or
the operands of the whole are not one more than its operators. -/
def Deficient (tokens : List Token) : Prop :=
  (∃ before op after, tokens = before ++ .operator op :: after ∧
    operands before < operators before + 2) ∨ operands tokens ≠ operators tokens + 1

theorem ofPostfix_cases {tokens : List Token} (hbare : ∀ side, .paren side ∉ tokens) :
    (¬ Deficient tokens ∧ ∃ t, ofPostfix tokens = .ok t) ∨
      (Deficient tokens ∧ ∃ m, ofPostfix tokens = .error (.malformedPostfix m) ∧
        ∀ position, m ≠ .parenthesis position) := by
  rcases fed_or_starves tokens with hfed | ⟨before, token, after, rfl, hfed, ht⟩
  · obtain ⟨trees, hlen, hend⟩ := ofPostfix_of_fed hfed
    rw [hend]
    match trees, hlen with
    | [t], hlen =>
        refine Or.inl ⟨?_, t, rfl⟩
        rintro (⟨before, op, after, rfl, hop⟩ | hne)
        · exact hfed before (.operator op) after rfl hop
        · exact hne (by rw [← hlen]; exact Nat.add_comm 1 _)
    | [], hlen =>
        refine Or.inr ⟨Or.inr ?_, .noOperands, rfl, fun _ h => nomatch h⟩
        simp only [List.length_nil] at hlen
        omega
    | t :: u :: trees, hlen =>
        refine Or.inr ⟨Or.inr ?_, .disconnected _, rfl, fun _ h => nomatch h⟩
        simp only [List.length_cons] at hlen
        omega
  · refine Or.inr ?_
    cases token with
    | operand text => exact ht.elim
    | paren side => exact absurd (by simp) (hbare side)
    | operator op =>
        exact ⟨Or.inl ⟨before, op, after, rfl, ht⟩, .lacksOperands op before.length,
          ofPostfix_of_starves after hfed ht, fun _ h => nomatch h⟩

end Expr

end ArithTree
