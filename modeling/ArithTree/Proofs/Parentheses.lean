/-
# Parentheses

The stack of the conversion to postfix order matches parentheses: leave the
operators out of it, and what remains are the places of the parentheses that
are still open (`map_openings_run`).  So whether a list of tokens is converted
at all, and which parenthesis is at fault when it is not, does not depend on
the operands and operators in between.

`Balanced` is the same condition by counting: no beginning of the list closes
more than it opens, and the whole list closes all that it opens.  `Closes`
allows for parentheses that are open before the list, which is what an
induction over a list needs.
-/
import ArithTree.Proofs.Postfix.Run
import Mathlib.Tactic.MkIffOfInductiveProp

namespace ArithTree

def Token.paren? : Token → Option Paren
  | .paren side => some side
  | _ => none

def Token.parens (tokens : List Token) : List Paren :=
  tokens.filterMap Token.paren?

/-! ## Counting -/

/-- The parentheses close the `depth` many that are open before them and all of
their own. -/
@[mk_iff]
structure Closes (depth : Nat) (ps : List Paren) : Prop where
  /-- nothing is closed that is not open -/
  prefix_le : ∀ before, before <+: ps →
    before.count .closing ≤ depth + before.count .opening
  /-- nothing is left open -/
  count_eq : ps.count .closing = depth + ps.count .opening

/-- Every parenthesis has its partner. -/
def Balanced (ps : List Paren) : Prop := Closes 0 ps

theorem closes_nil {depth : Nat} : Closes depth [] ↔ depth = 0 := by
  constructor
  · intro h; exact h.count_eq.symm
  · rintro rfl
    refine ⟨fun before h => ?_, rfl⟩
    rw [List.prefix_nil.mp h]
    exact Nat.zero_le _

theorem closes_cons {depth : Nat} {p : Paren} {ps : List Paren} : Closes depth (p :: ps) ↔
    (∀ before, before <+: ps →
      (p :: before).count .closing ≤ depth + (p :: before).count .opening) ∧
    (p :: ps).count .closing = depth + (p :: ps).count .opening := by
  constructor
  · intro h
    exact ⟨fun before hb => h.prefix_le _ (List.cons_prefix_cons.mpr ⟨rfl, hb⟩), h.count_eq⟩
  · rintro ⟨h, heq⟩
    refine ⟨fun before hb => ?_, heq⟩
    rcases List.prefix_cons_iff.mp hb with rfl | ⟨before', rfl, hb'⟩
    · exact Nat.zero_le _
    · exact h before' hb'

theorem closes_opening {depth : Nat} {ps : List Paren} :
    Closes depth (.opening :: ps) ↔ Closes (depth + 1) ps := by
  rw [closes_cons, closes_iff]
  refine and_congr (forall₂_congr fun before _ => ?_) ?_
  · simp only [List.count_cons, beq_iff_eq, reduceCtorEq, if_false, if_true]
    omega
  · simp only [List.count_cons, beq_iff_eq, reduceCtorEq, if_false, if_true]
    omega

theorem closes_closing {depth : Nat} {ps : List Paren} :
    Closes (depth + 1) (.closing :: ps) ↔ Closes depth ps := by
  rw [closes_cons, closes_iff]
  refine and_congr (forall₂_congr fun before _ => ?_) ?_
  · simp only [List.count_cons, beq_iff_eq, reduceCtorEq, if_false, if_true]
    omega
  · simp only [List.count_cons, beq_iff_eq, reduceCtorEq, if_false, if_true]
    omega

theorem not_closes_closing {ps : List Paren} : ¬ Closes 0 (.closing :: ps) := by
  intro h
  have := h.prefix_le [.closing] (List.cons_prefix_cons.mpr ⟨rfl, List.nil_prefix⟩)
  exact absurd this (by decide)

/-! ## The parentheses on the stack -/

namespace Postfix

def Pending.opening? : Pending → Option Nat
  | .opening index => some index
  | .operator _ => none

/-- The places of the parentheses that are open on the stack, the innermost first. -/
def openings (stack : List Pending) : List Nat :=
  stack.filterMap Pending.opening?

theorem openings_operators (ops : List Operator) (rest : List Pending) :
    openings (ops.map .operator ++ rest) = openings rest := by
  induction ops with
  | nil => rfl
  | cons op ops ih => exact ih

theorem openings_map_operator (ops : List Operator) : openings (ops.map .operator) = [] := by
  have := openings_operators ops []
  rwa [List.append_nil] at this

theorem openings_append (stack rest : List Pending) :
    openings (stack ++ rest) = openings stack ++ openings rest :=
  List.filterMap_append

theorem eq_operators_of_openings {stack : List Pending} (h : openings stack = []) :
    ∃ ops : List Operator, stack = ops.map .operator := by
  obtain ⟨ops, rfl | ⟨i, rest, rfl⟩⟩ := exists_group stack
  · exact ⟨ops, rfl⟩
  · rw [openings_operators] at h
    exact nomatch h

/-- The places of the parentheses that are open behind the tokens, some being
open before them; the innermost first. -/
def unclosed (opened : List Nat) (index : Nat) : List Token → Except CompileError (List Nat)
  | [] => .ok opened
  | .paren .opening :: tokens => unclosed (index :: opened) (index + 1) tokens
  | .paren .closing :: tokens =>
      match opened with
      | [] => .error (.unbalancedParentheses .unexpectedClose index)
      | _ :: opened => unclosed opened (index + 1) tokens
  | .operand _ :: tokens | .operator _ :: tokens => unclosed opened (index + 1) tokens

/-- The run matches parentheses as if there were nothing else. -/
theorem map_openings_run : ∀ (tokens : List Token) (out : List Token) (stack : List Pending)
    (index : Nat), (State.run ⟨out, stack⟩ index tokens).map (fun s => openings s.stack) =
      unclosed (openings stack) index tokens
  | [], _, _, _ => rfl
  | .operand _ :: tokens, _, stack, index => map_openings_run tokens _ stack (index + 1)
  | .paren .opening :: tokens, _, stack, index =>
      map_openings_run tokens _ (.opening index :: stack) (index + 1)
  | .operator op :: tokens, out, stack, index => by
      obtain ⟨ops, rest, rfl, hops, hrest⟩ := exists_keeps op.precedence stack
      rw [run_cons, step_operator out index hops hrest, openings_operators]
      exact map_openings_run tokens _ (.operator op :: rest) (index + 1)
  | .paren .closing :: tokens, out, stack, index => by
      obtain ⟨ops, rfl | ⟨i, rest, rfl⟩⟩ := exists_group stack
      · rw [run_cons, step_closing_unopened, openings_map_operator]
        rfl
      · rw [run_cons, step_closing, openings_operators]
        exact map_openings_run tokens _ rest (index + 1)

/-- What is left open at the end is at fault, the innermost of it. -/
def settle : List Nat → Except CompileError Unit
  | [] => .ok ()
  | index :: _ => .error (.unbalancedParentheses .unclosedOpen index)

theorem map_finish (s : State) : s.finish.map (fun _ => ()) = settle (openings s.stack) := by
  obtain ⟨out, stack⟩ := s
  obtain ⟨ops, rfl | ⟨i, rest, rfl⟩⟩ := exists_group stack
  · rw [finish_operators, openings_map_operator]
    rfl
  · rw [finish_opening, openings_operators]
    rfl

/-- Whether and where the conversion fails is decided by the parentheses alone. -/
theorem map_ofTokens (tokens : List Token) :
    (ofTokens tokens).map (fun _ => ()) = (unclosed [] 0 tokens).bind settle := by
  rw [← show _ = unclosed [] 0 tokens from map_openings_run tokens [] [] 0]
  show (Except.bind (State.run ⟨[], []⟩ 0 tokens) State.finish).map _ = _
  cases State.run ⟨[], []⟩ 0 tokens with
  | error e => rfl
  | ok s => exact map_finish s

theorem unclosed_eq_ok_nil_iff : ∀ (tokens : List Token) (opened : List Nat) (index : Nat),
    unclosed opened index tokens = .ok [] ↔ Closes opened.length (Token.parens tokens)
  | [], opened, index => by
      rw [show Token.parens [] = [] from rfl, closes_nil, List.length_eq_zero_iff]
      exact ⟨fun h => Except.ok.inj h, fun h => congrArg Except.ok h⟩
  | .operand _ :: tokens, opened, index => unclosed_eq_ok_nil_iff tokens opened (index + 1)
  | .operator _ :: tokens, opened, index => unclosed_eq_ok_nil_iff tokens opened (index + 1)
  | .paren .opening :: tokens, opened, index => by
      have ih := unclosed_eq_ok_nil_iff tokens (index :: opened) (index + 1)
      exact ih.trans closes_opening.symm
  | .paren .closing :: tokens, [], index => by
      constructor
      · intro h; exact nomatch h
      · intro h; exact absurd h not_closes_closing
  | .paren .closing :: tokens, _ :: opened, index => by
      have ih := unclosed_eq_ok_nil_iff tokens opened (index + 1)
      exact ih.trans closes_closing.symm

theorem unclosed_error {e : CompileError} : ∀ (tokens : List Token) {opened : List Nat}
    {index : Nat}, unclosed opened index tokens = .error e →
      ∃ i, e = .unbalancedParentheses .unexpectedClose i
  | .operand _ :: tokens, _, _, h | .operator _ :: tokens, _, _, h
  | .paren .opening :: tokens, _, _, h | .paren .closing :: tokens, _ :: _, _, h =>
      unclosed_error tokens h
  | .paren .closing :: _, [], index, h => by cases h; exact ⟨index, rfl⟩

theorem bind_settle_eq_ok_iff {r : Except CompileError (List Nat)} :
    r.bind settle = .ok () ↔ r = .ok [] := by
  match r with
  | .error _ => exact ⟨fun h => (nomatch h), fun h => (nomatch h)⟩
  | .ok [] => exact ⟨fun _ => rfl, fun _ => rfl⟩
  | .ok (_ :: _) => exact ⟨fun h => (nomatch h), fun h => (nomatch h)⟩

theorem exists_ofTokens_iff {tokens : List Token} :
    (∃ sequence, ofTokens tokens = .ok sequence) ↔ Balanced (Token.parens tokens) := by
  have hclosed : Balanced (Token.parens tokens) ↔ (unclosed [] 0 tokens).bind settle = .ok () :=
    (unclosed_eq_ok_nil_iff tokens [] 0).symm.trans bind_settle_eq_ok_iff.symm
  rw [hclosed, ← map_ofTokens]
  cases ofTokens tokens with
  | error e =>
      constructor
      · rintro ⟨_, h⟩; exact nomatch h
      · intro h; exact nomatch h
  | ok sequence => exact ⟨fun _ => rfl, fun _ => ⟨sequence, rfl⟩⟩

theorem ofTokens_error {tokens : List Token} {e : CompileError}
    (h : ofTokens tokens = .error e) : ∃ kind index, e = .unbalancedParentheses kind index := by
  have hmap := map_ofTokens tokens
  rw [h] at hmap
  cases hu : unclosed [] 0 tokens with
  | error e' =>
      rw [hu] at hmap
      cases hmap
      obtain ⟨i, rfl⟩ := unclosed_error tokens hu
      exact ⟨_, i, rfl⟩
  | ok opened =>
      rw [hu] at hmap
      match opened, hmap with
      | i :: _, h => cases h; exact ⟨_, i, rfl⟩

end Postfix

end ArithTree
