/-
# The conversion is complete for the grammar

Every phrase is read to its own syntax tree.  The induction is on the derivation, and what
it carries is `Reads`: the run over a phrase is described from an arbitrary
place in the middle of a larger run, with any output before it and any stack
below it that keeps its top against the weakest operator of the phrase.  After
the phrase a beginning of the postorder of its tree has been put out, and the
rest of that postorder, operators only, waits on top of that same stack.

The bound goes up on the right side of an operator (`Reads.binary`), which is
where the grammar asks for the next category, and may be anything inside of
parentheses (`Reads.group`).
-/
import ArithTree.Proofs.Grammar
import ArithTree.Proofs.Postfix.Run
import ArithTree.Proofs.Postfix.Tree

namespace ArithTree

open Postfix

/-- From any stack that keeps its top against the bound, the tokens put out the
postorder of the tree but for a last part, operators that bind at least as
strongly as the bound, which they leave on the stack. -/
def Reads (bound : Nat) (tokens : List Token) (t : Expr) : Prop :=
  ∀ (out : List Token) (stack : List Pending) (index : Nat), Keeps bound stack →
    ∃ (put : List Token) (ops : List Operator),
      State.run ⟨out, stack⟩ index tokens = .ok ⟨out ++ put, ops.map .operator ++ stack⟩ ∧
      put ++ ops.map .operator = t.postorder ∧ ∀ op ∈ ops, bound ≤ op.precedence

namespace Reads

theorem weaken {bound bound' : Nat} {tokens : List Token} {t : Expr} (h : bound ≤ bound')
    (ht : Reads bound' tokens t) : Reads bound tokens t := by
  intro out stack index hstack
  obtain ⟨put, ops, hrun, hpost, hops⟩ := ht out stack index (hstack.mono h)
  exact ⟨put, ops, hrun, hpost, fun op hop => Nat.le_trans h (hops op hop)⟩

theorem operand (bound : Nat) (text : String) :
    Reads bound [.operand text] (.operand text) := by
  intro out stack index _
  exact ⟨[.operand text], [], rfl, rfl, fun _ h => absurd h List.not_mem_nil⟩

/-- The operators that wait at a closing parenthesis are all put out. -/
theorem group {bound inner : Nat} {tokens : List Token} {t : Expr} (h : Reads inner tokens t) :
    Reads bound (.paren .opening :: (tokens ++ [.paren .closing])) t := by
  intro out stack index _
  obtain ⟨put, ops, hrun, hpost, _⟩ := h out (.opening index :: stack) (index + 1) trivial
  refine ⟨t.postorder, [], ?_, List.append_nil _, fun _ h => absurd h List.not_mem_nil⟩
  rw [run_cons, step_opening]
  show State.run _ (index + 1) _ = _
  rw [State.run_append, hrun]
  show (State.step _ _ _).bind _ = _
  rw [step_closing, List.append_assoc, hpost]
  rfl

/-- An operator puts out what waits of its left side, and itself waits for its
right side, which has to bind stronger. -/
theorem binary {op : Operator} {bound : Nat} {ts us : List Token} {l r : Expr}
    (hop : op.precedence = bound) (hl : Reads bound ts l) (hr : Reads (bound + 1) us r) :
    Reads bound (ts ++ .operator op :: us) (.binary op l r) := by
  subst hop
  intro out stack index hstack
  obtain ⟨put, ops, hrun, hpost, hops⟩ := hl out stack index hstack
  obtain ⟨put', ops', hrun', hpost', hops'⟩ :=
    hr (out ++ l.postorder) (.operator op :: stack) (index + ts.length + 1)
      (Nat.lt_succ_self op.precedence)
  refine ⟨l.postorder ++ put', ops' ++ [op], ?_, ?_, ?_⟩
  · rw [State.run_append, hrun]
    show State.run _ _ _ = _
    -- the sign takes off what waits of the left side, and nothing of the stack below
    rw [run_cons, step_operator _ _ hops hstack, List.append_assoc, hpost]
    show State.run _ _ _ = _
    rw [hrun', List.map_append, List.append_assoc, List.append_assoc]
    rfl
  · rw [List.map_append, ← List.append_assoc, List.append_assoc l.postorder, hpost']
    rfl
  · intro o ho
    rcases List.mem_append.mp ho with ho | ho
    · exact Nat.le_of_succ_le (hops' o ho)
    · cases List.mem_singleton.mp ho
      exact Nat.le_refl _

theorem ofTokens {bound : Nat} {tokens : List Token} {t : Expr} (h : Reads bound tokens t) :
    Postfix.ofTokens tokens = .ok t.postorder := by
  obtain ⟨put, ops, hrun, hpost, _⟩ := h [] [] 0 trivial
  rw [List.append_nil, List.nil_append] at hrun
  refine ofTokens_eq_ok_iff.mpr ⟨_, hrun, ?_⟩
  rw [finish_operators, hpost]

end Reads

/-- The weakest operator that a phrase of the category has outside of parentheses. -/
def Category.bound : Category → Nat
  | .expression => 1
  | .term => 2
  | .factor => 3

theorem Derives.reads {c : Category} {ts : List Token} {t : Expr} (h : Derives c ts t) :
    Reads c.bound ts t := by
  induction h with
  | term _ ih => exact ih.weaken (by decide)
  | factor _ ih => exact ih.weaken (by decide)
  | sum hop _ _ ihl ihr =>
      exact .binary (by rcases hop with rfl | rfl <;> rfl) ihl ihr
  | product hop _ _ ihl ihr =>
      exact .binary (by rcases hop with rfl | rfl <;> rfl) ihl ihr
  | operand text => exact .operand _ text
  | group _ ih => exact ih.group

theorem Expr.ofTokens_eq {tokens : List Token} {t : Expr}
    (h : Postfix.ofTokens tokens = .ok t.postorder) : Expr.ofTokens tokens = .ok t := by
  show (Postfix.ofTokens tokens).bind ofPostfix = .ok t
  rw [h]
  exact ofPostfix_postorder t

/-- A phrase is read to its own syntax tree, by way of the postorder of that tree. -/
theorem ofTokens_of_derives {ts : List Token} {t : Expr} (h : Derives .expression ts t) :
    Postfix.ofTokens ts = .ok t.postorder ∧ Expr.ofTokens ts = .ok t :=
  ⟨h.reads.ofTokens, Expr.ofTokens_eq h.reads.ofTokens⟩

/-- `a - b * ((c + d)) - e`: products first, sums to the left, and a pair of
parentheses too many. -/
theorem reads_nested_phrase :
    let ts : List Token := [.operand "a", .operator .sub, .operand "b", .operator .mul,
      .paren .opening, .paren .opening, .operand "c", .operator .add, .operand "d",
      .paren .closing, .paren .closing, .operator .sub, .operand "e"]
    let t : Expr := .binary .sub (.binary .sub (.operand "a")
      (.binary .mul (.operand "b") (.binary .add (.operand "c") (.operand "d")))) (.operand "e")
    Derives .expression ts t ∧ Postfix.ofTokens ts = .ok t.postorder ∧
      Expr.ofTokens ts = .ok t := by
  intro ts t
  have sum : Derives .expression [.operand "c", .operator .add, .operand "d"] _ :=
    .sum (Or.inl rfl) (.term (.factor (.operand "c"))) (.factor (.operand "d"))
  have inner := Derives.group (.term (.factor (.group sum)))
  have product := Derives.product (Or.inl rfl) (.factor (.operand "b")) inner
  have difference := Derives.sum (Or.inr rfl) (.term (.factor (.operand "a"))) product
  have whole : Derives .expression ts t := .sum (Or.inr rfl) difference (.factor (.operand "e"))
  exact ⟨whole, ofTokens_of_derives whole⟩

end ArithTree
