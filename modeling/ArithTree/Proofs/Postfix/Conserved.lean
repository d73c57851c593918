/-
# Nothing is lost on the way

What has been put out and what waits on the stack are together the tokens that
were taken, in some order, without the parentheses.  One step keeps this, so a
run does; at the end nothing waits, so a postfix sequence is a rearrangement of
the operands and operators it was made of (`perm_of_ofTokens`).  The operands
are not moved against each other (`filter_isOperand_of_ofTokens`).
-/
import ArithTree.Proofs.Parentheses

namespace ArithTree

/-- The operands and operators among some tokens. -/
def Token.bare (tokens : List Token) : List Token :=
  tokens.filter fun token => token.paren?.isNone

theorem Token.bare_append (ts us : List Token) :
    Token.bare (ts ++ us) = Token.bare ts ++ Token.bare us :=
  List.filter_append ts us

namespace Postfix

def Pending.token? : Pending → Option Token
  | .operator op => some (.operator op)
  | .opening _ => none

def waiting (stack : List Pending) : List Token :=
  stack.filterMap Pending.token?

theorem waiting_operators (ops : List Operator) (rest : List Pending) :
    waiting (ops.map .operator ++ rest) = ops.map .operator ++ waiting rest := by
  induction ops with
  | nil => rfl
  | cons op ops ih => exact congrArg (Token.operator op :: ·) ih

theorem waiting_map_operator (ops : List Operator) :
    waiting (ops.map .operator) = ops.map .operator := by
  have := waiting_operators ops []
  rwa [List.append_nil, show waiting [] = [] from rfl, List.append_nil] at this

/-- The output and the stack of a state hold the tokens, less the parentheses. -/
def Holds (taken : List Token) (s : State) : Prop :=
  (s.output ++ waiting s.stack).Perm (Token.bare taken)

theorem Holds.step {taken : List Token} {s s' : State} {token : Token} {index : Nat}
    (hs : Holds taken s) (h : Steps index s token s') : Holds (taken ++ [token]) s' := by
  unfold Holds at hs ⊢
  rw [Token.bare_append]
  cases h with
  | @operand out stack text =>
      show List.Perm (out ++ [Token.operand text] ++ waiting stack)
        (Token.bare taken ++ [Token.operand text])
      rw [List.append_assoc]
      refine (List.perm_middle.trans ?_).trans (List.perm_append_singleton _ _).symm
      exact hs.cons (.operand text)
  | @operator out op ops rest _ _ =>
      show List.Perm (out ++ ops.map Token.operator ++ Token.operator op :: waiting rest)
        (Token.bare taken ++ [Token.operator op])
      rw [waiting_operators, ← List.append_assoc] at hs
      refine (List.perm_middle.trans ?_).trans (List.perm_append_singleton _ _).symm
      exact hs.cons (.operator op)
  | @opening out stack =>
      rw [show Token.bare [.paren .opening] = [] from rfl, List.append_nil]
      exact hs
  | @closing out ops i rest =>
      rw [show Token.bare [.paren .closing] = [] from rfl, List.append_nil]
      rw [waiting_operators, ← List.append_assoc] at hs
      exact hs

theorem holds_of_run {tokens : List Token} {s : State}
    (h : State.initial.run 0 tokens = .ok s) : Holds tokens s :=
  run_induction (fun _ _ _ _ hs h => hs.step h) tokens [] State.initial s (List.Perm.refl _) h

theorem perm_of_ofTokens {tokens sequence : List Token} (h : ofTokens tokens = .ok sequence) :
    sequence.Perm (Token.bare tokens) := by
  obtain ⟨out, ops, hrun, rfl⟩ := exists_run_of_ofTokens h
  have hs := holds_of_run hrun
  rwa [Holds, waiting_map_operator] at hs

theorem mem_of_mem_sequence {tokens sequence : List Token} (h : ofTokens tokens = .ok sequence)
    {token : Token} (ht : token ∈ sequence) : token ∈ tokens :=
  (List.mem_filter.mp ((perm_of_ofTokens h).mem_iff.mp ht)).1

theorem paren_not_mem_sequence {tokens sequence : List Token}
    (h : ofTokens tokens = .ok sequence) (side : Paren) : .paren side ∉ sequence := by
  intro ht
  exact nomatch (List.mem_filter.mp ((perm_of_ofTokens h).mem_iff.mp ht)).2

/-! ## The order of the operands -/

theorem filter_isOperand_operators (ops : List Operator) :
    (ops.map Token.operator).filter Token.isOperand = [] := by
  induction ops with
  | nil => rfl
  | cons op ops ih => exact ih

/-- The operands among the tokens are those of the output, one after the other:
no operand ever waits. -/
def InOrder (taken : List Token) (s : State) : Prop :=
  s.output.filter Token.isOperand = taken.filter Token.isOperand

theorem InOrder.step {taken : List Token} {s s' : State} {token : Token} {index : Nat}
    (hs : InOrder taken s) (h : Steps index s token s') : InOrder (taken ++ [token]) s' := by
  unfold InOrder at hs ⊢
  rw [List.filter_append]
  cases h with
  | operand text =>
      rw [List.filter_append, hs]
  | operator _ _ | closing ops =>
      rw [List.filter_append, filter_isOperand_operators, hs]
      rfl
  | opening =>
      rw [hs]
      exact (List.append_nil _).symm

theorem filter_isOperand_of_ofTokens {tokens sequence : List Token}
    (h : ofTokens tokens = .ok sequence) :
    sequence.filter Token.isOperand = tokens.filter Token.isOperand := by
  obtain ⟨out, ops, hrun, rfl⟩ := exists_run_of_ofTokens h
  have hs : InOrder tokens ⟨out, ops.map .operator⟩ :=
    run_induction (fun _ _ _ _ hs h => hs.step h) tokens [] State.initial _ rfl hrun
  rw [List.filter_append, filter_isOperand_operators, List.append_nil]
  exact hs

end Postfix

end ArithTree
