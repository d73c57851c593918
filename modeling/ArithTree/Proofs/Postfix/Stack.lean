/-
# What is on the stack

The work after any beginning of the tokens, in terms of these tokens alone
(`Stacked`).  The open parentheses on the stack are those without a partner so
far, the latest on top.  Everywhere between two of them, and not only in the
innermost group, an operator lies on weaker ones only: a group that is closed
uncovers the group around it, and what was true there must still be.  As there
are two strengths, no more than two operators lie on each other.

Every step keeps each of these by a lemma of its own (`Rising.step`, `Holds.step`,
the lemmas of `Matched`); what is new here is what they come to for a whole state.
-/
import ArithTree.Proofs.Parentheses.Faults
import ArithTree.Proofs.Postfix.Release

namespace ArithTree.Postfix

open Token

/-! ## One group -/

/-- Every operator binds stronger than all that it lies on, the first being on top. -/
def Strengthening (ops : List Operator) : Prop :=
  ops.Pairwise fun upper lower => lower.precedence < upper.precedence

/-- There are no more of them than there are strengths up to that of the top. -/
theorem Strengthening.length_le : ∀ {ops : List Operator} {bound : Nat}, Strengthening ops →
    (∀ op ∈ ops, op.precedence ≤ bound) → ops.length ≤ bound
  | [], _, _, _ => Nat.zero_le _
  | top :: ops, bound, h, hbound => by
      obtain ⟨htop, hops⟩ := List.pairwise_cons.mp h
      have hlength : ops.length ≤ top.precedence - 1 :=
        length_le hops fun op hop => Nat.le_sub_one_of_lt (htop op hop)
      have hpos := top.precedence_pos
      have hle := hbound top List.mem_cons_self
      rw [List.length_cons]
      omega

theorem Rising.strengthening {rest : List Pending} : ∀ {ops : List Operator},
    Rising (ops.map .operator ++ rest) → Strengthening ops
  | [], _ => .nil
  | _ :: _, h => .cons (h.2.lt_of_keeps h.1) (strengthening h.2)

/-! ## Every state of a run -/

/-- The work after some of the tokens. -/
structure Stacked (taken : List Token) (s : State) : Prop where
  /-- from the bottom to the top, the open parentheses have rising places -/
  openings_rising : (openings s.stack).reverse.Pairwise (· < ·)
  /-- and they are those without a partner -/
  mem_openings : ∀ i, i ∈ openings s.stack ↔ UnclosedAt taken i
  /-- wherever operators lie on each other, they bind stronger towards the top -/
  strengthening : ∀ (above : List Pending) (ops : List Operator) (below : List Pending),
    s.stack = above ++ ops.map .operator ++ below → Strengthening ops
  /-- and are two at most -/
  length_le_two : ∀ (above : List Pending) (ops : List Operator) (below : List Pending),
    s.stack = above ++ ops.map .operator ++ below → ops.length ≤ 2
  /-- what has been put out and what waits are the operands and operators taken -/
  perm : (s.output ++ waiting s.stack).Perm (bare taken)

/-- A run gets stuck at a parenthesis that closes nothing, and nowhere else. -/
theorem exists_run_iff (taken : List Token) :
    (∃ s, State.initial.run 0 taken = .ok s) ↔ ∀ i, ¬ UnopenedAt taken i := by
  have hmap : (State.initial.run 0 taken).map (fun s => openings s.stack) =
      unclosed [] 0 taken := map_openings_run taken [] [] 0
  cases hrun : State.initial.run 0 taken with
  | ok s =>
      rw [hrun] at hmap
      exact ⟨fun _ => not_unopenedAt hmap.symm, fun _ => ⟨s, rfl⟩⟩
  | error e =>
      rw [hrun] at hmap
      obtain ⟨i, hleast, _⟩ := isLeast_of_unclosed_error hmap.symm
      constructor
      · rintro ⟨s, h⟩
        cases h
      · intro hnone
        exact absurd hleast.1 (hnone i)

theorem stacked_of_run {taken : List Token} {s : State}
    (hrun : State.initial.run 0 taken = .ok s) : Stacked taken s := by
  have hopened : opened taken taken.length = (openings s.stack).reverse :=
    opened_of_run (List.prefix_refl taken) hrun
  have hstrengthening : ∀ (above : List Pending) (ops : List Operator) (below : List Pending),
      s.stack = above ++ ops.map .operator ++ below → Strengthening ops := by
    intro above ops below hstack
    have hrising := rising_of_run hrun
    rw [hstack, List.append_assoc] at hrising
    exact hrising.of_append.strengthening
  refine { openings_rising := ?openings_rising, mem_openings := ?mem_openings,
           strengthening := hstrengthening, length_le_two := ?length_le_two,
           perm := holds_of_run hrun }
  case openings_rising =>
    rw [← hopened]
    exact pairwise_opened taken taken.length
  case mem_openings =>
    intro i
    rw [← List.mem_reverse, ← hopened, mem_opened_length]
  case length_le_two =>
    intro above ops below hstack
    exact (hstrengthening above ops below hstack).length_le fun op _ => op.precedence_le_two

/-- The conversion comes past some tokens exactly if none of them closes what is
not open, whatever follows.  These tokens alone determine what is on the stack
then: the places of the open parentheses that have no partner yet, rising, and
between two of them, below the first and above the last, at most two operators,
the stronger one on top.  Nothing that was taken is lost, and the conversion of
the whole list goes on from there. -/
theorem run_stacked (taken rest : List Token) :
    ((∃ s, State.initial.run 0 taken = .ok s) ↔ ∀ i, ¬ UnopenedAt taken i) ∧
    ∀ s, State.initial.run 0 taken = .ok s → Stacked taken s ∧
      ofTokens (taken ++ rest) = (s.run taken.length rest).bind State.finish := by
  refine ⟨exists_run_iff taken, fun s hrun => ⟨stacked_of_run hrun, ?_⟩⟩
  show Except.bind (State.initial.run 0 (taken ++ rest)) State.finish = _
  rw [State.run_append, hrun, Nat.zero_add]
  rfl

/-- `a - b * ((c + d) / e - (f`: one group has been closed, two are open, and the
operators below the first of them wait in the order of their strength. -/
theorem stacked_around_closed_group :
    let taken : List Token := [.operand "a", .operator .sub, .operand "b", .operator .mul,
      .paren .opening, .paren .opening, .operand "c", .operator .add, .operand "d",
      .paren .closing, .operator .div, .operand "e", .operator .sub, .paren .opening,
      .operand "f"]
    let s : State := ⟨[.operand "a", .operand "b", .operand "c", .operand "d", .operator .add,
        .operand "e", .operator .div, .operand "f"],
      [.opening 13, .operator .sub, .opening 4, .operator .mul, .operator .sub]⟩
    State.initial.run 0 taken = .ok s ∧ Stacked taken s ∧ UnclosedAt taken 4 ∧
      ¬ UnclosedAt taken 5 ∧ Strengthening [.mul, .sub] := by
  intro taken s
  have hrun : State.initial.run 0 taken = .ok s := rfl
  have hstacked := ((run_stacked taken []).2 s hrun).1
  have hclosed : ¬ UnclosedAt taken 5 := by
    rw [← hstacked.mem_openings]
    decide
  exact ⟨hrun, hstacked, (hstacked.mem_openings 4).mp (by decide), hclosed,
    hstacked.strengthening [.opening 13, .operator .sub, .opening 4] [.mul, .sub] [] rfl⟩

end ArithTree.Postfix
