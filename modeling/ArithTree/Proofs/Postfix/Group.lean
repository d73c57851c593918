/-
# A group in the place of an operand

What stands between a pair of parentheses is converted as if it stood alone, and
what stands around the pair as if an operand were there (`ofTokens_grouped`).

A run decides by the top of the stack, so it does not notice what lies under an
open parenthesis (`run_above`).  It does not notice either what has been put out
before, nor at which places the parentheses stand that are open (`run_alike`).
By the first, a group puts out what its tokens are converted to and leaves the
stack as it was, which is all that an operand does (`PutsOut`).  By the second,
what comes from the tokens around is the same for both (`Surrounds`).
-/
import ArithTree.Proofs.Postfix.Conserved
import ArithTree.Proofs.Postfix.Tree
import Mathlib.Logic.Function.Iterate

namespace ArithTree.Postfix

open Token (parens operands)

/-! ## What lies under an open parenthesis -/

/-- Under an open parenthesis, more may lie on the stack. -/
theorem Steps.above {index : Nat} {s s' : State} {token : Token} (h : Steps index s token s')
    (i : Nat) (base : List Pending) :
    Steps index ⟨s.output, s.stack ++ .opening i :: base⟩ token
      ⟨s'.output, s'.stack ++ .opening i :: base⟩ := by
  cases h with
  | operand text => exact .operand text
  | opening => exact .opening
  | @operator _ op ops rest hops hrest =>
      have hkeeps : Keeps op.precedence (rest ++ .opening i :: base) := by
        cases rest with
        | nil => trivial
        | cons top rest => cases top <;> exact hrest
      show Steps index ⟨_, ops.map .operator ++ rest ++ _⟩ _ _
      rw [List.append_assoc]
      exact .operator hops hkeeps
  | @closing out ops j rest =>
      show Steps index ⟨_, ops.map .operator ++ .opening j :: rest ++ _⟩ _ _
      rw [List.append_assoc]
      exact .closing ops

theorem run_above (i : Nat) (base : List Pending) : ∀ (tokens : List Token) {s s' : State}
    {index : Nat}, s.run index tokens = .ok s' →
      State.run ⟨s.output, s.stack ++ .opening i :: base⟩ index tokens =
        .ok ⟨s'.output, s'.stack ++ .opening i :: base⟩
  | [], _, _, _, h => by cases h; rfl
  | _ :: tokens, _, _, _, h => by
      obtain ⟨s₁, hstep, hrun⟩ := run_cons_eq_ok_iff.mp h
      exact run_cons_eq_ok_iff.mpr ⟨_, hstep.above i base, run_above i base tokens hrun⟩

/-! ## Stacks that are alike -/

/-- The stacks hold the same operators and are open at the same heights; the
places of the parentheses may differ. -/
inductive Alike : List Pending → List Pending → Prop
  | nil : Alike [] []
  | operator {stack stack' : List Pending} (op : Operator) :
      Alike stack stack' → Alike (.operator op :: stack) (.operator op :: stack')
  | opening {stack stack' : List Pending} (i i' : Nat) :
      Alike stack stack' → Alike (.opening i :: stack) (.opening i' :: stack')

namespace Alike

theorem refl : ∀ stack : List Pending, Alike stack stack
  | [] => .nil
  | .operator op :: stack => .operator op (refl stack)
  | .opening i :: stack => .opening i i (refl stack)

theorem keeps {bound : Nat} {stack stack' : List Pending} (h : Alike stack stack')
    (hkeeps : Keeps bound stack) : Keeps bound stack' := by
  cases h with
  | nil | opening _ _ _ => trivial
  | operator op _ => exact hkeeps

theorem of_operators {rest : List Pending} : ∀ {ops : List Operator} {stack' : List Pending},
    Alike (ops.map .operator ++ rest) stack' →
      ∃ rest', stack' = ops.map .operator ++ rest' ∧ Alike rest rest'
  | [], _, h => ⟨_, rfl, h⟩
  | _ :: _, _, .operator op h => by
      obtain ⟨rest', rfl, hrest⟩ := of_operators h
      exact ⟨rest', rfl, hrest⟩

theorem eq_operators {ops : List Operator} {stack' : List Pending}
    (h : Alike (ops.map .operator) stack') : stack' = ops.map .operator := by
  rw [← List.append_nil (ops.map _)] at h ⊢
  obtain ⟨_, rfl, hrest⟩ := h.of_operators
  cases hrest
  rfl

end Alike

/-- A step puts out the same from stacks that are alike, and they stay alike. -/
theorem Steps.alike {index : Nat} {s s₁ : State} {token : Token} (h : Steps index s token s₁)
    {stack' : List Pending} (hstack : Alike s.stack stack') (out' : List Token) (index' : Nat) :
    ∃ put stack₁', s₁.output = s.output ++ put ∧ Alike s₁.stack stack₁' ∧
      Steps index' ⟨out', stack'⟩ token ⟨out' ++ put, stack₁'⟩ := by
  cases h with
  | operand text => exact ⟨[.operand text], stack', rfl, hstack, .operand text⟩
  | opening =>
      refine ⟨[], .opening index' :: stack', (List.append_nil _).symm, .opening _ _ hstack, ?_⟩
      rw [List.append_nil]
      exact .opening
  | @operator _ op ops rest hops hrest =>
      obtain ⟨rest', rfl, halike⟩ := hstack.of_operators
      exact ⟨ops.map .operator, _, rfl, .operator op halike, .operator hops (halike.keeps hrest)⟩
  | closing ops =>
      obtain ⟨_, rfl, halike⟩ := hstack.of_operators
      cases halike with
      | opening _ _ halike => exact ⟨ops.map .operator, _, rfl, halike, .closing ops⟩

theorem run_alike : ∀ (tokens : List Token) {s s₁ : State} {index : Nat},
    s.run index tokens = .ok s₁ →
      ∀ {stack' : List Pending}, Alike s.stack stack' → ∀ (out' : List Token) (index' : Nat),
        ∃ put stack₁', s₁.output = s.output ++ put ∧ Alike s₁.stack stack₁' ∧
          State.run ⟨out', stack'⟩ index' tokens = .ok ⟨out' ++ put, stack₁'⟩
  | [], s, _, _, h, stack', hstack, out', _ => by
      cases h
      refine ⟨[], stack', (List.append_nil _).symm, hstack, ?_⟩
      rw [List.append_nil]
      rfl
  | token :: tokens, s, s₁, index, h, stack', hstack, out', index' => by
      obtain ⟨⟨out, stack⟩, hstep, hrun⟩ := run_cons_eq_ok_iff.mp h
      obtain ⟨put, stack₁', rfl, halike, hstep'⟩ := hstep.alike hstack out' index'
      obtain ⟨more, stack₂', hmore, halike', hrun'⟩ :=
        run_alike tokens hrun halike (out' ++ put) (index' + 1)
      refine ⟨put ++ more, stack₂', ?_, halike', ?_⟩
      · rw [hmore, List.append_assoc]
      · rw [← List.append_assoc]
        exact run_cons_eq_ok_iff.mpr ⟨_, hstep', hrun'⟩

theorem finish_alike {s : State} {sequence : List Token} (h : s.finish = .ok sequence)
    {stack' : List Pending} (hstack : Alike s.stack stack') (out' : List Token) :
    ∃ put, sequence = s.output ++ put ∧ State.finish ⟨out', stack'⟩ = .ok (out' ++ put) := by
  obtain ⟨out, stack⟩ := s
  obtain ⟨ops, rfl | ⟨i, rest, rfl⟩⟩ := exists_group stack
  · rw [finish_operators] at h
    cases h
    refine ⟨ops.map .operator, rfl, ?_⟩
    rw [hstack.eq_operators, finish_operators]
  · rw [finish_opening] at h
    exact nomatch h

/-! ## The middle and what surrounds it -/

/-- Wherever the tokens stand, they put out the sequence and leave the stack as it was. -/
def PutsOut (tokens sequence : List Token) : Prop :=
  ∀ (out : List Token) (stack : List Pending) (index : Nat),
    State.run ⟨out, stack⟩ index tokens = .ok ⟨out ++ sequence, stack⟩

theorem PutsOut.operand (text : String) : PutsOut [.operand text] [.operand text] :=
  fun _ _ _ => rfl

def grouped (tokens : List Token) : List Token :=
  .paren .opening :: (tokens ++ [.paren .closing])

theorem PutsOut.grouped {tokens sequence : List Token} (h : ofTokens tokens = .ok sequence) :
    PutsOut (grouped tokens) sequence := by
  intro out stack index
  obtain ⟨put, ops, hrun, rfl⟩ := exists_run_of_ofTokens h
  obtain ⟨put', stack', rfl, halike, hrun'⟩ := run_alike tokens hrun .nil out (index + 1)
  rw [halike.eq_operators] at hrun'
  have hinner := run_above index stack tokens hrun'
  rw [Postfix.grouped, run_cons, step_opening]
  refine run_append_eq_ok_iff.mpr ⟨_, hinner, ?_⟩
  refine run_cons_eq_ok_iff.mpr ⟨_, .closing ops, ?_⟩
  rw [List.append_assoc]
  rfl

theorem PutsOut.ofTokens {tokens sequence : List Token} (h : PutsOut tokens sequence) :
    ofTokens tokens = .ok sequence := by
  have hfinish := finish_operators sequence []
  rw [List.map_nil, List.map_nil, List.append_nil] at hfinish
  exact ofTokens_eq_ok_iff.mpr ⟨_, h [] [] 0, hfinish⟩

/-- Whatever is put out between them, the tokens on its two sides put out one
sequence before it and one behind it. -/
def Surrounds (left right before after : List Token) : Prop :=
  ∃ stack s, State.initial.run 0 left = .ok ⟨before, stack⟩ ∧
    State.run ⟨[], stack⟩ 0 right = .ok s ∧ s.finish = .ok after

theorem ofTokens_between_iff {middle put : List Token} (h : PutsOut middle put)
    {left right sequence : List Token} : ofTokens (left ++ middle ++ right) = .ok sequence ↔
      ∃ before after, Surrounds left right before after ∧ sequence = before ++ put ++ after := by
  rw [ofTokens_eq_ok_iff]
  constructor
  · rintro ⟨s, hrun, hfinish⟩
    obtain ⟨s₂, hmiddle, hright⟩ := run_append_eq_ok_iff.mp hrun
    obtain ⟨⟨before, stack⟩, hleft, hmiddle⟩ := run_append_eq_ok_iff.mp hmiddle
    rw [h] at hmiddle
    cases hmiddle
    -- the tokens on the right do the same with nothing put out before them
    obtain ⟨more, stack', hmore, halike, hright'⟩ := run_alike right hright (.refl stack) [] 0
    obtain ⟨last, rfl, hfinish'⟩ := finish_alike hfinish halike ([] ++ more)
    refine ⟨before, _, ⟨stack, _, hleft, hright', hfinish'⟩, ?_⟩
    rw [hmore, List.nil_append, List.append_assoc]
  · rintro ⟨before, after, ⟨stack, s, hleft, hright, hfinish⟩, rfl⟩
    obtain ⟨more, stack', hmore, halike, hright'⟩ := run_alike right hright (.refl stack)
      (before ++ put) (0 + (left ++ middle).length)
    obtain ⟨last, rfl, hfinish'⟩ := finish_alike hfinish halike (before ++ put ++ more)
    have hmiddle : State.initial.run 0 (left ++ middle) = .ok ⟨before ++ put, stack⟩ :=
      run_append_eq_ok_iff.mpr ⟨_, hleft, h before stack _⟩
    refine ⟨_, run_append_eq_ok_iff.mpr ⟨_, hmiddle, hright'⟩, ?_⟩
    rw [hfinish', hmore, List.nil_append, List.append_assoc]

/-- What is put out before the middle has the operands that stand before it. -/
theorem Surrounds.operands_eq {left right before after : List Token}
    (h : Surrounds left right before after) : operands before = operands left := by
  obtain ⟨stack, _, hleft, _, _⟩ := h
  have hs : InOrder left ⟨before, stack⟩ :=
    run_induction (fun _ _ _ _ hs h => hs.step h) left [] State.initial _ rfl hleft
  rw [operands, operands, List.countP_eq_length_filter, List.countP_eq_length_filter]
  exact congrArg List.length hs

/-! ## Groups -/

theorem ofTokens_iterate_grouped {tokens sequence : List Token}
    (h : ofTokens tokens = .ok sequence) (pairs : Nat) :
    ofTokens (grouped^[pairs] tokens) = .ok sequence := by
  induction pairs with
  | zero => exact h
  | succ pairs ih =>
      rw [Function.iterate_succ_apply']
      exact (PutsOut.grouped ih).ofTokens

/-- Balanced tokens between parentheses are converted exactly if an operand in
their place would be, and then to what the operand would be converted to, with
their own sequence in the place of the operand.  So parentheses around all of
them change nothing. -/
theorem ofTokens_grouped (left right : List Token) (text : String) {inner : List Token}
    (h : Balanced (parens inner)) :
    ∃ converted, ofTokens inner = .ok converted ∧
      ((∃ sequence, ofTokens (left ++ grouped inner ++ right) = .ok sequence) ↔
        ∃ sequence, ofTokens (left ++ [.operand text] ++ right) = .ok sequence) ∧
      (∀ sequence, ofTokens (left ++ [.operand text] ++ right) = .ok sequence →
        ∃ before after, sequence = before ++ [.operand text] ++ after ∧
          operands before = operands left ∧
          ofTokens (left ++ grouped inner ++ right) = .ok (before ++ converted ++ after)) ∧
      ∀ pairs, ofTokens (grouped^[pairs] inner) = .ok converted := by
  obtain ⟨converted, hinner⟩ := exists_ofTokens_iff.mpr h
  have hgroup : PutsOut (grouped inner) converted := .grouped hinner
  have hoperand := PutsOut.operand text
  refine ⟨converted, hinner, ⟨?_, ?_⟩, ?_, ofTokens_iterate_grouped hinner⟩
  · rintro ⟨_, hsequence⟩
    obtain ⟨before, after, hsurrounds, _⟩ := (ofTokens_between_iff hgroup).mp hsequence
    exact ⟨_, (ofTokens_between_iff hoperand).mpr ⟨before, after, hsurrounds, rfl⟩⟩
  · rintro ⟨_, hsequence⟩
    obtain ⟨before, after, hsurrounds, _⟩ := (ofTokens_between_iff hoperand).mp hsequence
    exact ⟨_, (ofTokens_between_iff hgroup).mpr ⟨before, after, hsurrounds, rfl⟩⟩
  · intro sequence hsequence
    obtain ⟨before, after, hsurrounds, rfl⟩ := (ofTokens_between_iff hoperand).mp hsequence
    exact ⟨before, after, rfl, hsurrounds.operands_eq,
      (ofTokens_between_iff hgroup).mpr ⟨before, after, hsurrounds, rfl⟩⟩

/-- In `* a - ((b) c +) / d` neither the tokens around the group nor those in it
are an expression. -/
theorem grouped_among_misplaced_operators :
    let left : List Token := [.operator .mul, .operand "a", .operator .sub]
    let right : List Token := [.operator .div, .operand "d"]
    let inner : List Token := [.paren .opening, .operand "b", .paren .closing, .operand "c",
      .operator .add]
    let sequence : List Token := [.operand "a", .operator .mul, .operand "x", .operand "d",
      .operator .div, .operator .sub]
    Balanced (parens inner) ∧ ofTokens (left ++ [.operand "x"] ++ right) = .ok sequence ∧
      ∃ converted before after, ofTokens inner = .ok converted ∧
        sequence = before ++ [.operand "x"] ++ after ∧ operands before = operands left ∧
        ofTokens (left ++ grouped inner ++ right) = .ok (before ++ converted ++ after) ∧
        ofTokens (grouped^[3] inner) = .ok converted := by
  intro left right inner sequence
  have hbalanced : Balanced (parens inner) := exists_ofTokens_iff.mp ⟨_, rfl⟩
  have hsequence : ofTokens (left ++ [.operand "x"] ++ right) = .ok sequence := rfl
  obtain ⟨converted, hinner, _, hplug, hpairs⟩ := ofTokens_grouped left right "x" hbalanced
  obtain ⟨before, after, hsplit, hcount, hgroup⟩ := hplug sequence hsequence
  exact ⟨hbalanced, hsequence, converted, before, after, hinner, hsplit, hcount, hgroup, hpairs 3⟩

end ArithTree.Postfix
