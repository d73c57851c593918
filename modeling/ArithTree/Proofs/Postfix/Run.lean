/-
# The run over the tokens

What one token does to the stack and the output, said once for every kind of
token (`step_operand` and its companions), and what the end does to them.  The
statements name the operators that leave the stack: a stack is a list of
operators on top of a rest that keeps its own top, either because it is empty,
or because an open parenthesis or a weaker operator is there (`Keeps`).  Every
stack has that form for every bound (`exists_keeps`), so the equations below
leave no case out: `step_eq_ok_iff` collects them in one relation, `Steps`.

`run_induction` is the induction over a run: what the start has and every step
keeps, the end has.

Between two open parentheses, and below the first and above the last of them,
every operator on the stack binds stronger than the one it lies on (`Rising`).
So an operator that stops a release stops it for all that lie below it in its
group (`Rising.lt_of_keeps`): looking at the top alone misses nothing.
-/
import ArithTree.Postfix

namespace ArithTree.Postfix

/-! ## Taking operators off the stack -/

/-- Nothing is taken off the stack against the bound: it is empty, or an open
parenthesis or an operator that binds weaker is on top. -/
def Keeps (bound : Nat) : List Pending → Prop
  | .operator op :: _ => op.precedence < bound
  | _ => True

theorem Keeps.mono {bound bound' : Nat} (h : bound ≤ bound') :
    ∀ {stack : List Pending}, Keeps bound stack → Keeps bound' stack
  | [], _ => trivial
  | .opening _ :: _, _ => trivial
  | .operator _ :: _, hk => Nat.lt_of_lt_of_le hk h

theorem release_of_keeps {bound : Nat} :
    ∀ {stack : List Pending}, Keeps bound stack → release bound stack = ([], stack)
  | [], _ => rfl
  | .opening _ :: _, _ => rfl
  | .operator op :: rest, h => by
      have : ¬ bound ≤ op.precedence := Nat.not_le.mpr h
      simp only [release, if_neg this]

theorem release_operators {bound : Nat} {rest : List Pending} (hrest : Keeps bound rest) :
    ∀ {ops : List Operator}, (∀ op ∈ ops, bound ≤ op.precedence) →
      release bound (ops.map .operator ++ rest) = (ops.map .operator, rest)
  | [], _ => release_of_keeps hrest
  | op :: ops, h => by
      have hop : bound ≤ op.precedence := h op List.mem_cons_self
      have ih := release_operators hrest (fun o ho => h o (List.mem_cons_of_mem _ ho))
      simp only [List.map_cons, List.cons_append, release, if_pos hop, ih]

/-- Every stack is a list of operators that bind at least as strongly as the
bound, on top of a rest that keeps its own top. -/
theorem exists_keeps (bound : Nat) : ∀ stack : List Pending,
    ∃ (ops : List Operator) (rest : List Pending), stack = ops.map .operator ++ rest ∧
      (∀ op ∈ ops, bound ≤ op.precedence) ∧ Keeps bound rest
  | [] => ⟨[], [], rfl, fun _ h => absurd h List.not_mem_nil, trivial⟩
  | .opening i :: rest => ⟨[], .opening i :: rest, rfl, fun _ h => absurd h List.not_mem_nil, trivial⟩
  | .operator op :: rest => by
      by_cases hop : bound ≤ op.precedence
      · obtain ⟨ops, rest', rfl, hops, hrest⟩ := exists_keeps bound rest
        refine ⟨op :: ops, rest', rfl, ?_, hrest⟩
        intro o ho
        rcases List.mem_cons.mp ho with rfl | ho'
        · exact hop
        · exact hops o ho'
      · exact ⟨[], .operator op :: rest, rfl, fun _ h => absurd h List.not_mem_nil,
          Nat.not_le.mp hop⟩

theorem exists_group (stack : List Pending) : ∃ ops : List Operator,
    stack = ops.map .operator ∨
      ∃ (i : Nat) (rest : List Pending), stack = ops.map .operator ++ .opening i :: rest := by
  obtain ⟨ops, rest, rfl, _, hrest⟩ := exists_keeps 0 stack
  refine ⟨ops, ?_⟩
  match rest, hrest with
  | [], _ => exact Or.inl (List.append_nil _)
  | .opening i :: rest, _ => exact Or.inr ⟨i, rest, rfl⟩
  | .operator op :: _, h => exact absurd h (Nat.not_lt_zero _)

theorem releaseGroup_operators (ops : List Operator) :
    releaseGroup (ops.map .operator) = (ops.map .operator, []) := by
  have : release 0 (ops.map .operator ++ []) = (ops.map .operator, []) :=
    release_operators (show Keeps 0 [] from trivial) (fun _ _ => Nat.zero_le _)
  rwa [List.append_nil] at this

theorem releaseGroup_opening (ops : List Operator) (i : Nat) (rest : List Pending) :
    releaseGroup (ops.map .operator ++ .opening i :: rest) =
      (ops.map .operator, .opening i :: rest) :=
  release_operators (show Keeps 0 (.opening i :: rest) from trivial) (fun _ _ => Nat.zero_le _)

/-! ## One token -/

section Step
variable (out : List Token) (stack : List Pending) (index : Nat)

theorem step_operand (text : String) :
    State.step ⟨out, stack⟩ index (.operand text) = .ok ⟨out ++ [.operand text], stack⟩ := rfl

theorem step_opening :
    State.step ⟨out, stack⟩ index (.paren .opening) = .ok ⟨out, .opening index :: stack⟩ := rfl

theorem step_operator {op : Operator} {ops : List Operator} {rest : List Pending}
    (hops : ∀ o ∈ ops, op.precedence ≤ o.precedence) (hrest : Keeps op.precedence rest) :
    State.step ⟨out, ops.map .operator ++ rest⟩ index (.operator op) =
      .ok ⟨out ++ ops.map .operator, .operator op :: rest⟩ := by
  simp only [State.step, release_operators hrest hops]

theorem step_closing (ops : List Operator) (i : Nat) (rest : List Pending) :
    State.step ⟨out, ops.map .operator ++ .opening i :: rest⟩ index (.paren .closing) =
      .ok ⟨out ++ ops.map .operator, rest⟩ := by
  simp only [State.step, releaseGroup_opening]

theorem step_closing_unopened (ops : List Operator) :
    State.step ⟨out, ops.map .operator⟩ index (.paren .closing) =
      .error (.unbalancedParentheses .unexpectedClose index) := by
  simp only [State.step, releaseGroup_operators]

end Step

/-- `Steps index s token s'`: the token with the given index leads from `s` to `s'`. -/
inductive Steps (index : Nat) : State → Token → State → Prop
  | operand {out : List Token} {stack : List Pending} (text : String) :
      Steps index ⟨out, stack⟩ (.operand text) ⟨out ++ [.operand text], stack⟩
  | operator {out : List Token} {op : Operator} {ops : List Operator} {rest : List Pending} :
      (∀ o ∈ ops, op.precedence ≤ o.precedence) → Keeps op.precedence rest →
      Steps index ⟨out, ops.map .operator ++ rest⟩ (.operator op)
        ⟨out ++ ops.map .operator, .operator op :: rest⟩
  | opening {out : List Token} {stack : List Pending} :
      Steps index ⟨out, stack⟩ (.paren .opening) ⟨out, .opening index :: stack⟩
  | closing {out : List Token} (ops : List Operator) {i : Nat} {rest : List Pending} :
      Steps index ⟨out, ops.map .operator ++ .opening i :: rest⟩ (.paren .closing)
        ⟨out ++ ops.map .operator, rest⟩

theorem step_eq_ok_iff {s s' : State} {index : Nat} {token : Token} :
    s.step index token = .ok s' ↔ Steps index s token s' := by
  constructor
  · intro h
    obtain ⟨out, stack⟩ := s
    match token, h with
    | .operand text, h => cases h; exact .operand text
    | .paren .opening, h => cases h; exact .opening
    | .operator op, h =>
        obtain ⟨ops, rest, rfl, hops, hrest⟩ := exists_keeps op.precedence stack
        rw [step_operator out index hops hrest] at h
        cases h
        exact .operator hops hrest
    | .paren .closing, h =>
        obtain ⟨ops, rfl | ⟨i, rest, rfl⟩⟩ := exists_group stack
        · rw [step_closing_unopened] at h
          exact nomatch h
        · rw [step_closing] at h
          cases h
          exact .closing ops
  · intro h
    cases h with
    | operand text => exact step_operand _ _ _ _
    | operator hops hrest => exact step_operator _ _ hops hrest
    | opening => exact step_opening _ _ _
    | closing ops => exact step_closing _ _ _ _ _

/-! ## The end -/

theorem finish_operators (out : List Token) (ops : List Operator) :
    State.finish ⟨out, ops.map .operator⟩ = .ok (out ++ ops.map .operator) := by
  simp only [State.finish, releaseGroup_operators]

theorem finish_opening (out : List Token) (ops : List Operator) (i : Nat)
    (rest : List Pending) :
    State.finish ⟨out, ops.map .operator ++ .opening i :: rest⟩ =
      .error (.unbalancedParentheses .unclosedOpen i) := by
  simp only [State.finish, releaseGroup_opening]

/-! ## All tokens -/

theorem run_cons (s : State) (index : Nat) (token : Token) (tokens : List Token) :
    s.run index (token :: tokens) =
      (s.step index token).bind fun s => s.run (index + 1) tokens := rfl

theorem run_cons_eq_ok_iff {s s' : State} {index : Nat} {token : Token} {tokens : List Token} :
    s.run index (token :: tokens) = .ok s' ↔
      ∃ s₁, Steps index s token s₁ ∧ s₁.run (index + 1) tokens = .ok s' := by
  rw [run_cons]
  constructor
  · intro h
    cases hstep : s.step index token with
    | error e => rw [hstep] at h; exact nomatch h
    | ok s₁ =>
        rw [hstep] at h
        exact ⟨s₁, step_eq_ok_iff.mp hstep, h⟩
  · rintro ⟨s₁, hstep, h⟩
    rw [step_eq_ok_iff.mpr hstep]
    exact h

theorem run_append_eq_ok_iff {s s' : State} {index : Nat} {tokens more : List Token} :
    s.run index (tokens ++ more) = .ok s' ↔
      ∃ s₁, s.run index tokens = .ok s₁ ∧ s₁.run (index + tokens.length) more = .ok s' := by
  rw [State.run_append]
  constructor
  · intro h
    cases hrun : s.run index tokens with
    | error e => rw [hrun] at h; exact nomatch h
    | ok s₁ =>
        rw [hrun] at h
        exact ⟨s₁, rfl, h⟩
  · rintro ⟨s₁, hrun, h⟩
    rw [hrun]
    exact h

/-- What holds of the start and is kept by every step holds at the end.  The
property may speak about the tokens that were taken. -/
theorem run_induction {P : List Token → State → Prop}
    (step : ∀ taken s token s', P taken s → Steps taken.length s token s' →
      P (taken ++ [token]) s') :
    ∀ (tokens taken : List Token) (s s' : State), P taken s →
      s.run taken.length tokens = .ok s' → P (taken ++ tokens) s'
  | [], taken, s, s', hs, h => by
      cases h
      rwa [List.append_nil]
  | token :: tokens, taken, s, s', hs, h => by
      obtain ⟨s₁, hstep, hrun⟩ := run_cons_eq_ok_iff.mp h
      have hrun : s₁.run (taken ++ [token]).length tokens = .ok s' := by
        rwa [List.length_append]
      have := run_induction step tokens (taken ++ [token]) s₁ s' (step _ _ _ _ hs hstep) hrun
      rwa [List.append_assoc] at this

/-- The same from the initial state, where a step may use how its state was reached. -/
theorem reached_induction {P : List Token → State → Prop} (initial : P [] State.initial)
    (step : ∀ taken s token s', State.initial.run 0 taken = .ok s → P taken s →
      Steps taken.length s token s' → P (taken ++ [token]) s')
    {tokens : List Token} {s : State} (h : State.initial.run 0 tokens = .ok s) : P tokens s := by
  have hrun := run_induction (P := fun taken s => State.initial.run 0 taken = .ok s ∧ P taken s)
    ?_ tokens [] State.initial s ⟨rfl, initial⟩ h
  · exact hrun.2
  · rintro taken s token s' ⟨hreached, hs⟩ hstep
    refine ⟨run_append_eq_ok_iff.mpr ⟨s, hreached, ?_⟩, step taken s token s' hreached hs hstep⟩
    rw [Nat.zero_add]
    exact run_cons_eq_ok_iff.mpr ⟨s', hstep, rfl⟩

theorem ofTokens_eq_ok_iff {tokens sequence : List Token} :
    ofTokens tokens = .ok sequence ↔
      ∃ s, State.initial.run 0 tokens = .ok s ∧ s.finish = .ok sequence := by
  show (State.initial.run 0 tokens).bind (fun s => s.finish) = .ok sequence ↔ _
  cases State.initial.run 0 tokens with
  | error e =>
      constructor
      · intro h; exact nomatch h
      · rintro ⟨_, h, _⟩; exact nomatch h
  | ok s =>
      constructor
      · intro h; exact ⟨s, rfl, h⟩
      · rintro ⟨_, hs, h⟩
        cases hs
        exact h

theorem exists_run_of_ofTokens {tokens sequence : List Token}
    (h : ofTokens tokens = .ok sequence) : ∃ (out : List Token) (ops : List Operator),
      State.initial.run 0 tokens = .ok ⟨out, ops.map .operator⟩ ∧
        sequence = out ++ ops.map .operator := by
  obtain ⟨⟨out, stack⟩, hrun, hfin⟩ := ofTokens_eq_ok_iff.mp h
  obtain ⟨ops, rfl | ⟨i, rest, rfl⟩⟩ := exists_group stack
  · rw [finish_operators] at hfin
    cases hfin
    exact ⟨out, ops, hrun, rfl⟩
  · rw [finish_opening] at hfin
    exact nomatch hfin

/-! ## Rising precedence -/

/-- Every operator lies on nothing, on an open parenthesis, or on an operator
that binds weaker. -/
def Rising : List Pending → Prop
  | [] => True
  | .operator op :: rest => Keeps op.precedence rest ∧ Rising rest
  | .opening _ :: rest => Rising rest

theorem Rising.of_append {rest : List Pending} : ∀ {above : List Pending},
    Rising (above ++ rest) → Rising rest
  | [], h => h
  | .operator _ :: _, h => of_append h.2
  | .opening _ :: above, h => of_append (show Rising (above ++ rest) from h)

theorem Rising.step {s s' : State} {token : Token} {index : Nat} (hs : Rising s.stack)
    (h : Steps index s token s') : Rising s'.stack := by
  cases h with
  | operand _ | opening => exact hs
  | operator _ hrest => exact ⟨hrest, hs.of_append⟩
  | closing ops => exact hs.of_append

theorem rising_of_run {tokens : List Token} {s : State}
    (h : State.initial.run 0 tokens = .ok s) : Rising s.stack :=
  reached_induction (P := fun _ s => Rising s.stack) trivial
    (fun _ _ _ _ _ hs hstep => hs.step hstep) h

/-- If the top binds weaker than the bound, so does all that lies under it in its group. -/
theorem Rising.lt_of_keeps {rest : List Pending} : ∀ {ops : List Operator} {bound : Nat},
    Rising (ops.map .operator ++ rest) → Keeps bound (ops.map .operator ++ rest) →
      ∀ op ∈ ops, op.precedence < bound
  | [], _, _, _ => fun _ h => absurd h List.not_mem_nil
  | top :: ops, bound, hrising, hkeeps => by
      have htop : top.precedence < bound := hkeeps
      have ih := lt_of_keeps hrising.2 (hrising.1.mono (Nat.le_of_lt htop))
      intro op hop
      rcases List.mem_cons.mp hop with rfl | hop
      · exact htop
      · exact ih op hop

end ArithTree.Postfix
