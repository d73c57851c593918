/-
# The order of release

The postfix sequence of balanced tokens is the tokens in the order of their
release points (`ofTokens_eq_released_iff`).  By `Traced` all that a step has to
show is that it takes off the stack exactly the operators whose release point is
the place of the token (`release_of_operator`, `release_of_closing`); that an
operator misses none of them is that the stack rises (`Rising.lt_of_keeps`).
-/
import ArithTree.Proofs.Postfix.Run
import ArithTree.Proofs.Postfix.Traced

namespace ArithTree.Postfix

open Token

/-! ## What a step takes off -/

theorem place_of_mem_openings {stack : List Placed} {i : Nat}
    (h : i ∈ openings (stack.map Placed.pending)) : ∃ p ∈ stack, p.place = i := by
  obtain ⟨_, hpending, hi⟩ := List.mem_filterMap.mp h
  obtain ⟨p, hp, rfl⟩ := List.mem_map.mp hpending
  cases p with
  | operator op j => exact nomatch hi
  | opening j => cases hi; exact ⟨_, hp, rfl⟩

namespace Traced
variable {tokens taken : List Token} {bound : Nat} {out : List (Token × Nat)}
  {above behind : List Placed} {op : Operator} {j : Nat} {token : Token}

/-- An operator on the stack is in the innermost group if no open parenthesis
lies above it. -/
theorem group_eq_iff (h : Traced tokens taken bound out (above ++ .operator op j :: behind))
    (hopened : opened tokens taken.length =
      (openings ((above ++ .operator op j :: behind).map Placed.pending)).reverse) :
    group tokens taken.length = group tokens j ↔ openings (above.map Placed.pending) = [] := by
  have hbehind : opened tokens j = (openings (behind.map Placed.pending)).reverse := by
    rw [h.below above _ behind rfl, List.reverse_reverse]
    rfl
  have hwhole : openings ((above ++ .operator op j :: behind).map Placed.pending) =
      openings (above.map Placed.pending) ++ openings (behind.map Placed.pending) := by
    rw [List.map_append, openings_append]
    rfl
  rw [group, group, hopened, hbehind, hwhole, List.getLast?_reverse, List.getLast?_reverse]
  constructor
  · intro heq
    cases habove : openings (above.map Placed.pending) with
    | nil => rfl
    | cons i more =>
        -- the group of `j` is older than the operator, and `i` is not
        rw [habove, List.cons_append, List.head?_cons] at heq
        obtain ⟨p, hp, hpi⟩ := place_of_mem_openings (List.mem_of_mem_head? heq.symm)
        obtain ⟨q, hq, hqi⟩ := place_of_mem_openings (habove ▸ List.mem_cons_self)
        have hdescending := List.pairwise_append.mp h.descending
        have hqj : j < q.place := hdescending.2.2 q hq _ List.mem_cons_self
        have hjp : p.place < j := (List.pairwise_cons.mp hdescending.2.1).1 p hp
        omega
  · intro habove
    rw [habove, List.nil_append]

theorem releases_iff (h : Traced tokens taken bound out (above ++ .operator op j :: behind))
    (htoken : tokens[taken.length]? = some token)
    (hopened : opened tokens taken.length =
      (openings ((above ++ .operator op j :: behind).map Placed.pending)).reverse) :
    Releases tokens op j taken.length ↔
      openings (above.map Placed.pending) = [] ∧ stops op token = true := by
  have hlt : ¬ tokens.length ≤ taken.length :=
    Nat.not_le.mpr (List.getElem?_eq_some_iff.mp htoken).1
  rw [Releases, h.group_eq_iff hopened, htoken]
  simp [hlt]

end Traced

section Step
variable {tokens taken : List Token} {out : List (Token × Nat)} {stack popped rest : List Placed}
  {token : Token}

/-- The operators on top of the innermost open parenthesis are released if the token stops them. -/
theorem releases_of_mem (h : Traced tokens taken taken.length out (popped ++ rest))
    (htoken : tokens[taken.length]? = some token)
    (hopened : opened tokens taken.length =
      (openings ((popped ++ rest).map Placed.pending)).reverse)
    {ops : List Operator} (hpopped : popped.map Placed.pending = ops.map .operator)
    (hstops : ∀ op ∈ ops, stops op token = true) :
    ∀ op j, .operator op j ∈ popped → Releases tokens op j taken.length := by
  intro op j hj
  have hop : op ∈ ops := by
    have hmem : Pending.operator op ∈ ops.map .operator := hpopped ▸ List.mem_map_of_mem hj
    obtain ⟨_, hop, heq⟩ := List.mem_map.mp hmem
    cases heq
    exact hop
  have hgroup : openings (popped.map Placed.pending) = [] := by
    rw [hpopped, openings_map_operator]
  obtain ⟨above, behind, rfl⟩ := List.append_of_mem hj
  rw [List.append_assoc, List.cons_append] at h hopened
  rw [List.map_append, openings_append, List.append_eq_nil_iff] at hgroup
  exact (h.releases_iff htoken hopened).mpr ⟨hgroup.1, hstops op hop⟩

/-- An operator further down is released only if no open parenthesis lies above
it and the token stops it. -/
theorem exists_of_releases (h : Traced tokens taken taken.length out (popped ++ rest))
    (htoken : tokens[taken.length]? = some token)
    (hopened : opened tokens taken.length =
      (openings ((popped ++ rest).map Placed.pending)).reverse)
    {op : Operator} {j : Nat} (hj : .operator op j ∈ rest)
    (hreleases : Releases tokens op j taken.length) : stops op token = true ∧
      ∃ (ops : List Operator) (behind : List Pending),
        rest.map Placed.pending = ops.map .operator ++ .operator op :: behind := by
  obtain ⟨above, behind, rfl⟩ := List.append_of_mem hj
  rw [← List.append_assoc] at h hopened
  obtain ⟨hgroup, hstops⟩ := (h.releases_iff htoken hopened).mp hreleases
  rw [List.map_append, openings_append, List.append_eq_nil_iff] at hgroup
  obtain ⟨ops, hops⟩ := eq_operators_of_openings hgroup.2
  refine ⟨hstops, ops, behind.map Placed.pending, ?_⟩
  rw [List.map_append, hops]
  rfl

/-- An operator takes off the operators whose release point it is. -/
theorem release_of_operator (h : Traced tokens taken taken.length out stack) {op : Operator}
    (htoken : tokens[taken.length]? = some (.operator op))
    (hopened : opened tokens taken.length = (openings (stack.map Placed.pending)).reverse)
    (hrising : Rising (stack.map Placed.pending)) {ops : List Operator} {below : List Pending}
    (hstack : stack.map Placed.pending = ops.map .operator ++ below)
    (hops : ∀ o ∈ ops, op.precedence ≤ o.precedence) (hkeeps : Keeps op.precedence below) :
    ∃ popped rest : List Placed, popped.map Placed.pending = ops.map .operator ∧
      rest.map Placed.pending = below ∧
      Traced tokens taken (taken.length + 1) (out ++ popped.filterMap Placed.token?) rest := by
  obtain ⟨popped, rest, rfl, hpopped, rfl⟩ := List.map_eq_append_iff.mp hstack
  refine ⟨popped, rest, hpopped, rfl, h.release ?_ ?_⟩
  · exact releases_of_mem h htoken hopened hpopped fun o ho => decide_eq_true (hops o ho)
  · intro o j hj hreleases
    obtain ⟨hstops, ops', behind, hrest⟩ := exists_of_releases h htoken hopened hj hreleases
    -- everything in the group under a top that stays binds weaker still
    have hsplit : rest.map Placed.pending = (ops' ++ [o]).map .operator ++ behind := by
      rw [hrest, List.map_append, List.append_assoc]
      rfl
    rw [hstack] at hrising
    have hlt := (hsplit ▸ hrising.of_append).lt_of_keeps (hsplit ▸ hkeeps) o (by simp)
    exact absurd (of_decide_eq_true hstops) (Nat.not_le.mpr hlt)

theorem release_of_closing (h : Traced tokens taken taken.length out stack)
    (htoken : tokens[taken.length]? = some (.paren .closing))
    (hopened : opened tokens taken.length = (openings (stack.map Placed.pending)).reverse)
    {ops : List Operator} {i : Nat} {below : List Pending}
    (hstack : stack.map Placed.pending = ops.map .operator ++ .opening i :: below) :
    ∃ popped rest : List Placed, popped.map Placed.pending = ops.map .operator ∧
      rest.map Placed.pending = below ∧
      Traced tokens taken (taken.length + 1) (out ++ popped.filterMap Placed.token?)
        (.opening i :: rest) := by
  obtain ⟨popped, bottom, rfl, hpopped, hbottom⟩ := List.map_eq_append_iff.mp hstack
  obtain ⟨p, rest, rfl, hp, rfl⟩ := List.map_eq_cons_iff.mp hbottom
  obtain rfl : p = .opening i := by
    cases p with
    | operator _ _ => exact nomatch hp
    | opening _ => cases hp; rfl
  refine ⟨popped, rest, hpopped, rfl, h.release ?_ ?_⟩
  · exact releases_of_mem h htoken hopened hpopped fun _ _ => rfl
  · intro o j hj hreleases
    obtain ⟨_, ops', behind, hrest⟩ := exists_of_releases h htoken hopened hj hreleases
    cases ops' with
    | nil => exact nomatch hrest
    | cons _ _ => exact nomatch hrest

theorem not_releases (h : Traced tokens taken taken.length out stack)
    (htoken : tokens[taken.length]? = some token)
    (hopened : opened tokens taken.length = (openings (stack.map Placed.pending)).reverse)
    (hstops : ∀ op, stops op token = false) :
    ∀ op j, .operator op j ∈ stack → ¬ Releases tokens op j taken.length := by
  intro op j hj hreleases
  have hwhole : Traced tokens taken taken.length out ([] ++ stack) := h
  obtain ⟨hop, _⟩ := exists_of_releases hwhole htoken hopened hj hreleases
  rw [hstops op] at hop
  exact nomatch hop

end Step

/-! ## The run -/

theorem getElem?_of_begins {tokens taken : List Token} {token : Token}
    (h : taken ++ [token] <+: tokens) : tokens[taken.length]? = some token := by
  obtain ⟨rest, rfl⟩ := h
  simp

theorem opened_of_run {tokens taken : List Token} {s : State} (hbegins : taken <+: tokens)
    (hrun : State.initial.run 0 taken = .ok s) :
    opened tokens taken.length = (openings s.stack).reverse := by
  have hunclosed : unclosed [] 0 (tokens.take taken.length) = .ok (openings s.stack) := by
    have hmap : (State.initial.run 0 taken).map (fun s => openings s.stack) =
        unclosed [] 0 taken := map_openings_run taken [] [] 0
    rw [← List.prefix_iff_eq_take.mp hbegins, ← hmap, hrun]
    rfl
  rw [(Matched.of_unclosed hunclosed).eq_opened, List.reverse_reverse]

/-- The state is what has been traced, without the places. -/
structure Shows (s : State) (out : List (Token × Nat)) (stack : List Placed) : Prop where
  output_eq : s.output = out.map Prod.fst
  stack_eq : s.stack = stack.map Placed.pending

theorem output_eq_of_popped {out : List (Token × Nat)} {popped : List Placed}
    {ops : List Operator} (h : popped.map Placed.pending = ops.map .operator) :
    out.map Prod.fst ++ ops.map .operator =
      (out ++ popped.filterMap Placed.token?).map Prod.fst := by
  rw [List.map_append, Placed.map_fst_filterMap_token?, h, waiting_map_operator]

/-- A step goes on with what has been traced so far. -/
theorem exists_traced_step {tokens taken : List Token} {s s' : State} {token : Token}
    {out : List (Token × Nat)} {stack : List Placed} (hstep : Steps taken.length s token s')
    (htoken : tokens[taken.length]? = some token)
    (hopened : opened tokens taken.length = (openings s.stack).reverse)
    (hrising : Rising s.stack) (hshows : Shows s out stack)
    (htraced : Traced tokens taken taken.length out stack) :
    ∃ out' stack', Shows s' out' stack' ∧
      Traced tokens (taken ++ [token]) (taken.length + 1) out' stack' := by
  obtain ⟨hout, hstack⟩ := hshows
  rw [hstack] at hopened hrising
  cases hstep with
  | @operand out₀ stack₀ text =>
      obtain rfl : out₀ = _ := hout
      obtain rfl : stack₀ = _ := hstack
      have hquiet := not_releases htraced htoken hopened fun _ => rfl
      refine ⟨out ++ [(.operand text, taken.length)], stack, ⟨?_, rfl⟩, htraced.operand hquiet⟩
      rw [List.map_append]
      rfl
  | @opening out₀ stack₀ =>
      obtain rfl : out₀ = _ := hout
      obtain rfl : stack₀ = _ := hstack
      have hquiet := not_releases htraced htoken hopened fun _ => rfl
      refine ⟨out, .opening taken.length :: stack, ⟨rfl, rfl⟩,
        (htraced.pass hquiet).push rfl rfl ?_⟩
      rw [hopened, List.reverse_reverse]
  | @operator out₀ op ops below hops hkeeps =>
      obtain rfl : out₀ = _ := hout
      have hstack : ops.map .operator ++ below = _ := hstack
      obtain ⟨popped, rest, hpopped, rfl, hreleased⟩ :=
        release_of_operator htraced htoken hopened hrising hstack.symm hops hkeeps
      refine ⟨_, .operator op taken.length :: rest, ⟨output_eq_of_popped hpopped, rfl⟩,
        hreleased.push rfl rfl ?_⟩
      rw [hopened, List.reverse_reverse, ← hstack, openings_operators]
  | @closing out₀ ops i below =>
      obtain rfl : out₀ = _ := hout
      have hstack : ops.map .operator ++ .opening i :: below = _ := hstack
      obtain ⟨popped, rest, hpopped, rfl, hreleased⟩ :=
        release_of_closing htraced htoken hopened hstack.symm
      exact ⟨_, rest, ⟨output_eq_of_popped hpopped, rfl⟩, hreleased.drop⟩

theorem exists_traced {tokens taken : List Token} {s : State}
    (hrun : State.initial.run 0 taken = .ok s) : taken <+: tokens →
      ∃ out stack, Shows s out stack ∧ Traced tokens taken taken.length out stack := by
  refine reached_induction (P := fun taken s => taken <+: tokens →
    ∃ out stack, Shows s out stack ∧ Traced tokens taken taken.length out stack) ?_ ?_ hrun
  · intro _
    exact ⟨[], [], ⟨rfl, rfl⟩, .initial tokens⟩
  · intro taken s token s' hreached ih hstep hbegins
    have htaken : taken <+: tokens := (List.prefix_append _ _).trans hbegins
    obtain ⟨out, stack, hshows, htraced⟩ := ih htaken
    rw [List.length_append, List.length_singleton]
    exact exists_traced_step hstep (getElem?_of_begins hbegins) (opened_of_run htaken hreached)
      (rising_of_run hreached) hshows htraced

/-! ## The sequence -/

theorem eq_released_of_ofTokens {tokens sequence : List Token}
    (h : ofTokens tokens = .ok sequence) : sequence = released tokens := by
  obtain ⟨out, ops, hrun, rfl⟩ := exists_run_of_ofTokens h
  obtain ⟨traced, stack, ⟨hout, hstack⟩, htraced⟩ := exists_traced hrun (List.prefix_refl tokens)
  have hstack : ops.map .operator = stack.map Placed.pending := hstack
  -- the end of the tokens is the release point of all that still waits
  have hend : Traced tokens tokens tokens.length traced (stack ++ []) := by
    rwa [List.append_nil]
  have hfinal := hend.release (fun _ _ _ => Or.inl (Nat.le_refl _))
    fun _ _ h => absurd h List.not_mem_nil
  have hperm := hfinal.perm
  rw [List.filterMap_nil, List.append_nil] at hperm
  rw [released_eq hperm hfinal.sorted, ← output_eq_of_popped hstack.symm]
  exact congrArg (· ++ _) hout

/-- The operands and operators of balanced tokens, sorted by the places at which
they are put out, are their postfix sequence. -/
theorem ofTokens_eq_released_iff (tokens : List Token) :
    ofTokens tokens = .ok (released tokens) ↔ Balanced (parens tokens) := by
  rw [← exists_ofTokens_iff]
  constructor
  · intro h
    exact ⟨_, h⟩
  · rintro ⟨sequence, h⟩
    rw [h, eq_released_of_ofTokens h]

end ArithTree.Postfix
