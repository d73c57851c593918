/-
# Tokens with their places

The output and the stack of a run with the place of every token beside it
(`Traced`).  What is on the stack has not yet come to its release point; what has
been put out has, and stands in the order of the release points.  The lemmas are
what can happen at one place: what is released there is put out (`release`), and
the token of the place is put out or put on the stack (`operand`, `push`), or
what it closes is dropped (`drop`).
-/
import ArithTree.Proofs.Postfix.Conserved
import ArithTree.Proofs.Postfix.ReleasePoint

namespace ArithTree.Postfix

open Token

/-! ## Places on the stack -/

/-- What waits on the stack, with the place where it stands among the tokens. -/
inductive Placed where
  | operator (op : Operator) (place : Nat)
  | opening (place : Nat)

namespace Placed

def place : Placed → Nat
  | operator _ place | opening place => place

def pending : Placed → Pending
  | operator op _ => .operator op
  | opening place => .opening place

def token? : Placed → Option (Token × Nat)
  | operator op place => some (.operator op, place)
  | opening _ => none

theorem eq_operator {p : Placed} {t : Token × Nat} (h : p.token? = some t) :
    ∃ op, p = operator op t.2 ∧ t.1 = .operator op := by
  cases p with
  | operator op place => cases h; exact ⟨op, rfl, rfl⟩
  | opening place => exact nomatch h

theorem map_fst_filterMap_token? : ∀ stack : List Placed,
    (stack.filterMap token?).map Prod.fst = waiting (stack.map pending)
  | [] => rfl
  | operator op _ :: stack => congrArg (Token.operator op :: ·) (map_fst_filterMap_token? stack)
  | opening _ :: stack => map_fst_filterMap_token? stack

end Placed

/-! ## The trace -/

theorem lt_length_snoc {taken : List Token} {token : Token} {place : Nat}
    (h : place < taken.length) : place < (taken ++ [token]).length := by
  rw [List.length_append]
  exact Nat.lt_succ_of_lt h

theorem places_snoc (taken : List Token) (token : Token) :
    places (taken ++ [token]) =
      places taken ++ if token.paren?.isNone then [(token, taken.length)] else [] := by
  simp [places, List.zipIdx_append, List.filter_append, List.filter_cons]

/-- After some of the tokens: what has been put out so far, and what waits, the
latest first, with their places.  Up to the bound every release point has been seen to. -/
structure Traced (tokens taken : List Token) (bound : Nat) (out : List (Token × Nat))
    (stack : List Placed) : Prop where
  perm : (out ++ stack.filterMap Placed.token?).Perm (places taken)
  sorted : out.Pairwise (Before tokens)
  key_lt : ∀ p ∈ out, key tokens p < bound
  descending : stack.Pairwise fun p q => q.place < p.place
  place_lt : ∀ p ∈ stack, p.place < taken.length
  /-- what lies below an entry is open where the entry stands -/
  below : ∀ above p rest, stack = above ++ p :: rest →
    openings (rest.map Placed.pending) = (opened tokens p.place).reverse
  waits : ∀ op j, .operator op j ∈ stack → ∀ k, j < k → k < bound → ¬ Releases tokens op j k

namespace Traced
variable {tokens taken : List Token} {bound : Nat} {out : List (Token × Nat)}
  {stack popped rest : List Placed} {token : Token}

theorem initial (tokens : List Token) : Traced tokens [] 0 [] [] where
  perm := .refl _
  sorted := .nil
  key_lt := fun _ h => absurd h List.not_mem_nil
  descending := .nil
  place_lt := fun _ h => absurd h List.not_mem_nil
  below := fun _ _ _ h => absurd h (by simp)
  waits := fun _ _ h => absurd h List.not_mem_nil

/-- What is on the stack and is released here has its release point here. -/
theorem key_eq (h : Traced tokens taken taken.length out stack)
    (hpopped : ∀ op j, .operator op j ∈ popped → Releases tokens op j taken.length)
    (hsub : popped ⊆ stack) {t : Token × Nat} (ht : t ∈ popped.filterMap Placed.token?) :
    key tokens t = taken.length := by
  obtain ⟨token, j⟩ := t
  obtain ⟨p, hp, hpt⟩ := List.mem_filterMap.mp ht
  obtain ⟨op, rfl, rfl⟩ := Placed.eq_operator hpt
  have hmem : .operator op j ∈ stack := hsub hp
  exact releasePoint_eq (h.place_lt _ hmem) (hpopped op j hp) (h.waits op j hmem)

theorem descending_tokens (h : stack.Pairwise fun p q => q.place < p.place) :
    (stack.filterMap Placed.token?).Pairwise fun t u => u.2 < t.2 := by
  refine List.pairwise_filterMap.mpr (h.imp ?_)
  intro p q hlt t ht u hu
  obtain ⟨_, rfl, _⟩ := Placed.eq_operator ht
  obtain ⟨_, rfl, _⟩ := Placed.eq_operator hu
  exact hlt

/-- What is taken off the stack at its release point comes next in the order. -/
theorem release (h : Traced tokens taken taken.length out (popped ++ rest))
    (hpopped : ∀ op j, .operator op j ∈ popped → Releases tokens op j taken.length)
    (hrest : ∀ op j, .operator op j ∈ rest → ¬ Releases tokens op j taken.length) :
    Traced tokens taken (taken.length + 1) (out ++ popped.filterMap Placed.token?) rest := by
  have hkey : ∀ t ∈ popped.filterMap Placed.token?, key tokens t = taken.length :=
    fun _ => h.key_eq hpopped (List.subset_append_left popped rest)
  obtain ⟨hpoppedDescending, hrestDescending, _⟩ := List.pairwise_append.mp h.descending
  refine { descending := hrestDescending, perm := ?perm, sorted := ?sorted, key_lt := ?key_lt,
           place_lt := ?place_lt, below := ?below, waits := ?waits }
  case perm =>
    rw [List.append_assoc, ← List.filterMap_append]
    exact h.perm
  case sorted =>
    refine List.pairwise_append.mpr ⟨h.sorted, ?_, ?_⟩
    · -- what comes off together has one key, so its places decide
      refine (descending_tokens hpoppedDescending).imp_of_mem ?_
      intro t u ht hu hlt
      exact Or.inr ⟨(hkey t ht).trans (hkey u hu).symm, Nat.le_of_lt hlt⟩
    · intro t ht u hu
      have hlt := h.key_lt t ht
      rw [← hkey u hu] at hlt
      exact Or.inl hlt
  case key_lt =>
    intro t ht
    rcases List.mem_append.mp ht with ht | ht
    · exact Nat.lt_succ_of_lt (h.key_lt t ht)
    · exact Nat.lt_succ_of_le (Nat.le_of_eq (hkey t ht))
  case place_lt =>
    intro p hp
    exact h.place_lt p (List.mem_append_right _ hp)
  case below =>
    intro above p behind hsplit
    refine h.below (popped ++ above) p behind ?_
    rw [hsplit, List.append_assoc]
  case waits =>
    intro op j hj k hjk hk
    rcases Nat.lt_or_eq_of_le (Nat.le_of_lt_succ hk) with hk | rfl
    · exact h.waits op j (List.mem_append_right _ hj) k hjk hk
    · exact hrest op j hj

theorem pass (h : Traced tokens taken taken.length out stack)
    (hstack : ∀ op j, .operator op j ∈ stack → ¬ Releases tokens op j taken.length) :
    Traced tokens taken (taken.length + 1) out stack := by
  have hwhole : Traced tokens taken taken.length out ([] ++ stack) := h
  have hpassed := hwhole.release (fun _ _ h => absurd h List.not_mem_nil) hstack
  rwa [List.filterMap_nil, List.append_nil] at hpassed

theorem operand {text : String} (h : Traced tokens taken taken.length out stack)
    (hstack : ∀ op j, .operator op j ∈ stack → ¬ Releases tokens op j taken.length) :
    Traced tokens (taken ++ [.operand text]) (taken.length + 1)
      (out ++ [(.operand text, taken.length)]) stack := by
  have hpassed := h.pass hstack
  refine { descending := h.descending, below := h.below, waits := hpassed.waits, perm := ?perm,
           sorted := ?sorted, key_lt := ?key_lt, place_lt := ?place_lt }
  case perm =>
    rw [places_snoc, List.append_assoc]
    refine (List.perm_middle.trans ?_).trans (List.perm_append_singleton _ _).symm
    exact h.perm.cons _
  case sorted =>
    refine List.pairwise_append.mpr ⟨h.sorted, List.pairwise_singleton _ _, ?_⟩
    intro t ht u hu
    rw [List.mem_singleton.mp hu]
    exact Or.inl (h.key_lt t ht)
  case key_lt =>
    intro t ht
    rcases List.mem_append.mp ht with ht | ht
    · exact hpassed.key_lt t ht
    · rw [List.mem_singleton.mp ht]
      exact Nat.lt_succ_self _
  case place_lt =>
    intro p hp
    exact lt_length_snoc (h.place_lt p hp)

theorem push {p : Placed} (h : Traced tokens taken (taken.length + 1) out stack)
    (hplace : p.place = taken.length)
    (htoken : p.token?.toList = if token.paren?.isNone then [(token, taken.length)] else [])
    (hopened : openings (stack.map Placed.pending) = (opened tokens taken.length).reverse) :
    Traced tokens (taken ++ [token]) (taken.length + 1) out (p :: stack) := by
  have hcons : (p :: stack).filterMap Placed.token? =
      p.token?.toList ++ stack.filterMap Placed.token? := by
    cases p <;> rfl
  refine { sorted := h.sorted, key_lt := h.key_lt, perm := ?perm, descending := ?descending,
           place_lt := ?place_lt, below := ?below, waits := ?waits }
  case perm =>
    rw [places_snoc, ← htoken, hcons]
    refine (List.perm_append_comm.append_left out).trans ?_
    rw [← List.append_assoc]
    exact h.perm.append_right _
  case descending =>
    refine List.pairwise_cons.mpr ⟨?_, h.descending⟩
    intro q hq
    rw [hplace]
    exact h.place_lt q hq
  case place_lt =>
    intro q hq
    rcases List.mem_cons.mp hq with rfl | hq
    · rw [hplace, List.length_append]
      exact Nat.lt_succ_self _
    · exact lt_length_snoc (h.place_lt q hq)
  case below =>
    intro above q behind hsplit
    cases above with
    | nil =>
        cases hsplit
        rw [hplace, hopened]
    | cons _ above =>
        cases hsplit
        exact h.below above q behind rfl
  case waits =>
    intro op j hj k hjk hk
    rcases List.mem_cons.mp hj with rfl | hj
    · -- its own place is the last one, and none lies between
      exact absurd hk (Nat.not_lt.mpr (Nat.succ_le_of_lt (hplace ▸ hjk)))
    · exact h.waits op j hj k hjk hk

theorem drop {i : Nat} (h : Traced tokens taken (taken.length + 1) out (.opening i :: stack)) :
    Traced tokens (taken ++ [.paren .closing]) (taken.length + 1) out stack := by
  refine { sorted := h.sorted, key_lt := h.key_lt, perm := ?perm,
           descending := (List.pairwise_cons.mp h.descending).2, place_lt := ?place_lt,
           below := ?below, waits := ?waits }
  case perm =>
    rw [places_snoc]
    show List.Perm _ (places taken ++ [])
    rw [List.append_nil]
    exact h.perm
  case place_lt =>
    intro p hp
    exact lt_length_snoc (h.place_lt p (List.mem_cons_of_mem _ hp))
  case below =>
    intro above p behind hsplit
    exact h.below (.opening i :: above) p behind (congrArg (_ :: ·) hsplit)
  case waits =>
    intro op j hj
    exact h.waits op j (List.mem_cons_of_mem _ hj)

end Traced

end ArithTree.Postfix
