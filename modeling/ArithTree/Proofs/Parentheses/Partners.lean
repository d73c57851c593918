/-
# Partners

Which parenthesis closes which, said by counting and without a stack: two of
them are partners if what stands between them is balanced (`Partners`).  A
parenthesis is open at a place if it stands before the place and its partner
does not, and the last one of these opens the innermost group around the place.

`Matched.of_unclosed` says that matching from the left has found just that at every
place it comes to.  The induction is on the place; what carries it is that for
every open parenthesis the matching of what stands behind it, begun afresh,
leaves exactly the parentheses open that were opened later (`Matched.since`).
-/
import ArithTree.Proofs.Parentheses

namespace ArithTree

instance Closes.instDecidable : ∀ (depth : Nat) (ps : List Paren), Decidable (Closes depth ps)
  | _, [] => decidable_of_iff _ closes_nil.symm
  | depth, .opening :: ps =>
      have := instDecidable (depth + 1) ps
      decidable_of_iff _ closes_opening.symm
  | 0, .closing :: _ => isFalse not_closes_closing
  | depth + 1, .closing :: ps =>
      have := instDecidable depth ps
      decidable_of_iff _ closes_closing.symm

instance (ps : List Paren) : Decidable (Balanced ps) :=
  inferInstanceAs (Decidable (Closes 0 ps))

namespace Token

/-! ## Between two places -/

def between (tokens : List Token) (i j : Nat) : List Token :=
  (tokens.take j).drop (i + 1)

theorem between_self (tokens : List Token) (i : Nat) : between tokens i (i + 1) = [] := by
  rw [between, List.drop_eq_nil_iff]
  exact List.length_take_le _ _

theorem take_succ_of_getElem? {tokens : List Token} {n : Nat} {token : Token}
    (h : tokens[n]? = some token) : tokens.take (n + 1) = tokens.take n ++ [token] := by
  rw [List.take_add_one, h]
  rfl

theorem length_take_of_getElem? {tokens : List Token} {n : Nat} {token : Token}
    (h : tokens[n]? = some token) : (tokens.take n).length = n := by
  obtain ⟨hn, _⟩ := List.getElem?_eq_some_iff.mp h
  exact List.length_take_of_le (Nat.le_of_lt hn)

theorem between_succ {tokens : List Token} {i j : Nat} {token : Token} (hij : i < j)
    (h : tokens[j]? = some token) : between tokens i (j + 1) = between tokens i j ++ [token] := by
  rw [between, take_succ_of_getElem? h, List.drop_append_of_le_length, between]
  rw [length_take_of_getElem? h]
  exact hij

theorem length_between {tokens : List Token} {i j : Nat} {token : Token}
    (h : tokens[j]? = some token) : (between tokens i j).length = j - (i + 1) := by
  rw [between, List.length_drop, length_take_of_getElem? h]

/-! ## Partners -/

/-- An opening parenthesis and a later closing one, between which every
parenthesis has its partner. -/
structure Partners (tokens : List Token) (i j : Nat) : Prop where
  lt : i < j
  opening : tokens[i]? = some (.paren .opening)
  closing : tokens[j]? = some (.paren .closing)
  balanced : Balanced (parens (between tokens i j))

instance (tokens : List Token) (i j : Nat) : Decidable (Partners tokens i j) :=
  decidable_of_iff (i < j ∧ tokens[i]? = some (.paren .opening) ∧
      tokens[j]? = some (.paren .closing) ∧ Balanced (parens (between tokens i j)))
    ⟨fun ⟨hlt, ho, hc, hb⟩ => ⟨hlt, ho, hc, hb⟩,
      fun h => ⟨h.lt, h.opening, h.closing, h.balanced⟩⟩

/-- The places of the parentheses that are open at a place: of those that are
opened before it, the ones without a partner before it.  The innermost is the last. -/
def opened (tokens : List Token) (place : Nat) : List Nat :=
  (List.range place).filter fun i =>
    tokens[i]? = some (.paren .opening) ∧ ∀ j < place, ¬ Partners tokens i j

/-- The innermost group around a place, by the place of its opening parenthesis.
A closing parenthesis belongs to the group that it closes. -/
def group (tokens : List Token) (place : Nat) : Option Nat :=
  (opened tokens place).getLast?

theorem mem_opened {tokens : List Token} {place i : Nat} : i ∈ opened tokens place ↔
    i < place ∧ tokens[i]? = some (.paren .opening) ∧ ∀ j < place, ¬ Partners tokens i j := by
  simp [opened]

theorem pairwise_opened (tokens : List Token) (place : Nat) :
    (opened tokens place).Pairwise (· < ·) :=
  List.pairwise_lt_range.filter _

/-- One token further, the partner of a closing parenthesis is not open any
more, and an opening parenthesis is. -/
theorem opened_succ (tokens : List Token) (n : Nat) : opened tokens (n + 1) =
    (opened tokens n).filter (fun i => ¬ Partners tokens i n) ++
      if tokens[n]? = some (.paren .opening) then [n] else [] := by
  have hlast : ∀ i, (∀ j < n + 1, ¬ Partners tokens i j) ↔
      ¬ Partners tokens i n ∧ ∀ j < n, ¬ Partners tokens i j := by
    intro i
    rw [Nat.forall_lt_succ_right, and_comm]
  have hself : ∀ j < n + 1, ¬ Partners tokens n j := by
    intro j hj h
    exact absurd h.lt (Nat.not_lt.mpr (Nat.le_of_lt_succ hj))
  rw [opened, List.range_succ, List.filter_append]
  congr 1
  · rw [opened, List.filter_filter]
    refine List.filter_congr fun i _ => ?_
    rw [← Bool.decide_and, decide_eq_decide, hlast]
    exact and_left_comm
  · by_cases h : tokens[n]? = some (.paren .opening)
    · simpa [h] using hself
    · simp [h]

theorem opened_succ_of_ne_closing {tokens : List Token} {n : Nat}
    (h : tokens[n]? ≠ some (.paren .closing)) : opened tokens (n + 1) =
      opened tokens n ++ if tokens[n]? = some (.paren .opening) then [n] else [] := by
  rw [opened_succ, List.filter_eq_self.mpr]
  intro i _
  simpa using fun hpartners : Partners tokens i n => h hpartners.closing

end Token

namespace Postfix

open Token

/-! ## Matching from the left -/

theorem unclosed_append (opened : List Nat) (index : Nat) (ts us : List Token) :
    unclosed opened index (ts ++ us) =
      (unclosed opened index ts).bind fun opened => unclosed opened (index + ts.length) us := by
  induction ts generalizing opened index with
  | nil => rfl
  | cons token ts ih =>
      rw [List.cons_append, List.length_cons, Nat.add_comm ts.length, ← Nat.add_assoc]
      match token, opened with
      | .operand _, _ | .operator _, _ | .paren .opening, _ | .paren .closing, _ :: _ =>
          exact ih _ _
      | .paren .closing, [] => rfl

/-- What matching has found at a place: the parentheses that are open there, the
innermost first. -/
structure Matched (tokens : List Token) (place : Nat) (places : List Nat) : Prop where
  eq_opened : places = (opened tokens place).reverse
  /-- behind an open parenthesis, those are open that were opened later -/
  since : ∀ above i below, places = above ++ i :: below →
    unclosed [] (i + 1) (between tokens i place) = .ok above

namespace Matched
variable {tokens : List Token} {n : Nat} {places : List Nat} {token : Token}

theorem lt (h : Matched tokens n places) {i : Nat} (hi : i ∈ places) : i < n := by
  rw [h.eq_opened, List.mem_reverse, mem_opened] at hi
  exact hi.1

theorem since_snoc (h : Matched tokens n places) (htoken : tokens[n]? = some token)
    {above below : List Nat} {i : Nat} (hplaces : places = above ++ i :: below) :
    unclosed [] (i + 1) (between tokens i (n + 1)) = unclosed above n [token] := by
  have hi : i < n := h.lt (by simp [hplaces])
  have hindex : i + 1 + (n - (i + 1)) = n := Nat.add_sub_cancel' hi
  rw [between_succ hi htoken, unclosed_append, length_between htoken, h.since _ _ _ hplaces]
  show unclosed above (i + 1 + (n - (i + 1))) [token] = _
  rw [hindex]

theorem beyond (h : Matched tokens n places) (hnone : tokens[n]? = none) :
    Matched tokens (n + 1) places := by
  refine ⟨?_, ?_⟩
  · rw [opened_succ_of_ne_closing (by simp [hnone]), hnone, if_neg (by simp), List.append_nil,
      h.eq_opened]
  · intro above i below hplaces
    rw [between, List.take_add_one, hnone]
    simpa [between] using h.since above i below hplaces

theorem bare (h : Matched tokens n places) (htoken : tokens[n]? = some token)
    (hbare : token.paren? = none) : Matched tokens (n + 1) places := by
  have hunclosed : ∀ opened, unclosed opened n [token] = .ok opened := by
    intro opened
    match token, hbare with
    | .operand _, _ | .operator _, _ => rfl
  have hne : ∀ side, tokens[n]? ≠ some (.paren side) := by
    rintro side hside
    cases htoken.symm.trans hside
    exact nomatch hbare
  refine ⟨?_, ?_⟩
  · rw [opened_succ_of_ne_closing (hne _), if_neg (hne _), List.append_nil, h.eq_opened]
  · intro above i below hplaces
    rw [h.since_snoc htoken hplaces, hunclosed]

theorem opening (h : Matched tokens n places) (htoken : tokens[n]? = some (.paren .opening)) :
    Matched tokens (n + 1) (n :: places) := by
  refine ⟨?_, ?_⟩
  · rw [opened_succ_of_ne_closing (by simp [htoken]), if_pos htoken, List.reverse_append,
      ← h.eq_opened]
    rfl
  · intro above i below hplaces
    cases above with
    | nil =>
        cases hplaces
        rw [between_self]
        rfl
    | cons _ above =>
        cases hplaces
        rw [h.since_snoc htoken rfl]
        rfl

/-- A closing parenthesis is the partner of the innermost open one and of no other. -/
theorem closing {i : Nat} (h : Matched tokens n (i :: places))
    (htoken : tokens[n]? = some (.paren .closing)) : Matched tokens (n + 1) places := by
  have hopened : opened tokens n = places.reverse ++ [i] := by
    rw [← List.reverse_cons, h.eq_opened, List.reverse_reverse]
  have hpartner : Partners tokens i n := by
    have hi : i ∈ opened tokens n := by simp [hopened]
    have hbalanced := (unclosed_eq_ok_nil_iff _ [] _).mp (h.since [] i places rfl)
    exact ⟨h.lt List.mem_cons_self, (mem_opened.mp hi).2.1, htoken, hbalanced⟩
  have hothers : ∀ k ∈ places.reverse, ¬ Partners tokens k n := by
    intro k hk hpartners
    obtain ⟨above, below, rfl⟩ := List.append_of_mem (List.mem_reverse.mp hk)
    have hsince := h.since (i :: above) k below rfl
    have hnil := (unclosed_eq_ok_nil_iff _ [] (k + 1)).mpr hpartners.balanced
    exact nomatch hsince.symm.trans hnil
  refine ⟨?_, ?_⟩
  · have hall : places.reverse.filter (fun k => ¬ Partners tokens k n) = places.reverse :=
      List.filter_eq_self.mpr (by simpa using hothers)
    rw [opened_succ, htoken, hopened, List.filter_append, hall]
    simp [hpartner]
  · intro above k below hplaces
    have habove : i :: places = (i :: above) ++ k :: below := congrArg (i :: ·) hplaces
    rw [h.since_snoc htoken habove]
    rfl

theorem of_unclosed : ∀ {n : Nat} {places : List Nat},
    unclosed [] 0 (tokens.take n) = .ok places → Matched tokens n places
  | 0, places, h => by
      cases h
      exact ⟨rfl, fun above i below h => absurd h (by simp)⟩
  | n + 1, places, h => by
      cases htoken : tokens[n]? with
      | none =>
          have htake : tokens.take (n + 1) = tokens.take n := by
            rw [List.take_add_one, htoken]
            exact List.append_nil _
          rw [htake] at h
          exact (of_unclosed h).beyond htoken
      | some token =>
          rw [take_succ_of_getElem? htoken, unclosed_append, Nat.zero_add,
            length_take_of_getElem? htoken] at h
          cases hbefore : unclosed [] 0 (tokens.take n) with
          | error e => rw [hbefore] at h; exact nomatch h
          | ok before =>
              have ih := of_unclosed hbefore
              rw [hbefore] at h
              match token, before, h with
              | .operand _, _, h | .operator _, _, h => cases h; exact ih.bare htoken rfl
              | .paren .opening, _, h => cases h; exact ih.opening htoken
              | .paren .closing, _ :: _, h => cases h; exact ih.closing htoken

end Matched

end Postfix

end ArithTree
