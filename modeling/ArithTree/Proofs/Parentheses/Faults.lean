/-
# The parenthesis at fault

Which parenthesis the conversion to postfix order reports, if any: the first one
that closes what is not open, or, if there is none, the last one that nothing
closes (`ofTokens_fault`).  Both are said by counting and by partners, so
neither the stack nor what stands between the parentheses has a part in it.

`Verdict` has one case for each of the three outcomes.  Every list of tokens
has its verdict (`verdict`), and the conditions of the three exclude each other.
-/
import ArithTree.Proofs.Parentheses.Partners
import Mathlib.Order.Bounds.Basic

namespace ArithTree

namespace Token

/-- A closing parenthesis before which as many are closed as are opened. -/
def UnopenedAt (tokens : List Token) (i : Nat) : Prop :=
  tokens[i]? = some (.paren .closing) ∧
    (tokens.take i).count (.paren .closing) = (tokens.take i).count (.paren .opening)

/-- An opening parenthesis that has no partner. -/
def UnclosedAt (tokens : List Token) (i : Nat) : Prop :=
  tokens[i]? = some (.paren .opening) ∧ ∀ j, ¬ Partners tokens i j

theorem mem_opened_length {tokens : List Token} {i : Nat} :
    i ∈ opened tokens tokens.length ↔ UnclosedAt tokens i := by
  have hlt : ∀ {j : Nat} {token : Token}, tokens[j]? = some token → j < tokens.length :=
    fun h => (List.getElem?_eq_some_iff.mp h).1
  rw [mem_opened]
  constructor
  · rintro ⟨_, hopening, hnone⟩
    exact ⟨hopening, fun j hj => hnone j (hlt hj.closing) hj⟩
  · rintro ⟨hopening, hnone⟩
    exact ⟨hlt hopening, hopening, fun j _ => hnone j⟩

end Token

namespace Postfix

open Token

/-! ## Where matching ends -/

/-- What is open in the end is what was open and what was opened, less what was closed. -/
theorem length_of_unclosed : ∀ (tokens : List Token) {opened places : List Nat} {index : Nat},
    unclosed opened index tokens = .ok places →
      places.length + tokens.count (.paren .closing) =
        opened.length + tokens.count (.paren .opening)
  | [], _, _, _, h => by cases h; rfl
  | .operand _ :: tokens, _, _, _, h | .operator _ :: tokens, _, _, _, h => by
      simpa using length_of_unclosed tokens h
  | .paren .opening :: tokens, _, _, _, h => by
      have ih := length_of_unclosed tokens h
      simp only [List.length_cons] at ih
      simp only [List.count_cons, beq_iff_eq, reduceCtorEq, Token.paren.injEq, if_false, if_true]
      omega
  | .paren .closing :: tokens, _ :: _, _, _, h => by
      have ih := length_of_unclosed tokens h
      simp only [List.length_cons]
      simp only [List.count_cons, beq_iff_eq, reduceCtorEq, Token.paren.injEq, if_false, if_true]
      omega

theorem exists_of_unclosed_error {e : CompileError} : ∀ (tokens : List Token) {opened : List Nat}
    {index : Nat}, unclosed opened index tokens = .error e → ∃ before after,
      tokens = before ++ .paren .closing :: after ∧ unclosed opened index before = .ok [] ∧
        e = .unbalancedParentheses .unexpectedClose (index + before.length)
  | .paren .closing :: tokens, [], index, h => by
      cases h
      exact ⟨[], tokens, rfl, rfl, rfl⟩
  | .operand _ :: tokens, _, index, h | .operator _ :: tokens, _, index, h
  | .paren .opening :: tokens, _, index, h | .paren .closing :: tokens, _ :: _, index, h => by
      obtain ⟨before, after, rfl, hbefore, rfl⟩ := exists_of_unclosed_error tokens h
      refine ⟨_ :: before, after, rfl, hbefore, ?_⟩
      rw [List.length_cons, Nat.add_assoc, Nat.add_comm 1]

theorem not_unopenedAt {tokens : List Token} {places : List Nat}
    (h : unclosed [] 0 tokens = .ok places) (i : Nat) : ¬ UnopenedAt tokens i := by
  rintro ⟨hclosing, hcount⟩
  obtain ⟨hi, hget⟩ := List.getElem?_eq_some_iff.mp hclosing
  rw [← List.take_append_drop i tokens, List.drop_eq_getElem_cons hi, hget, unclosed_append] at h
  cases hbefore : unclosed [] 0 (tokens.take i) with
  | error e => rw [hbefore] at h; exact nomatch h
  | ok opened =>
      have hlength := length_of_unclosed _ hbefore
      have hnil : opened = [] := by
        refine List.eq_nil_of_length_eq_zero ?_
        simp only [List.length_nil] at hlength
        omega
      rw [hbefore, hnil] at h
      exact nomatch h

theorem isLeast_of_unclosed_error {tokens : List Token} {e : CompileError}
    (h : unclosed [] 0 tokens = .error e) : ∃ i, IsLeast {k | UnopenedAt tokens k} i ∧
      e = .unbalancedParentheses .unexpectedClose i := by
  obtain ⟨before, after, rfl, hbefore, rfl⟩ := exists_of_unclosed_error tokens h
  refine ⟨before.length, ⟨⟨?_, ?_⟩, ?_⟩, by rw [Nat.zero_add]⟩
  · simp
  · have hlength := length_of_unclosed before hbefore
    simp only [List.length_nil, Nat.zero_add] at hlength
    rwa [List.take_left]
  · rintro k ⟨hclosing, hcount⟩
    by_contra hk
    -- the place lies in what has been matched before
    have hk : k < before.length := Nat.not_le.mp hk
    refine not_unopenedAt hbefore k ⟨?_, ?_⟩
    · rwa [List.getElem?_append_left hk] at hclosing
    · rwa [List.take_append_of_le_length (Nat.le_of_lt hk)] at hcount

/-! ## The verdict on a list of tokens -/

/-- What the parentheses of some tokens come to. -/
inductive Verdict (tokens : List Token) : Except CompileError Unit → Prop
  | unopened {i : Nat} : IsLeast {k | UnopenedAt tokens k} i →
      Verdict tokens (.error (.unbalancedParentheses .unexpectedClose i))
  | unclosed {i : Nat} : (∀ k, ¬ UnopenedAt tokens k) → IsGreatest {k | UnclosedAt tokens k} i →
      Verdict tokens (.error (.unbalancedParentheses .unclosedOpen i))
  | closed : (∀ k, ¬ UnopenedAt tokens k) → (∀ k, ¬ UnclosedAt tokens k) →
      Verdict tokens (.ok ())

theorem verdict (tokens : List Token) : Verdict tokens ((ofTokens tokens).map fun _ => ()) := by
  rw [map_ofTokens]
  cases hunclosed : unclosed [] 0 tokens with
  | error e =>
      obtain ⟨i, hleast, rfl⟩ := isLeast_of_unclosed_error hunclosed
      exact .unopened hleast
  | ok places =>
      have hunopened := not_unopenedAt hunclosed
      have hplaces : places = (opened tokens tokens.length).reverse :=
        (Matched.of_unclosed (by rwa [List.take_length])).eq_opened
      have hmem : ∀ k, k ∈ places ↔ UnclosedAt tokens k := by
        intro k
        rw [hplaces, List.mem_reverse, mem_opened_length]
      match places with
      | [] => exact .closed hunopened fun k hk => absurd ((hmem k).mpr hk) List.not_mem_nil
      | i :: places =>
          have hsorted : (i :: places).Pairwise (· > ·) := by
            rw [hplaces, List.pairwise_reverse]
            exact pairwise_opened tokens tokens.length
          refine .unclosed hunopened ⟨(hmem i).mp List.mem_cons_self, ?_⟩
          intro k hk
          rcases List.mem_cons.mp ((hmem k).mpr hk) with rfl | hk
          · exact Nat.le_refl k
          · exact Nat.le_of_lt ((List.pairwise_cons.mp hsorted).1 k hk)

namespace Verdict
variable {tokens : List Token} {r : Except CompileError Unit} {i : Nat}

theorem unopened_iff (h : Verdict tokens r) :
    r = .error (.unbalancedParentheses .unexpectedClose i) ↔
      IsLeast {k | UnopenedAt tokens k} i := by
  constructor
  · rintro rfl
    cases h with
    | unopened h => exact h
  · intro hleast
    cases h with
    | unopened h => rw [h.unique hleast]
    | unclosed hnone _ | closed hnone _ => exact absurd hleast.1 (hnone i)

theorem unclosed_iff (h : Verdict tokens r) :
    r = .error (.unbalancedParentheses .unclosedOpen i) ↔
      (∀ k, ¬ UnopenedAt tokens k) ∧ IsGreatest {k | UnclosedAt tokens k} i := by
  constructor
  · rintro rfl
    cases h with
    | unclosed hnone h => exact ⟨hnone, h⟩
  · rintro ⟨hnone, hgreatest⟩
    cases h with
    | @unopened k h => exact absurd h.1 (hnone k)
    | unclosed _ h => rw [h.unique hgreatest]
    | closed _ h => exact absurd hgreatest.1 (h i)

end Verdict

/-! ## What stands between the parentheses

Operands and operators count for the places of the parentheses and for nothing
else: leave them out, and the same parenthesis is at fault. -/

def rank (tokens : List Token) (i : Nat) : Nat :=
  (parens (tokens.take i)).length

/-- The error with its place named in another way. -/
def renumber (name : Nat → Nat) : CompileError → CompileError
  | .unbalancedParentheses kind i => .unbalancedParentheses kind (name i)
  | e => e

theorem length_parens_snoc (before : List Token) (token : Token) :
    (parens (before ++ [token])).length =
      (parens before).length + token.paren?.toList.length := by
  cases h : token.paren? <;> simp [parens, h]

theorem unclosed_parens {whole : List Token} : ∀ (tokens before : List Token) (opened : List Nat),
    whole = before ++ tokens →
      unclosed (opened.map (rank whole)) (parens before).length
          ((parens tokens).map Token.paren) =
        ((unclosed opened before.length tokens).map (List.map (rank whole))).mapError
          (renumber (rank whole))
  | [], _, _, _ => rfl
  | token :: tokens, before, opened, h => by
      have hrank : rank whole before.length = (parens before).length := by
        rw [rank, h, List.take_left]
      have hnext : whole = before ++ [token] ++ tokens := by simp [h]
      have ih := fun opened => unclosed_parens tokens (before ++ [token]) opened hnext
      rw [List.length_append, List.length_singleton, length_parens_snoc] at ih
      match token, opened with
      | .operand _, opened | .operator _, opened => exact ih opened
      | .paren .opening, opened =>
          have := ih (before.length :: opened)
          rw [List.map_cons, hrank] at this
          exact this
      | .paren .closing, [] =>
          show Except.error _ = Except.error _
          rw [renumber, hrank]
      | .paren .closing, _ :: opened => exact ih opened

/-- Leaving out the operands and operators renames the place of the fault. -/
theorem map_ofTokens_parens (tokens : List Token) :
    (ofTokens ((parens tokens).map Token.paren)).map (fun _ => ()) =
      ((ofTokens tokens).map fun _ => ()).mapError (renumber (rank tokens)) := by
  have hsettle : ∀ places, settle (places.map (rank tokens)) =
      (settle places).mapError (renumber (rank tokens)) := by
    rintro (_ | _) <;> rfl
  have hunclosed : unclosed [] 0 ((parens tokens).map Token.paren) =
      ((unclosed [] 0 tokens).map (List.map (rank tokens))).mapError (renumber (rank tokens)) :=
    unclosed_parens tokens [] [] rfl
  rw [map_ofTokens, map_ofTokens, hunclosed]
  cases unclosed [] 0 tokens with
  | error e => rfl
  | ok places => exact hsettle places

theorem eq_paren_of_paren? {token : Token} {side : Paren} (h : token.paren? = some side) :
    token = .paren side := by
  cases token with
  | operand _ | operator _ => exact nomatch h
  | paren _ => cases h; rfl

theorem unclosed_cons_of_bare {token : Token} (h : token.paren? = none) (opened : List Nat)
    (index : Nat) (tokens : List Token) :
    unclosed opened index (token :: tokens) = unclosed opened (index + 1) tokens := by
  cases token with
  | operand _ | operator _ => rfl
  | paren _ => exact nomatch h

theorem unclosed_congr : ∀ {tokens others : List Token} (opened : List Nat) (index : Nat),
    others.map paren? = tokens.map paren? →
      unclosed opened index others = unclosed opened index tokens
  | [], [], _, _, _ => rfl
  | [], _ :: _, _, _, h | _ :: _, [], _, _, h => nomatch h
  | token :: tokens, other :: others, opened, index, h => by
      obtain ⟨hhead, htail⟩ := List.cons.inj h
      have ih := fun opened => unclosed_congr opened (index + 1) htail
      cases hparen : token.paren? with
      | none =>
          rw [unclosed_cons_of_bare hparen, unclosed_cons_of_bare (hhead.trans hparen), ih]
      | some side =>
          rw [eq_paren_of_paren? hparen, eq_paren_of_paren? (hhead.trans hparen)]
          match side, opened with
          | .opening, opened => exact ih (index :: opened)
          | .closing, [] => rfl
          | .closing, _ :: opened => exact ih opened

theorem error_iff_map {α β ε : Type} {f : α → β} {r : Except ε α} {e : ε} :
    r.map f = .error e ↔ r = .error e := by
  cases r with
  | error e' => exact ⟨fun h => by cases h; rfl, fun h => by cases h; rfl⟩
  | ok a => exact ⟨fun h => (nomatch h), fun h => (nomatch h)⟩

/-- The conversion reports the first closing parenthesis before which as many are
closed as are opened; if there is none, the last opening one that has no
partner; and none at all exactly if they are balanced.  Tokens with the same
parentheses at the same places have the same fault there, and tokens with the
same parentheses have it at the same one of them. -/
theorem ofTokens_fault (tokens : List Token) :
    (∀ i, ofTokens tokens = .error (.unbalancedParentheses .unexpectedClose i) ↔
      IsLeast {k | UnopenedAt tokens k} i) ∧
    (∀ i, ofTokens tokens = .error (.unbalancedParentheses .unclosedOpen i) ↔
      (∀ k, ¬ UnopenedAt tokens k) ∧ IsGreatest {k | UnclosedAt tokens k} i) ∧
    ((∃ sequence, ofTokens tokens = .ok sequence) ↔ Balanced (parens tokens)) ∧
    (∀ others : List Token, others.map paren? = tokens.map paren? →
      ∀ e, ofTokens others = .error e ↔ ofTokens tokens = .error e) ∧
    (∀ others : List Token, parens others = parens tokens →
      ∀ kind i, ofTokens tokens = .error (.unbalancedParentheses kind i) →
        ∃ i', ofTokens others = .error (.unbalancedParentheses kind i') ∧
          rank others i' = rank tokens i) := by
  have hverdict := verdict tokens
  refine ⟨?_, ?_, exists_ofTokens_iff, ?_, ?_⟩
  · intro i
    rw [← hverdict.unopened_iff, error_iff_map]
  · intro i
    rw [← hverdict.unclosed_iff, error_iff_map]
  · intro others h e
    rw [← error_iff_map (f := fun _ => ()), map_ofTokens, unclosed_congr [] 0 h, ← map_ofTokens,
      error_iff_map]
  · intro others h kind i hfault
    have hothers := map_ofTokens_parens others
    rw [h, map_ofTokens_parens tokens, hfault] at hothers
    cases hofTokens : ofTokens others with
    | ok sequence => rw [hofTokens] at hothers; exact nomatch hothers
    | error e =>
        obtain ⟨kind', i', rfl⟩ := ofTokens_error hofTokens
        rw [hofTokens] at hothers
        obtain ⟨rfl, hrank⟩ :=
          CompileError.unbalancedParentheses.inj (Except.error.inj hothers)
        exact ⟨i', rfl, hrank.symm⟩

/-- `a + (b) * ((c)`: the group at place 6 is not closed, the one before it and
the one within it are; whatever else is written, its parenthesis is the third. -/
theorem unclosed_around_closed :
    let tokens : List Token := [.operand "a", .operator .add, .paren .opening, .operand "b",
      .paren .closing, .operator .mul, .paren .opening, .paren .opening, .operand "c",
      .paren .closing]
    let others : List Token := [.operator .div, .operator .sub, .paren .opening, .operand "(",
      .paren .closing, .operand "", .paren .opening, .paren .opening, .operator .div,
      .paren .closing]
    let alone : List Token := [.paren .opening, .paren .closing, .paren .opening,
      .paren .opening, .paren .closing]
    others.map paren? = tokens.map paren? ∧ parens alone = parens tokens ∧
      ofTokens tokens = .error (.unbalancedParentheses .unclosedOpen 6) ∧
      IsGreatest {k | UnclosedAt tokens k} 6 ∧
      ofTokens others = .error (.unbalancedParentheses .unclosedOpen 6) ∧
      ∃ i, ofTokens alone = .error (.unbalancedParentheses .unclosedOpen i) ∧
        rank alone i = rank tokens 6 := by
  intro tokens others alone
  obtain ⟨_, hunclosed, _, hplaces, hparens⟩ := ofTokens_fault tokens
  have hfault : ofTokens tokens = .error (.unbalancedParentheses .unclosedOpen 6) := rfl
  have hothers : others.map paren? = tokens.map paren? := rfl
  have halone : parens alone = parens tokens := rfl
  exact ⟨hothers, halone, hfault, ((hunclosed 6).mp hfault).2, (hplaces others hothers _).mpr hfault,
    hparens alone halone _ _ hfault⟩

end Postfix

end ArithTree
