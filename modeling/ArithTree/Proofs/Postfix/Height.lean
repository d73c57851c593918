/-
# The height of a postfix sequence

Reading a postfix sequence keeps no count, but a count decides what it comes to.
The height of a place is the number of operands before it less the number of
operators: as many trees are finished when the place is reached.  The first
token that stands too low is reported with its place.  If there is none, the
height of the end tells one tree from several, and nothing is left only where
nothing was.

`Assembly` has one case for each of these outcomes.  Every sequence has its
assembly (`assembly`), and the conditions of the five exclude each other.
-/
import ArithTree.Proofs.Postfix.Tree
import Mathlib.Order.Bounds.Basic

namespace ArithTree.Expr

open Token (operands operators)

/-! ## Places that stand too low -/

/-- The operands before a place, less the operators before it. -/
def height (tokens : List Token) (i : Nat) : Int :=
  operands (tokens.take i) - operators (tokens.take i)

theorem height_nil (i : Nat) : height [] i = 0 := by
  rw [height, List.take_nil]
  rfl

/-- At the place stands a parenthesis, or an operator at a height below two. -/
def StarvedAt (tokens : List Token) (i : Nat) : Prop :=
  (∃ side, tokens[i]? = some (.paren side)) ∨
    ∃ op, tokens[i]? = some (.operator op) ∧ height tokens i < 2

theorem starvedAt_iff {tokens : List Token} {i : Nat} :
    StarvedAt tokens i ↔ ∃ token, tokens[i]? = some token ∧ Starves (tokens.take i) token := by
  have hheight : height tokens i < 2 ↔
      operands (tokens.take i) < operators (tokens.take i) + 2 := by
    rw [height]
    omega
  constructor
  · rintro (⟨side, h⟩ | ⟨op, h, hlow⟩)
    · exact ⟨.paren side, h, trivial⟩
    · exact ⟨.operator op, h, hheight.mp hlow⟩
  · rintro ⟨token, h, hstarves⟩
    cases token with
    | operand text => exact hstarves.elim
    | operator op => exact Or.inr ⟨op, h, hheight.mpr hstarves⟩
    | paren side => exact Or.inl ⟨side, h⟩

theorem fed_iff {tokens : List Token} : Fed tokens ↔ ∀ i, ¬ StarvedAt tokens i := by
  constructor
  · intro h i hi
    obtain ⟨token, hget, hstarves⟩ := starvedAt_iff.mp hi
    obtain ⟨hlt, rfl⟩ := List.getElem?_eq_some_iff.mp hget
    refine h (tokens.take i) tokens[i] (tokens.drop (i + 1)) ?_ hstarves
    rw [← List.drop_eq_getElem_cons hlt, List.take_append_drop]
  · rintro h before token after rfl hstarves
    refine h before.length (starvedAt_iff.mpr ⟨token, ?_, ?_⟩)
    · simp
    · rwa [List.take_left]

theorem isLeast_of_starves {before : List Token} {token : Token} (after : List Token)
    (hfed : Fed before) (ht : Starves before token) :
    IsLeast {k | StarvedAt (before ++ token :: after) k} before.length := by
  constructor
  · refine starvedAt_iff.mpr ⟨token, ?_, ?_⟩
    · simp
    · rwa [List.take_left]
  · intro k hk
    obtain ⟨first, hget, hstarves⟩ := starvedAt_iff.mp hk
    by_contra hlt
    have hlt : k < before.length := Nat.not_le.mp hlt
    refine fed_iff.mp hfed k (starvedAt_iff.mpr ⟨first, ?_, ?_⟩)
    · rwa [List.getElem?_append_left hlt] at hget
    · rwa [List.take_append_of_le_length (Nat.le_of_lt hlt)] at hstarves

theorem operators_lt_of_fed {tokens : List Token} (h : Fed tokens) (hne : tokens ≠ []) :
    operators tokens < operands tokens := by
  rcases List.eq_nil_or_concat tokens with rfl | ⟨before, last, rfl⟩
  · exact absurd rfl hne
  rw [List.concat_eq_append] at h ⊢
  obtain ⟨hfed, hlast⟩ := fed_snoc.mp h
  obtain ⟨trees, hlen, _⟩ := ofPostfix_of_fed hfed
  rw [Token.operands_snoc, Token.operators_snoc]
  cases last with
  | operand text =>
      show operators before + 0 < operands before + 1
      omega
  | operator op =>
      have hlast : operators before + 2 ≤ operands before := Nat.not_lt.mp hlast
      show operators before + 1 < operands before + 0
      omega
  | paren side => exact absurd trivial hlast

/-! ## What a sequence comes to -/

/-- What the tokens are made into: the first of them that stands too low is the
fault, and without one the height of the end decides. -/
inductive Assembly (tokens : List Token) : Except CompileError Expr → Prop
  | parenthesis {i : Nat} {side : Paren} : IsLeast {k | StarvedAt tokens k} i →
      tokens[i]? = some (.paren side) →
        Assembly tokens (.error (.malformedPostfix (.parenthesis i)))
  | lacksOperands {i : Nat} {op : Operator} : IsLeast {k | StarvedAt tokens k} i →
      tokens[i]? = some (.operator op) →
        Assembly tokens (.error (.malformedPostfix (.lacksOperands op i)))
  | nothing : tokens = [] → Assembly tokens (.error (.malformedPostfix .noOperands))
  | tree {t : Expr} : (∀ k, ¬ StarvedAt tokens k) → height tokens tokens.length = 1 →
      Assembly tokens (.ok t)
  | trees {n : Nat} : (∀ k, ¬ StarvedAt tokens k) → 2 ≤ n → height tokens tokens.length = n →
      Assembly tokens (.error (.malformedPostfix (.disconnected n)))

theorem assembly (tokens : List Token) : Assembly tokens (ofPostfix tokens) := by
  rcases fed_or_starves tokens with hfed | ⟨before, token, after, rfl, hfed, ht⟩
  · obtain ⟨trees, hlen, hend⟩ := ofPostfix_of_fed hfed
    have hheight : height tokens tokens.length = trees.length := by
      rw [height, List.take_length]
      omega
    rw [hend]
    match trees, hlen, hheight with
    | [], hlen, _ =>
        -- fed tokens leave a tree behind, so there were none
        refine .nothing ?_
        by_contra hne
        have hlt := operators_lt_of_fed hfed hne
        rw [List.length_nil] at hlen
        omega
    | [t], _, hheight => exact .tree (fed_iff.mp hfed) hheight
    | t :: u :: trees, _, hheight =>
        refine .trees (fed_iff.mp hfed) ?_ hheight
        simp only [List.length_cons]
        omega
  · rw [ofPostfix_of_starves after hfed ht]
    have hleast := isLeast_of_starves after hfed ht
    have hget : (before ++ token :: after)[before.length]? = some token := by simp
    cases token with
    | operand text => exact ht.elim
    | operator op => exact .lacksOperands hleast hget
    | paren side => exact .parenthesis hleast hget

/-! ## One outcome excludes the others -/

namespace Assembly
variable {tokens : List Token} {r : Except CompileError Expr} {i : Nat}

theorem parenthesis_iff (h : Assembly tokens r) :
    r = .error (.malformedPostfix (.parenthesis i)) ↔
      IsLeast {k | StarvedAt tokens k} i ∧ ∃ side, tokens[i]? = some (.paren side) := by
  constructor
  · rintro rfl
    cases h with
    | parenthesis hleast hget => exact ⟨hleast, _, hget⟩
  · rintro ⟨hleast, side, hget⟩
    cases h with
    | parenthesis hleast' _ => rw [hleast'.unique hleast]
    | lacksOperands hleast' hget' =>
        rw [hleast'.unique hleast] at hget'
        exact nomatch hget.symm.trans hget'
    | nothing hnil => subst hnil; exact nomatch hget
    | tree hnone _ | trees hnone _ _ => exact absurd hleast.1 (hnone i)

theorem lacksOperands_iff (h : Assembly tokens r) {op : Operator} :
    r = .error (.malformedPostfix (.lacksOperands op i)) ↔
      IsLeast {k | StarvedAt tokens k} i ∧ tokens[i]? = some (.operator op) := by
  constructor
  · rintro rfl
    cases h with
    | lacksOperands hleast hget => exact ⟨hleast, hget⟩
  · rintro ⟨hleast, hget⟩
    cases h with
    | parenthesis hleast' hget' =>
        rw [hleast'.unique hleast] at hget'
        exact nomatch hget.symm.trans hget'
    | lacksOperands hleast' hget' =>
        rw [hleast'.unique hleast] at hget' ⊢
        cases hget.symm.trans hget'
        rfl
    | nothing hnil => subst hnil; exact nomatch hget
    | tree hnone _ | trees hnone _ _ => exact absurd hleast.1 (hnone i)

theorem nothing_iff (h : Assembly tokens r) :
    r = .error (.malformedPostfix .noOperands) ↔ tokens = [] := by
  constructor
  · rintro rfl
    cases h with
    | nothing hnil => exact hnil
  · rintro rfl
    cases h with
    | parenthesis _ hget | lacksOperands _ hget => exact nomatch hget
    | nothing _ => rfl
    | tree _ hheight | trees _ _ hheight =>
        rw [height_nil] at hheight
        omega

theorem tree_iff (h : Assembly tokens r) : (∃ t, r = .ok t) ↔
    (∀ k, ¬ StarvedAt tokens k) ∧ height tokens tokens.length = 1 := by
  constructor
  · rintro ⟨t, rfl⟩
    cases h with
    | tree hnone hheight => exact ⟨hnone, hheight⟩
  · rintro ⟨hnone, hheight⟩
    cases h with
    | @parenthesis k _ hleast _ | @lacksOperands k _ hleast _ => exact absurd hleast.1 (hnone k)
    | nothing hnil =>
        rw [hnil, height_nil] at hheight
        omega
    | tree _ _ => exact ⟨_, rfl⟩
    | trees _ hn hheight' => omega

theorem trees_iff (h : Assembly tokens r) {n : Nat} :
    r = .error (.malformedPostfix (.disconnected n)) ↔
      (∀ k, ¬ StarvedAt tokens k) ∧ 2 ≤ n ∧ height tokens tokens.length = n := by
  constructor
  · rintro rfl
    cases h with
    | trees hnone hn hheight => exact ⟨hnone, hn, hheight⟩
  · rintro ⟨hnone, hn, hheight⟩
    cases h with
    | @parenthesis k _ hleast _ | @lacksOperands k _ hleast _ => exact absurd hleast.1 (hnone k)
    | nothing hnil =>
        rw [hnil, height_nil] at hheight
        omega
    | tree _ hheight' => omega
    | @trees m _ _ hheight' =>
        have hm : m = n := by omega
        rw [hm]

end Assembly

/-- The faults of reading in their words. -/
inductive Worded : Malformation → String → Prop
  | parenthesis (i : Nat) : Worded (.parenthesis i) s!"unexpected parenthesis at position {i}"
  | lacksOperands (op : Operator) (i : Nat) : Worded (.lacksOperands op i)
      s!"operator '{op.text}' at position {i} lacks two operands"
  | noOperands : Worded .noOperands "no operands remain"
  | disconnected (n : Nat) : Worded (.disconnected n) s!"{n} disconnected subtrees remain"

theorem Assembly.worded {tokens : List Token} {e : CompileError}
    (h : Assembly tokens (.error e)) : ∃ m, e = .malformedPostfix m ∧ Worded m m.reason := by
  cases h with
  | parenthesis _ _ => exact ⟨_, rfl, .parenthesis _⟩
  | lacksOperands _ _ => exact ⟨_, rfl, .lacksOperands _ _⟩
  | nothing _ => exact ⟨_, rfl, .noOperands⟩
  | trees _ _ _ => exact ⟨_, rfl, .disconnected _⟩

/-- The first parenthesis, or operator at a height below two, is reported with
its place, whichever of the two it is.  Without one, the height of the end is
the number of trees: one is the result, more are reported by their number, and
none is reported exactly for no tokens.  There are no other faults, and these
are their words. -/
theorem ofPostfix_by_height (tokens : List Token) :
    (∀ i, ofPostfix tokens = .error (.malformedPostfix (.parenthesis i)) ↔
      IsLeast {k | StarvedAt tokens k} i ∧ ∃ side, tokens[i]? = some (.paren side)) ∧
    (∀ op i, ofPostfix tokens = .error (.malformedPostfix (.lacksOperands op i)) ↔
      IsLeast {k | StarvedAt tokens k} i ∧ tokens[i]? = some (.operator op)) ∧
    (ofPostfix tokens = .error (.malformedPostfix .noOperands) ↔ tokens = []) ∧
    ((∃ t, ofPostfix tokens = .ok t) ↔
      (∀ k, ¬ StarvedAt tokens k) ∧ height tokens tokens.length = 1) ∧
    (∀ n : Nat, ofPostfix tokens = .error (.malformedPostfix (.disconnected n)) ↔
      (∀ k, ¬ StarvedAt tokens k) ∧ 2 ≤ n ∧ height tokens tokens.length = n) ∧
    ∀ e, ofPostfix tokens = .error e → ∃ m, e = .malformedPostfix m ∧ Worded m m.reason := by
  have h := assembly tokens
  refine ⟨fun i => h.parenthesis_iff, fun op i => h.lacksOperands_iff, h.nothing_iff, h.tree_iff,
    fun n => h.trees_iff, ?_⟩
  intro e he
  rw [he] at h
  exact h.worded

/-- Of two faults the first is reported. -/
example : ofPostfix [.operand "a", .operator .add, .paren .opening] =
    .error (.malformedPostfix (.lacksOperands .add 1)) :=
  rfl

end ArithTree.Expr
