/-
# Release points

When an operator is put out, said without a stack.  An operator waits for the
first place behind it that holds an operator of its own group which binds no
stronger, or the parenthesis that closes the group, or nothing, because the
tokens have ended (`releasePoint`).  An operand is put out at its own place.
Sorted by these places, and operators with a common release point from the
right to the left, the tokens come in one order only (`released`, `released_eq`).
-/
import ArithTree.Proofs.Parentheses.Partners
import Mathlib.Data.Nat.Find

namespace ArithTree.Postfix

open Token

/-! ## The release point -/

/-- In the same group, nothing from the token on belongs to the right side of the operator. -/
def stops (op : Operator) : Token → Bool
  | .operator op' => op'.precedence ≤ op.precedence
  | .paren .closing => true
  | .operand _ | .paren .opening => false

/-- At the place, the operator that stands at `j` is released: the tokens have
ended, or a token of its own group stops it. -/
def Releases (tokens : List Token) (op : Operator) (j place : Nat) : Prop :=
  tokens.length ≤ place ∨
    group tokens place = group tokens j ∧ (tokens[place]?).any (stops op) = true

instance (tokens : List Token) (op : Operator) (j place : Nat) :
    Decidable (Releases tokens op j place) :=
  inferInstanceAs (Decidable (_ ∨ _))

theorem exists_releases (tokens : List Token) (op : Operator) (j : Nat) :
    ∃ place, j < place ∧ Releases tokens op j place :=
  ⟨max (j + 1) tokens.length, Nat.le_max_left _ _, Or.inl (Nat.le_max_right _ _)⟩

/-- The first place behind an operator at which it is released. -/
def releasePoint (tokens : List Token) (op : Operator) (j : Nat) : Nat :=
  Nat.find (exists_releases tokens op j)

/-- The place at which a token is put out. -/
def key (tokens : List Token) : Token × Nat → Nat
  | (.operator op, j) => releasePoint tokens op j
  | (_, place) => place

/-- The first token is put out before the second, or both are the same. -/
def Before (tokens : List Token) (p q : Token × Nat) : Prop :=
  key tokens p < key tokens q ∨ key tokens p = key tokens q ∧ q.2 ≤ p.2

instance (tokens : List Token) (p q : Token × Nat) : Decidable (Before tokens p q) :=
  inferInstanceAs (Decidable (_ ∨ _))

/-- The operands and operators among some tokens, with their places. -/
def places (tokens : List Token) : List (Token × Nat) :=
  tokens.zipIdx.filter fun p => p.1.paren?.isNone

/-- The operands and operators in the order in which they are put out. -/
def released (tokens : List Token) : List Token :=
  ((places tokens).mergeSort fun p q => Before tokens p q).map Prod.fst

theorem releasePoint_eq {tokens : List Token} {op : Operator} {j place : Nat} (hj : j < place)
    (h : Releases tokens op j place)
    (hfirst : ∀ k, j < k → k < place → ¬ Releases tokens op j k) :
    releasePoint tokens op j = place := by
  refine (Nat.find_eq_iff _).mpr ⟨⟨hj, h⟩, ?_⟩
  rintro k hk ⟨hjk, hreleases⟩
  exact hfirst k hjk hk hreleases

/-- In `a - b * (c + d) - e` the last operator releases the first two, and the
parenthesis the one within it. -/
example :
    let tokens : List Token := [.operand "a", .operator .sub, .operand "b", .operator .mul,
      .paren .opening, .operand "c", .operator .add, .operand "d", .paren .closing,
      .operator .sub, .operand "e"]
    (places tokens).map (key tokens) = [0, 9, 2, 9, 5, 8, 7, 11, 10] := by
  decide +kernel

/-! ## One order -/

theorem before_trans {tokens : List Token} {p q r : Token × Nat} (h : Before tokens p q)
    (h' : Before tokens q r) : Before tokens p r := by
  unfold Before at *
  omega

theorem before_total (tokens : List Token) (p q : Token × Nat) :
    Before tokens p q ∨ Before tokens q p := by
  unfold Before
  omega

theorem before_antisymm {tokens : List Token} {p q : Token × Nat} (hp : p ∈ places tokens)
    (hq : q ∈ places tokens) (h : Before tokens p q) (h' : Before tokens q p) : p = q := by
  have hplace : p.2 = q.2 := by
    unfold Before at *
    omega
  have hptoken := List.mem_zipIdx_iff_getElem?.mp (List.mem_filter.mp hp).1
  have hqtoken := List.mem_zipIdx_iff_getElem?.mp (List.mem_filter.mp hq).1
  rw [hplace, hqtoken] at hptoken
  exact Prod.ext (Option.some.inj hptoken).symm hplace

/-- There is one order in which the tokens can be put out. -/
theorem released_eq {tokens : List Token} {out : List (Token × Nat)}
    (hperm : out.Perm (places tokens)) (hsorted : out.Pairwise (Before tokens)) :
    released tokens = out.map Prod.fst := by
  have hmerge := List.mergeSort_perm (places tokens) fun p q => Before tokens p q
  have hpairwise : ((places tokens).mergeSort fun p q => Before tokens p q).Pairwise
      (Before tokens) := by
    refine (List.pairwise_mergeSort ?_ ?_ _).imp of_decide_eq_true
    · intro p q r h h'
      exact decide_eq_true (before_trans (of_decide_eq_true h) (of_decide_eq_true h'))
    · intro p q
      simpa using before_total tokens p q
  rw [released, List.Perm.eq_of_pairwise ?_ hpairwise hsorted (hmerge.trans hperm.symm)]
  intro p q hp hq
  exact before_antisymm (hmerge.mem_iff.mp hp) (hperm.mem_iff.mp hq)

end ArithTree.Postfix
