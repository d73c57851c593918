/-
# A tree and its compact text

The compact text of a tree with variables and numbers for leaves is read back to
the tree, unless a minus sign in it has a digit right behind it; then it is
refused for the first such sign (`compile_compact`).  Which leaf gets to stand
behind a minus sign depends on the parentheses between them, so the condition is
one on the text.

Without parentheses around every operator it is the bounds that give the text
its tree.  A side that is not enclosed binds at least as strongly as its place
asks (`isWeaker`), and `Reads` is about exactly such phrases, so the induction
needs no more than that every side can be read at its own bound (`reads_side`).
-/
import ArithTree.Expr.Bracketed
import ArithTree.Proofs.Bracketed

namespace ArithTree

open Token (Scans Plain)
open Source (NegativeAt)

theorem isAlphanum_symbol (op : Operator) : op.symbol.isAlphanum = false := by
  cases op <;> rfl

namespace Expr

/-! ## Its characters -/

theorem toList_compact_binary (op : Operator) (left right : Expr) :
    (binary op left right).compact.toList =
      (enclosed (left.isWeaker op.precedence) left.compact).toList ++
        op.symbol :: (enclosed (right.isWeaker (op.precedence + 1)) right.compact).toList := by
  simp [compact, Operator.text]

theorem toList_enclosed_true (text : String) :
    (enclosed true text).toList = '(' :: (text.toList ++ [')']) := by
  simp [enclosed]

theorem allowed_enclosed {text : String} (h : ∀ c ∈ text.toList, Source.isAllowed c = true)
    (needed : Bool) : ∀ c ∈ (enclosed needed text).toList, Source.isAllowed c = true := by
  cases needed with
  | false => exact h
  | true =>
      intro c hc
      simp only [toList_enclosed_true, List.mem_cons, List.mem_append, List.not_mem_nil,
        or_false] at hc
      rcases hc with rfl | hc | rfl
      · rfl
      · exact h c hc
      · rfl

theorem allowed_compact {t : Expr} (h : ∀ w ∈ t.leaves, Plain w) :
    ∀ c ∈ t.compact.toList, Source.isAllowed c = true := by
  induction t with
  | operand text =>
      exact (Clean.of_isAlphanum (h text (List.mem_singleton_self _)).isAlphanum).1
  | binary op left right ihl ihr =>
      obtain ⟨hl, hr⟩ := List.forall_mem_append.mp h
      rw [toList_compact_binary]
      refine List.forall_mem_append.mpr ⟨allowed_enclosed (ihl hl) _, ?_⟩
      exact List.forall_mem_cons.mpr
        ⟨(Clean.symbol op).1 _ List.mem_cons_self, allowed_enclosed (ihr hr) _⟩

/-! ## Its tokens -/

/-- Tokens between parentheses if they are needed, and by themselves otherwise. -/
def enclosedTokens (needed : Bool) (tokens : List Token) : List Token :=
  if needed then .paren .opening :: (tokens ++ [.paren .closing]) else tokens

def compactTokens : Expr → List Token
  | .operand text => [.operand text]
  | .binary op left right =>
    enclosedTokens (left.isWeaker op.precedence) left.compactTokens ++
      .operator op :: enclosedTokens (right.isWeaker (op.precedence + 1)) right.compactTokens

theorem scans_enclosed {text : String} {tokens : List Token} (h : Scans text.toList tokens)
    (needed : Bool) : Scans (enclosed needed text).toList (enclosedTokens needed tokens) := by
  cases needed with
  | false => exact h
  | true =>
      have hclose : Scans [')'] [.paren .closing] := .sign rfl .nil
      rw [toList_enclosed_true]
      exact .sign rfl (h.append hclose (Token.apart_cons (by decide)))

/-- No two operands run into each other, because there is always a sign between them. -/
theorem scans_compact {t : Expr} (h : ∀ w ∈ t.leaves, Plain w) :
    Scans t.compact.toList t.compactTokens := by
  induction t with
  | operand text =>
      have hw := Token.scanFrom_plain (h text (List.mem_singleton_self _)) 1
      exact Token.scanFrom_eq_ok_iff.mp hw
  | binary op left right ihl ihr =>
      obtain ⟨hl, hr⟩ := List.forall_mem_append.mp h
      have hright := Scans.sign (Token.kind_symbol op)
        (scans_enclosed (ihr hr) (right.isWeaker (op.precedence + 1)))
      rw [toList_compact_binary]
      exact (scans_enclosed (ihl hl) _).append hright (Token.apart_cons (isAlphanum_symbol op))

theorem compactTokens_ne_nil (t : Expr) : t.compactTokens ≠ [] := by
  cases t with
  | operand text => exact List.cons_ne_nil _ _
  | binary op left right => exact List.append_ne_nil_of_right_ne_nil _ (List.cons_ne_nil _ _)

/-! ## Its tree -/

/-- A side is read at the bound of its place: because it binds strongly enough,
or because it is enclosed, where any bound will do. -/
theorem reads_side {t : Expr}
    (h : ∀ bound, t.isWeaker bound = false → Reads bound t.compactTokens t) (bound : Nat) :
    Reads bound (enclosedTokens (t.isWeaker bound) t.compactTokens) t := by
  cases hweak : t.isWeaker bound with
  | false => exact h bound hweak
  | true => exact (h 0 t.isWeaker_zero).group

theorem reads_compactTokens (t : Expr) :
    ∀ bound, t.isWeaker bound = false → Reads bound t.compactTokens t := by
  induction t with
  | operand text =>
      intro bound _
      exact .operand bound text
  | binary op left right ihl ihr =>
      intro bound hweak
      have hbound : bound ≤ op.precedence := by simpa [isWeaker] using hweak
      have hread : Reads op.precedence (binary op left right).compactTokens (binary op left right) :=
        .binary rfl (reads_side ihl op.precedence) (reads_side ihr (op.precedence + 1))
      exact hread.weaken hbound

theorem build_compactTokens (t : Expr) : build t.compactTokens = .ok ⟨t.postorder, t⟩ := by
  have hreads : Reads 0 t.compactTokens t := reads_compactTokens t 0 t.isWeaker_zero
  exact build_eq_ok_iff.mpr ⟨hreads.ofTokens, ofPostfix_postorder t⟩

end Expr

/-! ## What becomes of it -/

section Compile
variable {α : Type} [Coordinate α] (options : Layout.Options α)

/-- The compact text of a tree is compiled to the tree, unless a digit stands
right behind a minus sign in it; then it is refused at the first such sign. -/
theorem compile_compact {t : Expr} (h : ∀ w ∈ t.leaves, Plain w) :
    ((∀ i, ¬ NegativeAt t.compact.toList i) →
      ∃ c, compile options t.compact = .ok c ∧ c.tree = t) ∧
    ((∃ i, NegativeAt t.compact.toList i) →
      ∃ i, NegativeAt t.compact.toList i ∧ (∀ j < i, ¬ NegativeAt t.compact.toList j) ∧
        compile options t.compact = .error (.invalidExpression (i + 1) .negativeLiteral)) := by
  rcases Source.check_of_allowed (Expr.allowed_compact h) with
    ⟨hcheck, hclean⟩ | ⟨i, hcheck, hneg, hbefore⟩
  · refine ⟨fun _ => ?_, fun ⟨i, hneg⟩ => absurd hneg (hclean i)⟩
    have hscan : Token.scan t.compact = .ok t.compactTokens :=
      Token.scanFrom_eq_ok_iff.mpr (Expr.scans_compact h)
    have hlex := lex_eq_ok_iff.mpr ⟨hcheck, hscan, t.compactTokens_ne_nil⟩
    have hparse : parse t.compact = .ok ⟨t.postorder, t⟩ :=
      (parse_of_lex hlex).trans t.build_compactTokens
    exact ⟨_, (compile_eq_ok_iff options _).mpr ⟨_, hparse, rfl⟩, rfl⟩
  · refine ⟨fun hclean => absurd hneg (hclean i), fun _ => ⟨i, hneg, hbefore, ?_⟩⟩
    exact (compile_eq_error_iff options _).mpr (parse_of_lex_error (lex_of_check_error hcheck))

end Compile

/-- `(a-b)*12-c/(d-3)`: the sum on the left is enclosed and so is the one behind
the sign of division, but the last digit still stands right behind a minus sign. -/
theorem compact_with_two_groups :
    let t : Expr := .binary .sub
      (.binary .mul (.binary .sub (.operand "a") (.operand "b")) (.operand "12"))
      (.binary .div (.operand "c") (.binary .sub (.operand "d") (.operand "3")))
    (∀ w ∈ t.leaves, Plain w) ∧ t.compact = "(a-b)*12-c/(d-3)" ∧
      compile Layout.Options.standard t.compact =
        .error (.invalidExpression 14 .negativeLiteral) := by
  intro t
  have hplain : ∀ w ∈ t.leaves, Plain w := by decide
  refine ⟨hplain, rfl, ?_⟩
  obtain ⟨i, hneg, hbefore, hi⟩ :=
    (compile_compact Layout.Options.standard hplain).2 ⟨13, by decide⟩
  have hfirst : ∀ j < 13, ¬ NegativeAt t.compact.toList j := by decide
  rcases Nat.lt_trichotomy i 13 with hlt | rfl | hgt
  · exact absurd hneg (hfirst i hlt)
  · exact hi
  · exact absurd (by decide) (hbefore 13 hgt)

end ArithTree
