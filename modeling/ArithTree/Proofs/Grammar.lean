/-
# The grammar of expressions

    expression ::= term    |  expression (+|-) term
    term       ::= factor  |  term (*|/) factor
    factor     ::= operand |  '(' expression ')'

`Derives c ts t` says that the tokens `ts` are a phrase of the category `c` and
that `t` is their syntax tree.  Both operators group to the left because the
left side of a rule is the category itself, and products bind before sums
because a term has no sum in it outside of parentheses.  Nothing here mentions
a stack or a number for the strength of an operator: the grammar is what the
conversion to postfix order is measured against.

`alternate` is the part of the grammar that a look at neighbours can decide:
an operand or an opening parenthesis stands where an operand is awaited, an
operator or a closing parenthesis where none is.
-/
import ArithTree.Expr

namespace ArithTree

inductive Category where
  | expression
  | term
  | factor
  deriving DecidableEq, Repr

/-- `Derives c ts t`: the tokens are a phrase of the category, with the syntax tree `t`. -/
inductive Derives : Category → List Token → Expr → Prop
  | term {ts : List Token} {t : Expr} :
      Derives .term ts t → Derives .expression ts t
  | sum {op : Operator} {ts us : List Token} {l r : Expr} : op = .add ∨ op = .sub →
      Derives .expression ts l → Derives .term us r →
      Derives .expression (ts ++ .operator op :: us) (.binary op l r)
  | factor {ts : List Token} {t : Expr} :
      Derives .factor ts t → Derives .term ts t
  | product {op : Operator} {ts us : List Token} {l r : Expr} : op = .mul ∨ op = .div →
      Derives .term ts l → Derives .factor us r →
      Derives .term (ts ++ .operator op :: us) (.binary op l r)
  | operand (text : String) : Derives .factor [.operand text] (.operand text)
  | group {ts : List Token} {t : Expr} : Derives .expression ts t →
      Derives .factor (.paren .opening :: (ts ++ [.paren .closing])) t

/-! ## Neighbours -/

/-- Every token stands where one of its kind may stand, an operand being awaited
at the beginning or not, and none being awaited at the end. -/
def alternate (awaited : Bool) : List Token → Bool
  | [] => !awaited
  | .operand _ :: ts => awaited && alternate false ts
  | .operator _ :: ts => !awaited && alternate true ts
  | .paren .opening :: ts => awaited && alternate true ts
  | .paren .closing :: ts => !awaited && alternate false ts

theorem alternate_append_of_derives {c : Category} {ts : List Token} {t : Expr}
    (h : Derives c ts t) : ∀ rest : List Token,
      alternate true (ts ++ rest) = alternate false rest := by
  induction h with
  | term _ ih | factor _ ih => exact ih
  | sum _ _ _ ihl ihr | product _ _ _ ihl ihr =>
      intro rest
      rw [List.append_assoc, ihl]
      exact ihr rest
  | operand text => intro rest; rfl
  | group _ ih =>
      intro rest
      rw [List.cons_append, List.append_assoc]
      exact ih (.paren .closing :: rest)

theorem alternate_of_derives {c : Category} {ts : List Token} {t : Expr}
    (h : Derives c ts t) : alternate true ts = true := by
  have := alternate_append_of_derives h []
  rwa [List.append_nil] at this

end ArithTree
