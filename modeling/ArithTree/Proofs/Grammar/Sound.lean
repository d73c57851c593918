/-
# How far the conversion is sound for the grammar

The conversion looks at no token's neighbours: whatever the order of the
tokens, their operands and operators are counted only after they have been
reordered.  So more is accepted than the grammar has, and the operator behind
its operands, as in `a b +`, is read like the one between them
(`accepts_beyond_grammar`).  The neighbours are all that is missing:
`derives_iff_accepted_and_alternate` says that a tree is a syntax tree exactly
if it is accepted and the tokens alternate.

Alternating tokens whose parentheses balance are a phrase (`exists_phrase`).
The induction is on the length, over a list that may begin inside of groups: an
expression is read off its front, up to the end or to the parenthesis that
closes the innermost of these groups.
-/
import ArithTree.Proofs.Grammar.Complete
import ArithTree.Proofs.Parentheses

namespace ArithTree

open Token (parens)

/-! ## An operator in front of a phrase

A list of factors with operators between them is read from the left, but its
phrases are found from the right.  Putting one more factor in front of a phrase
changes the tree at its leftmost place only. -/

theorem exists_term_cons {op : Operator} {ts : List Token} {l : Expr} (hop : op = .mul ∨ op = .div)
    (hl : Derives .factor ts l) {us : List Token} {r : Expr} (hr : Derives .term us r) :
    ∃ t, Derives .term (ts ++ .operator op :: us) t := by
  generalize hc : Category.term = c at hr
  induction hr with
  | factor h _ => exact ⟨_, .product hop (.factor hl) h⟩
  | @product op' us₁ us₂ _ _ hop' _ h₂ ih _ =>
      obtain ⟨t, ht⟩ := ih rfl
      have := Derives.product hop' ht h₂
      rw [List.append_assoc, List.cons_append] at this
      exact ⟨_, this⟩
  | term | sum | operand | group => exact nomatch hc

theorem exists_expression_cons (op : Operator) {ts : List Token} {l : Expr}
    (hl : Derives .factor ts l) {us : List Token} {r : Expr} (hr : Derives .expression us r) :
    ∃ t, Derives .expression (ts ++ .operator op :: us) t := by
  generalize hc : Category.expression = c at hr
  induction hr with
  | term h _ =>
      cases op with
      | add => exact ⟨_, .sum (Or.inl rfl) (.term (.factor hl)) h⟩
      | sub => exact ⟨_, .sum (Or.inr rfl) (.term (.factor hl)) h⟩
      | mul =>
          obtain ⟨t, ht⟩ := exists_term_cons (Or.inl rfl) hl h
          exact ⟨t, .term ht⟩
      | div =>
          obtain ⟨t, ht⟩ := exists_term_cons (Or.inr rfl) hl h
          exact ⟨t, .term ht⟩
  | @sum op' us₁ us₂ _ _ hop' _ h₂ ih _ =>
      obtain ⟨t, ht⟩ := ih rfl
      have := Derives.sum hop' ht h₂
      rw [List.append_assoc, List.cons_append] at this
      exact ⟨_, this⟩
  | factor | product | operand | group => exact nomatch hc

/-! ## Phrases in alternating tokens -/

/-- What may follow an expression inside of `depth` groups: nothing, or the
parenthesis that closes the innermost of them and tokens that close the others. -/
def Ends : Nat → List Token → Prop
  | 0, rest => rest = []
  | depth + 1, rest => ∃ rest', rest = .paren .closing :: rest' ∧
      alternate false rest' = true ∧ Closes depth (parens rest')

def Phrase (depth : Nat) (tokens : List Token) : Prop :=
  ∃ ts rest t, tokens = ts ++ rest ∧ Derives .expression ts t ∧ Ends depth rest

/-- A factor and what comes behind it, if what comes behind an operator is known. -/
theorem phrase_of_factor {depth : Nat} {fs rest : List Token} {f : Expr}
    (hf : Derives .factor fs f) (ha : alternate false rest = true)
    (hc : Closes depth (parens rest))
    (ih : ∀ op us, rest = .operator op :: us → Phrase depth us) : Phrase depth (fs ++ rest) := by
  match rest, ha, hc, ih with
  | [], _, hc, _ =>
      cases closes_nil.mp hc
      exact ⟨fs, [], f, rfl, .term (.factor hf), rfl⟩
  | .operator op :: us, _, _, ih =>
      obtain ⟨ts, rest, _, rfl, hts, hend⟩ := ih op us rfl
      obtain ⟨t, ht⟩ := exists_expression_cons op hf hts
      refine ⟨_, rest, t, ?_, ht, hend⟩
      rw [List.append_assoc, List.cons_append]
  | .paren .closing :: rest, ha, hc, _ =>
      refine ⟨fs, .paren .closing :: rest, f, rfl, .term (.factor hf), ?_⟩
      match depth, hc with
      | 0, hc => exact absurd hc not_closes_closing
      | depth + 1, hc => exact ⟨rest, rfl, ha, closes_closing.mp hc⟩

theorem exists_phrase : ∀ (n depth : Nat) (tokens : List Token), tokens.length ≤ n →
    alternate true tokens = true → Closes depth (parens tokens) → Phrase depth tokens
  | 0, _, tokens, hn, ha, _ => by
      cases List.eq_nil_of_length_eq_zero (Nat.le_zero.mp hn)
      exact nomatch ha
  | n + 1, depth, .operand text :: tokens, hn, ha, hc => by
      have hlen : tokens.length ≤ n := Nat.le_of_succ_le_succ hn
      refine phrase_of_factor (.operand text) ha hc ?_
      rintro op us rfl
      exact exists_phrase n depth us (Nat.le_of_succ_le hlen) ha hc
  | n + 1, depth, .paren .opening :: tokens, hn, ha, hc => by
      have hlen : tokens.length ≤ n := Nat.le_of_succ_le_succ hn
      -- what is inside of the group ends at its own closing parenthesis
      obtain ⟨ts, _, t, rfl, ht, rest, rfl, ha', hc'⟩ :=
        exists_phrase n (depth + 1) tokens hlen ha (closes_opening.mp hc)
      rw [List.length_append, List.length_cons] at hlen
      have := phrase_of_factor (.group ht) ha' hc' ?_
      · rwa [List.cons_append, List.append_assoc] at this
      · rintro op us rfl
        rw [List.length_cons] at hlen
        exact exists_phrase n depth us (by omega) ha' hc'

theorem exists_derives {tokens : List Token} (ha : alternate true tokens = true)
    (hb : Balanced (parens tokens)) : ∃ t, Derives .expression tokens t := by
  obtain ⟨ts, _, t, rfl, ht, rfl⟩ := exists_phrase tokens.length 0 tokens (Nat.le_refl _) ha hb
  rw [List.append_nil]
  exact ⟨t, ht⟩

/-! ## Accepted tokens -/

theorem sequence_of_ofTokens {tokens : List Token} {t : Expr} (h : Expr.ofTokens tokens = .ok t) :
    Postfix.ofTokens tokens = .ok t.postorder := by
  have h' : (Postfix.ofTokens tokens).bind Expr.ofPostfix = .ok t := h
  cases hs : Postfix.ofTokens tokens with
  | error e => rw [hs] at h'; exact nomatch h'
  | ok sequence =>
      rw [hs] at h'
      exact congrArg Except.ok (Expr.eq_postorder_of_ofPostfix h')

/-- The syntax trees are the accepted trees of alternating tokens. -/
theorem derives_iff_accepted_and_alternate {tokens : List Token} {t : Expr} :
    Derives .expression tokens t ↔
      Expr.ofTokens tokens = .ok t ∧ alternate true tokens = true := by
  constructor
  · intro h
    exact ⟨Expr.ofTokens_eq h.reads.ofTokens, alternate_of_derives h⟩
  · rintro ⟨h, ha⟩
    have hs := sequence_of_ofTokens h
    obtain ⟨t', ht'⟩ := exists_derives ha (Postfix.exists_ofTokens_iff.mp ⟨_, hs⟩)
    have := h.symm.trans (Expr.ofTokens_eq ht'.reads.ofTokens)
    cases this
    exact ht'

/-- An operator behind its operands is accepted, though no phrase has one there. -/
theorem accepts_beyond_grammar :
    Expr.ofTokens [.operand "a", .operand "b", .operator .add] =
      .ok (.binary .add (.operand "a") (.operand "b")) ∧
    ¬ ∃ t, Derives .expression [.operand "a", .operand "b", .operator .add] t := by
  refine ⟨rfl, ?_⟩
  rintro ⟨t, h⟩
  exact absurd (alternate_of_derives h) (by decide)

end ArithTree
