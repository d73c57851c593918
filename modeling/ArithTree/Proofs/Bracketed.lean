/-
# A tree and its bracketed text

The bracketed text of a tree is read back to the tree exactly if its leaves are
variables and numbers (`parse_bracketed`).

For the one half, each step of the reading is followed through the tree: the
text passes the check, because the spaces keep a minus sign from the digits
behind it; no operand runs into what stands next to it; and with parentheses
around every operator no bound is needed to read the tokens.  The other half
does not look at the text at all.  Whatever is read has the operands that were
scanned for its leaves, and these are plain (`plain_of_parse`).
-/
import ArithTree.Expr.Bracketed
import ArithTree.Proofs.Compile
import ArithTree.Proofs.Grammar.Complete

namespace ArithTree

open Token (Scans Apart Plain)

/-! ## The leaves of what is read -/

def Expr.leaves : Expr → List String
  | .operand text => [text]
  | .binary _ left right => left.leaves ++ right.leaves

theorem Expr.operand_mem_postorder {t : Expr} {w : String} (h : w ∈ t.leaves) :
    .operand w ∈ t.postorder := by
  induction t with
  | operand text =>
      cases List.mem_singleton.mp h
      exact List.mem_singleton_self _
  | binary op left right ihl ihr =>
      refine List.mem_append_left _ ?_
      rcases List.mem_append.mp h with h | h
      · exact List.mem_append_left _ (ihl h)
      · exact List.mem_append_right _ (ihr h)

theorem sequence_of_parse {source : String} {p : Parsed} (h : parse source = .ok p) :
    p.sequence = p.tree.postorder := by
  obtain ⟨tokens, _, hbuild⟩ := parse_eq_ok_iff.mp h
  exact Expr.eq_postorder_of_ofPostfix (build_eq_ok_iff.mp hbuild).2

theorem plain_of_parse {source : String} {p : Parsed} (h : parse source = .ok p) :
    ∀ w ∈ p.tree.leaves, Plain w := by
  intro w hw
  obtain ⟨tokens, hlex, hbuild⟩ := parse_eq_ok_iff.mp h
  have hscan : Scans source.toList tokens := Token.scanFrom_eq_ok_iff.mp (lex_eq_ok_iff.mp hlex).2.1
  have hmem : .operand w ∈ p.sequence := sequence_of_parse h ▸ Expr.operand_mem_postorder hw
  exact hscan.plain w (Postfix.mem_of_mem_sequence (build_eq_ok_iff.mp hbuild).1 hmem)

/-! ## The text passes the check -/

def Clean (s : List Char) : Prop :=
  (∀ c ∈ s, Source.isAllowed c = true) ∧ s.IsChain Source.Loose

namespace Clean

theorem nil : Clean [] :=
  ⟨fun _ h => absurd h List.not_mem_nil, .nil⟩

theorem cons {c : Char} {s : List Char} (hc : Source.isAllowed c = true) (hne : c ≠ '-')
    (hs : Clean s) : Clean (c :: s) := by
  refine ⟨List.forall_mem_cons.mpr ⟨hc, hs.1⟩, List.isChain_cons.mpr ⟨?_, hs.2⟩⟩
  intro d _
  exact Source.loose_of_ne hne

theorem append {s t : List Char} {d : Char} (hs : Clean s) (hd : d.isDigit = false)
    (ht : Clean (d :: t)) : Clean (s ++ d :: t) := by
  refine ⟨List.forall_mem_append.mpr ⟨hs.1, ht.1⟩, List.isChain_append.mpr ⟨hs.2, ht.2, ?_⟩⟩
  intro c _ e he
  cases he
  exact Source.loose_of_not_digit hd

theorem symbol (op : Operator) : Clean [op.symbol] := by
  refine ⟨List.forall_mem_singleton.mpr ?_, .singleton _⟩
  cases op <;> decide

theorem of_isAlphanum : ∀ {s : List Char}, (∀ c ∈ s, c.isAlphanum = true) → Clean s
  | [], _ => .nil
  | c :: s, h => by
      obtain ⟨hc, hs⟩ := List.forall_mem_cons.mp h
      refine .cons (Bool.or_eq_true_iff.mpr (Or.inl hc)) ?_ (of_isAlphanum hs)
      rintro rfl
      exact absurd hc (by decide)

end Clean

theorem Token.Plain.isAlphanum {text : String} (h : Plain text) :
    ∀ c ∈ text.toList, c.isAlphanum = true := by
  intro c hc
  rcases h.2 with h | h
  · exact Bool.or_eq_true_iff.mpr (Or.inl (h c hc))
  · exact Bool.or_eq_true_iff.mpr (Or.inr (h c hc))

namespace Expr

theorem toList_bracketed_binary (op : Operator) (left right : Expr) :
    (binary op left right).bracketed.toList =
      '(' :: (left.bracketed.toList ++
        ' ' :: ([op.symbol] ++ ' ' :: (right.bracketed.toList ++ [')']))) := by
  simp [bracketed, Operator.text]

theorem clean_bracketed {t : Expr} (h : ∀ w ∈ t.leaves, Plain w) :
    Clean t.bracketed.toList := by
  induction t with
  | operand text => exact .of_isAlphanum (h text (List.mem_singleton_self _)).isAlphanum
  | binary op left right ihl ihr =>
      obtain ⟨hl, hr⟩ := List.forall_mem_append.mp h
      have hclose : Clean [')'] := .cons (by decide) (by decide) .nil
      have hright : Clean (' ' :: (right.bracketed.toList ++ [')'])) :=
        .cons (by decide) (by decide) ((ihr hr).append (by decide) hclose)
      -- a minus sign may have a number behind it, but the space comes first
      have hsign : Clean (' ' :: ([op.symbol] ++ ' ' :: (right.bracketed.toList ++ [')']))) :=
        .cons (by decide) (by decide) ((Clean.symbol op).append (by decide) hright)
      rw [toList_bracketed_binary]
      exact .cons (by decide) (by decide) ((ihl hl).append (by decide) hsign)

/-! ## Its tokens -/

def bracketedTokens : Expr → List Token
  | .operand text => [.operand text]
  | .binary op left right =>
    .paren .opening ::
      (left.bracketedTokens ++ .operator op :: right.bracketedTokens ++ [.paren .closing])

theorem scans_bracketed {t : Expr} (h : ∀ w ∈ t.leaves, Plain w) :
    Scans t.bracketed.toList t.bracketedTokens := by
  induction t with
  | operand text =>
      have hw := Token.scanFrom_plain (h text (List.mem_singleton_self _)) 1
      exact Token.scanFrom_eq_ok_iff.mp hw
  | binary op left right ihl ihr =>
      obtain ⟨hl, hr⟩ := List.forall_mem_append.mp h
      have hclose : Scans [')'] [.paren .closing] := .sign rfl .nil
      have hright : Scans (' ' :: (right.bracketed.toList ++ [')']))
          (right.bracketedTokens ++ [.paren .closing]) :=
        .blank rfl ((ihr hr).append hclose (Token.apart_cons (by decide)))
      have hsign : Scans (' ' :: ([op.symbol] ++ ' ' :: (right.bracketed.toList ++ [')'])))
          (.operator op :: (right.bracketedTokens ++ [.paren .closing])) :=
        .blank rfl (.sign (Token.kind_symbol op) hright)
      rw [toList_bracketed_binary, bracketedTokens, List.append_assoc]
      exact .sign rfl ((ihl hl).append hsign (Token.apart_cons (by decide)))

/-- With parentheses around every operator, no bound is needed. -/
theorem reads_bracketedTokens (t : Expr) : ∀ bound : Nat, Reads bound t.bracketedTokens t := by
  induction t with
  | operand text => exact fun bound => .operand bound text
  | binary op left right ihl ihr =>
      intro bound
      exact .group (.binary rfl (ihl op.precedence) (ihr (op.precedence + 1)))

theorem parse_bracketed_of_plain {t : Expr} (h : ∀ w ∈ t.leaves, Plain w) :
    parse t.bracketed = .ok ⟨t.postorder, t⟩ := by
  have hcheck : Source.check t.bracketed = .ok () :=
    Source.check_eq_ok_iff.mpr (clean_bracketed h)
  have hscan : Token.scan t.bracketed = .ok t.bracketedTokens :=
    Token.scanFrom_eq_ok_iff.mpr (scans_bracketed h)
  have hne : t.bracketedTokens ≠ [] := by
    cases t with
    | operand text => exact List.cons_ne_nil _ _
    | binary op left right => exact List.cons_ne_nil _ _
  refine parse_eq_ok_iff.mpr ⟨_, lex_eq_ok_iff.mpr ⟨hcheck, hscan, hne⟩, ?_⟩
  exact build_eq_ok_iff.mpr ⟨(reads_bracketedTokens t 0).ofTokens, ofPostfix_postorder t⟩

end Expr

/-- The bracketed text of a tree is read back to the tree exactly if its leaves
are variables and numbers, and then by way of the postorder of the tree. -/
theorem parse_bracketed (t : Expr) :
    ((∃ p, parse t.bracketed = .ok p ∧ p.tree = t) ↔ ∀ w ∈ t.leaves, Plain w) ∧
      ∀ p, parse t.bracketed = .ok p → p.tree = t → p.sequence = t.postorder := by
  refine ⟨⟨?_, fun h => ⟨_, Expr.parse_bracketed_of_plain h, rfl⟩⟩, ?_⟩
  · rintro ⟨p, h, rfl⟩
    exact plain_of_parse h
  · rintro p h rfl
    exact sequence_of_parse h

end ArithTree
