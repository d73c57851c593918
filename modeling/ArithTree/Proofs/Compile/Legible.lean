/-
# Trees read back from their visits

The text of a visit has a space behind every node and nothing else between the
sides of an operator.  Even so the tree can be read back from the visit in
preorder, and from the one in postorder, if no leaf has a space in its text or
looks like an operator (`visits_unambiguous`).

The text is read in two steps.  The spaces give back the texts of the nodes, and
a text that may stand at a node tells whether it is a leaf (`eq_of_visited_eq`).
Then the tokens are read: no tree is written in preorder at the beginning of
another one (`preorder_append_inj`), and postorder is what `ofPostfix` reads.
-/
import ArithTree.Proofs.Compile.Products

namespace ArithTree

/-! ## Texts that can be told apart -/

/-- The text has no space in it and is not the sign of an operator. -/
def LegibleText (text : String) : Prop :=
  ' ' ∉ text.toList ∧ ∀ op : Operator, text ≠ op.text

instance (text : String) : Decidable (LegibleText text) :=
  decidable_of_iff (' ' ∉ text.toList ∧ ∀ op ∈ Operator.all, text ≠ op.text)
    (and_congr_right fun _ => ⟨fun h op => h op op.mem_all, fun h op _ => h op⟩)

def Token.Legible : Token → Prop
  | .operand text => LegibleText text
  | .operator _ => True
  | .paren _ => False

theorem Operator.text_injective {op op' : Operator} (h : op.text = op'.text) : op = op' := by
  have hsymbol : op.symbol = op'.symbol := by
    simpa [Operator.text] using congrArg String.toList h
  have hsome := Operator.ofSymbol?_symbol op'
  rw [← hsymbol, Operator.ofSymbol?_symbol] at hsome
  exact Option.some.inj hsome

theorem Token.Legible.space_notMem {token : Token} (h : token.Legible) :
    ' ' ∉ token.text.toList := by
  cases token with
  | operand text => exact h.1
  | operator op => cases op <;> decide
  | paren side => exact h.elim

theorem Token.Legible.eq_of_text_eq {token token' : Token} (h : token.Legible)
    (h' : token'.Legible) (htext : token.text = token'.text) : token = token' := by
  cases token with
  | operand text =>
      cases token' with
      | operand text' => exact congrArg Token.operand htext
      | operator op => exact absurd htext (h.2 op)
      | paren side => exact h'.elim
  | operator op =>
      cases token' with
      | operand text' => exact absurd htext.symm (h'.2 op)
      | operator op' => exact congrArg Token.operator (Operator.text_injective htext)
      | paren side => exact h'.elim
  | paren side => exact h.elim

theorem LegibleText.of_plain {text : String} (h : Token.Plain text) : LegibleText text := by
  have hall := h.isAlphanum
  refine ⟨fun hspace => absurd (hall _ hspace) (by decide), ?_⟩
  rintro op rfl
  have hsign : op.symbol.isAlphanum = true := hall _ (by simp [Operator.text])
  cases op <;> exact absurd hsign (by decide)

namespace Expr

/-! ## Reading the text -/

theorem takeWhile_append_mark {mark : Char} {s rest : List Char} (h : mark ∉ s) :
    (s ++ mark :: rest).takeWhile (· ≠ mark) = s := by
  have hs : ∀ c ∈ s, decide (c ≠ mark) = true := by
    intro c hc
    exact decide_eq_true (ne_of_mem_of_not_mem hc h)
  rw [List.takeWhile_append_of_pos hs, List.takeWhile_cons_of_neg (by simp), List.append_nil]

/-- Where the first parts do not hold the mark, the mark that follows ends them. -/
theorem eq_of_append_mark {mark : Char} {s s' rest rest' : List Char} (hs : mark ∉ s)
    (hs' : mark ∉ s') (h : s ++ mark :: rest = s' ++ mark :: rest') : s = s' ∧ rest = rest' := by
  have htake := congrArg (List.takeWhile (· ≠ mark)) h
  rw [takeWhile_append_mark hs, takeWhile_append_mark hs'] at htake
  subst htake
  exact ⟨rfl, (List.cons.inj (List.append_cancel_left h)).2⟩

theorem toList_visited_cons (token : Token) (tokens : List Token) :
    (visited (token :: tokens)).toList = token.text.toList ++ ' ' :: (visited tokens).toList := by
  simp [visited_cons]

theorem visited_ne (token : Token) (tokens : List Token) :
    visited (token :: tokens) ≠ visited [] := by
  intro h
  have hnil := congrArg String.toList h
  rw [toList_visited_cons] at hnil
  exact absurd hnil (by simp [visited])

/-- The spaces end the texts of the nodes, and the texts are those of one token each. -/
theorem eq_of_visited_eq : ∀ {tokens tokens' : List Token}, (∀ token ∈ tokens, token.Legible) →
    (∀ token ∈ tokens', token.Legible) → visited tokens = visited tokens' → tokens = tokens'
  | [], [], _, _, _ => rfl
  | [], token :: tokens, _, _, h => absurd h.symm (visited_ne token tokens)
  | token :: tokens, [], _, _, h => absurd h (visited_ne token tokens)
  | token :: tokens, token' :: tokens', hlegible, hlegible', h => by
      obtain ⟨hhead, htail⟩ := List.forall_mem_cons.mp hlegible
      obtain ⟨hhead', htail'⟩ := List.forall_mem_cons.mp hlegible'
      have hlist := congrArg String.toList h
      rw [toList_visited_cons, toList_visited_cons] at hlist
      obtain ⟨htext, hrest⟩ := eq_of_append_mark hhead.space_notMem hhead'.space_notMem hlist
      rw [hhead.eq_of_text_eq hhead' (String.toList_inj.mp htext),
        eq_of_visited_eq htail htail' (String.toList_inj.mp hrest)]

/-! ## Reading the tokens -/

/-- A tree in preorder shows where it ends, whatever stands behind it. -/
theorem preorder_append_inj {t : Expr} : ∀ {u : Expr} {rest rest' : List Token},
    t.preorder ++ rest = u.preorder ++ rest' → t = u ∧ rest = rest' := by
  induction t with
  | operand text =>
      intro u rest rest' h
      cases u with
      | operand text' =>
          obtain ⟨htoken, hrest⟩ := List.cons.inj h
          cases htoken
          exact ⟨rfl, hrest⟩
      | binary op left right => exact nomatch (List.cons.inj h).1
  | binary op left right ihl ihr =>
      intro u rest rest' h
      cases u with
      | operand text => exact nomatch (List.cons.inj h).1
      | binary op' left' right' =>
          rw [preorder, preorder, List.cons_append, List.cons_append, List.append_assoc,
            List.append_assoc] at h
          obtain ⟨htoken, hsides⟩ := List.cons.inj h
          cases htoken
          -- the right sides are compared behind the left ones, which end at the same place
          obtain ⟨rfl, hright⟩ := ihl hsides
          obtain ⟨rfl, hrest⟩ := ihr hright
          exact ⟨rfl, hrest⟩

theorem preorder_injective {t u : Expr} (h : t.preorder = u.preorder) : t = u :=
  (preorder_append_inj (congrArg (· ++ []) h)).1

theorem postorder_injective {t u : Expr} (h : t.postorder = u.postorder) : t = u := by
  have hread := ofPostfix_postorder t
  rw [h, ofPostfix_postorder u] at hread
  exact (Except.ok.inj hread).symm

/-! ## Reading the visits -/

/-- No leaf has a space in its text or looks like an operator. -/
def Legible (t : Expr) : Prop :=
  ∀ w ∈ t.leaves, LegibleText w

instance (t : Expr) : Decidable t.Legible :=
  inferInstanceAs (Decidable (∀ w ∈ t.leaves, LegibleText w))

theorem legible_of_mem_preorder {t : Expr} (h : t.Legible) :
    ∀ token ∈ t.preorder, token.Legible := by
  induction t with
  | operand text => exact List.forall_mem_singleton.mpr (h text (List.mem_singleton_self _))
  | binary op left right ihl ihr =>
      obtain ⟨hl, hr⟩ := List.forall_mem_append.mp h
      exact List.forall_mem_cons.mpr ⟨trivial, List.forall_mem_append.mpr ⟨ihl hl, ihr hr⟩⟩

theorem legible_of_mem_postorder {t : Expr} (h : t.Legible) :
    ∀ token ∈ t.postorder, token.Legible := by
  induction t with
  | operand text => exact List.forall_mem_singleton.mpr (h text (List.mem_singleton_self _))
  | binary op left right ihl ihr =>
      obtain ⟨hl, hr⟩ := List.forall_mem_append.mp h
      refine List.forall_mem_append.mpr ⟨List.forall_mem_append.mpr ⟨ihl hl, ihr hr⟩, ?_⟩
      exact List.forall_mem_singleton.mpr trivial

theorem eq_of_visited_preorder {t u : Expr} (ht : t.Legible) (hu : u.Legible)
    (h : visited t.preorder = visited u.preorder) : t = u :=
  preorder_injective
    (eq_of_visited_eq (legible_of_mem_preorder ht) (legible_of_mem_preorder hu) h)

theorem eq_of_visited_postorder {t u : Expr} (ht : t.Legible) (hu : u.Legible)
    (h : visited t.postorder = visited u.postorder) : t = u :=
  postorder_injective
    (eq_of_visited_eq (legible_of_mem_postorder ht) (legible_of_mem_postorder hu) h)

end Expr

/-! ## The compilation of a text -/

section Compile
variable {α : Type} [Coordinate α]

theorem legible_of_parse {source : String} {p : Parsed} (h : parse source = .ok p) :
    p.tree.Legible :=
  fun w hw => .of_plain (plain_of_parse h w hw)

/-- The preorder or the postorder that is shown of a tree determines it, if its
leaves can be told from operators and have no space in them.  The leaves of
accepted texts are such; so two texts of which the same preorder or the same
postorder is shown have the same tree and the same postfix sequence, and drawn
with the same options the same drawing. -/
theorem visits_unambiguous :
    (∀ t u : Expr, t.Legible → u.Legible →
      (t.visits.preorder = u.visits.preorder → t = u) ∧
      (t.visits.postorder = u.visits.postorder → t = u)) ∧
    ∀ (options options' : Layout.Options α) (source source' : String) (c c' : Compilation α),
      compile options source = .ok c → compile options' source' = .ok c' →
      c.visits.preorder = c'.visits.preorder ∨ c.visits.postorder = c'.visits.postorder →
        c.tree = c'.tree ∧ c.sequence = c'.sequence ∧
          (options = options' → c.layout = c'.layout) := by
  have htrees : ∀ t u : Expr, t.Legible → u.Legible →
      (t.visits.preorder = u.visits.preorder → t = u) ∧
      (t.visits.postorder = u.visits.postorder → t = u) := by
    intro t u ht hu
    exact ⟨Expr.eq_of_visited_preorder ht hu, Expr.eq_of_visited_postorder ht hu⟩
  refine ⟨htrees, ?_⟩
  intro options options' source source' c c' h h' hvisits
  obtain ⟨p, hparse, rfl⟩ := (compile_eq_ok_iff options source).mp h
  obtain ⟨p', hparse', rfl⟩ := (compile_eq_ok_iff options' source').mp h'
  have hread := htrees p.tree p'.tree (legible_of_parse hparse) (legible_of_parse hparse')
  have htree : p.tree = p'.tree := hvisits.elim hread.1 hread.2
  refine ⟨htree, ?_, ?_⟩
  · show p.sequence = p'.sequence
    rw [sequence_of_parse hparse, sequence_of_parse hparse', htree]
  · rintro rfl
    show Layout.ofExpr options p.tree = Layout.ofExpr options p'.tree
    rw [htree]

/-- Two texts of which the same preorder is shown have all else in common, and the
tree with its sides exchanged is shown by another postorder. -/
theorem unambiguous_redundant_parentheses :
    let t : Expr := .binary .add (.binary .mul (.operand "x") (.operand "7")) (.operand "y")
    let u : Expr := .binary .add (.operand "y") (.binary .mul (.operand "x") (.operand "7"))
    t.Legible ∧ u.Legible ∧ t.visits.postorder ≠ u.visits.postorder ∧
      ∃ c c' : Compilation Float, compile .standard "x * 7 + y" = .ok c ∧
        compile .standard "((x 7 *) + (y))" = .ok c' ∧
        c.visits.preorder = "+ * x 7 y " ∧ c'.visits.preorder = "+ * x 7 y " ∧
        c.tree = c'.tree ∧ c.sequence = c'.sequence ∧ c.layout = c'.layout := by
  intro t u
  have ht : t.Legible := by decide
  have hu : u.Legible := by decide
  obtain ⟨htrees, hcompiled⟩ := @visits_unambiguous Float _
  have h : compile .standard "x * 7 + y" =
      .ok ⟨⟨t.postorder, t⟩, t.visits, Layout.ofExpr .standard t⟩ := rfl
  have h' : compile .standard "((x 7 *) + (y))" =
      .ok ⟨⟨t.postorder, t⟩, t.visits, Layout.ofExpr .standard t⟩ := rfl
  obtain ⟨htree, hsequence, hlayout⟩ := hcompiled _ _ _ _ _ _ h h' (Or.inl rfl)
  have hpost : t.visits.postorder ≠ u.visits.postorder :=
    fun hsame => absurd ((htrees t u ht hu).2 hsame) (by decide)
  exact ⟨ht, hu, hpost, _, _, h, h', rfl, rfl, htree, hsequence, hlayout rfl⟩

/-- The visit in inorder is ambiguous, and so is that in preorder where a leaf may be any text. -/
example :
    let a : Expr := .operand "a"
    let b : Expr := .operand "b"
    (Expr.binary .mul (.binary .add a b) b).visits.inorder =
        (Expr.binary .add a (.binary .mul b b)).visits.inorder ∧
      (Expr.binary .add a b).visits.preorder = (Expr.operand "+ a b").visits.preorder :=
  ⟨rfl, rfl⟩

end Compile

end ArithTree
