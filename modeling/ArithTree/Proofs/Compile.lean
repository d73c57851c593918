/-
# The answer to a text

Five steps can refuse a text, and the first that does gives the answer.  `Fate`
says which one it is in terms of the text: what its characters are, whether
there is more than blanks, whether its parentheses match, and last whether its
postfix sequence has enough operands for the operators.  Every text has its
fate (`fate_parse`), and drawing the tree adds no fault of its own.

Two faults have a name and are never reported.  The scanner knows every
character that the check lets through (`kind_ne_foreign`), and no parenthesis
gets into a postfix sequence.
-/
import ArithTree.Compile
import ArithTree.Proofs.Postfix.Conserved
import ArithTree.Proofs.Postfix.Tree
import ArithTree.Proofs.Scan
import ArithTree.Proofs.Source

namespace ArithTree

open Token (Scans kind)

/-! ## The text and its tokens -/

/-- The text consists of spaces, if of anything. -/
def Source.Blank (source : String) : Prop :=
  ∀ c ∈ source.toList, c = ' '

def Source.parens (source : String) : List Paren :=
  source.toList.filterMap Paren.ofSymbol?

theorem isAlphanum_or_mem {c : Char} (h : Source.isAllowed c = true) :
    c.isAlphanum = true ∨ c ∈ ['+', '-', '*', '/', '(', ')', ' '] := by
  rcases Bool.or_eq_true_iff.mp h with h | h
  · exact Or.inl h
  · exact Or.inr (of_decide_eq_true h)

theorem kind_ne_foreign {c : Char} (h : Source.isAllowed c = true) : kind c ≠ .foreign := by
  rcases isAlphanum_or_mem h with h | h
  · rcases Token.kind_of_isAlphanum h with h | h
    · rw [h]; exact Token.CharKind.noConfusion
    · rw [h]; exact Token.CharKind.noConfusion
  · simp only [List.mem_cons, List.not_mem_nil, or_false] at h
    rcases h with rfl | rfl | rfl | rfl | rfl | rfl | rfl
    all_goals decide

theorem eq_space {c : Char} (h : Source.isAllowed c = true) (hk : kind c = .blank) : c = ' ' := by
  have hc := Token.blank_of_kind hk
  simp only [List.mem_cons, List.not_mem_nil, or_false] at hc
  rcases hc with rfl | rfl | rfl | rfl | rfl
  · rfl
  all_goals exact absurd h (by decide)

theorem exists_scan {source : String} (h : Source.check source = .ok ()) :
    ∃ tokens, Token.scan source = .ok tokens ∧ (tokens = [] ↔ Source.Blank source) ∧
      Token.parens tokens = Source.parens source := by
  have hall := (Source.check_eq_ok_iff.mp h).1
  obtain ⟨tokens, hs⟩ := Token.exists_scans fun c hc => kind_ne_foreign (hall c hc)
  refine ⟨tokens, Token.scanFrom_eq_ok_iff.mpr hs, ?_, hs.parens⟩
  rw [hs.eq_nil_iff]
  constructor
  · intro hblank c hc
    exact eq_space (hall c hc) (hblank c hc)
  · intro hblank c hc
    rw [hblank c hc]
    rfl

/-! ## The steps in their order -/

theorem lex_of_check_error {source : String} {e : CompileError}
    (h : Source.check source = .error e) : lex source = .error e := by
  unfold lex
  rw [h]
  rfl

theorem lex_of_scan {source : String} {tokens : List Token}
    (hcheck : Source.check source = .ok ()) (hscan : Token.scan source = .ok tokens) :
    lex source = if tokens = [] then .error .emptyExpression else .ok tokens := by
  unfold lex
  rw [hcheck, hscan]
  cases tokens with
  | nil => rfl
  | cons token tokens => rfl

theorem lex_eq_ok_iff {source : String} {tokens : List Token} : lex source = .ok tokens ↔
    Source.check source = .ok () ∧ Token.scan source = .ok tokens ∧ tokens ≠ [] := by
  constructor
  · intro h
    cases hcheck : Source.check source with
    | error e => rw [lex_of_check_error hcheck] at h; exact nomatch h
    | ok _ =>
        obtain ⟨ts, hscan, _⟩ := exists_scan hcheck
        rw [lex_of_scan hcheck hscan] at h
        split at h
        · exact nomatch h
        · next hne => cases h; exact ⟨rfl, hscan, hne⟩
  · rintro ⟨hcheck, hscan, hne⟩
    rw [lex_of_scan hcheck hscan, if_neg hne]

theorem build_of_ofTokens_error {tokens : List Token} {e : CompileError}
    (h : Postfix.ofTokens tokens = .error e) : build tokens = .error e := by
  unfold build
  rw [h]
  rfl

theorem build_of_ofTokens {tokens sequence : List Token}
    (h : Postfix.ofTokens tokens = .ok sequence) :
    build tokens = (Expr.ofPostfix sequence).map (Parsed.mk sequence) := by
  unfold build
  rw [h]
  show Except.bind (Expr.ofPostfix sequence) _ = _
  cases Expr.ofPostfix sequence with
  | error e => rfl
  | ok t => rfl

theorem build_eq_ok_iff {tokens : List Token} {p : Parsed} : build tokens = .ok p ↔
    Postfix.ofTokens tokens = .ok p.sequence ∧ Expr.ofPostfix p.sequence = .ok p.tree := by
  constructor
  · intro h
    cases hpost : Postfix.ofTokens tokens with
    | error e => rw [build_of_ofTokens_error hpost] at h; exact nomatch h
    | ok sequence =>
        rw [build_of_ofTokens hpost] at h
        cases htree : Expr.ofPostfix sequence with
        | error e => rw [htree] at h; exact nomatch h
        | ok t => rw [htree] at h; cases h; exact ⟨rfl, htree⟩
  · rintro ⟨hpost, htree⟩
    rw [build_of_ofTokens hpost, htree]
    rfl

theorem parse_of_lex {source : String} {tokens : List Token} (h : lex source = .ok tokens) :
    parse source = build tokens := by
  unfold parse
  rw [h]
  rfl

theorem parse_of_lex_error {source : String} {e : CompileError} (h : lex source = .error e) :
    parse source = .error e := by
  unfold parse
  rw [h]
  rfl

theorem parse_eq_ok_iff {source : String} {p : Parsed} : parse source = .ok p ↔
    ∃ tokens, lex source = .ok tokens ∧ build tokens = .ok p := by
  constructor
  · intro h
    cases hlex : lex source with
    | error e => rw [parse_of_lex_error hlex] at h; exact nomatch h
    | ok tokens => exact ⟨tokens, rfl, (parse_of_lex hlex).symm.trans h⟩
  · rintro ⟨tokens, hlex, hbuild⟩
    rw [parse_of_lex hlex, hbuild]

theorem parse_eq_error_iff {source : String} {e : CompileError} : parse source = .error e ↔
    lex source = .error e ∨ ∃ tokens, lex source = .ok tokens ∧ build tokens = .error e := by
  cases hlex : lex source with
  | error e' =>
      rw [parse_of_lex_error hlex]
      simp
  | ok tokens =>
      rw [parse_of_lex hlex]
      simp

/-! ## The fate of a text -/

/-- The tokens of the text have the postfix sequence. -/
def Converts (source : String) (sequence : List Token) : Prop :=
  ∃ tokens, Token.scan source = .ok tokens ∧ Postfix.ofTokens tokens = .ok sequence

theorem Converts.unique {source : String} {sequence sequence' : List Token}
    (h : Converts source sequence) (h' : Converts source sequence') : sequence = sequence' := by
  obtain ⟨tokens, hscan, hpost⟩ := h
  obtain ⟨tokens', hscan', hpost'⟩ := h'
  cases hscan.symm.trans hscan'
  cases hpost.symm.trans hpost'
  rfl

/-- What becomes of a text: the first condition that it breaks decides. -/
inductive Fate (source : String) : Except CompileError Parsed → Prop
  | invalid {column : Nat} {v : Violation} :
      Source.check source = .error (.invalidExpression column v) → (∀ c, v ≠ .unrecognized c) →
        Fate source (.error (.invalidExpression column v))
  | empty : Source.check source = .ok () → Source.Blank source →
      Fate source (.error .emptyExpression)
  | unbalanced {kind : Unmatched} {index : Nat} : Source.check source = .ok () →
      ¬ Source.Blank source → ¬ Balanced (Source.parens source) →
        Fate source (.error (.unbalancedParentheses kind index))
  | malformed {sequence : List Token} {m : Malformation} : Source.check source = .ok () →
      ¬ Source.Blank source → Balanced (Source.parens source) → Converts source sequence →
        Expr.Deficient sequence → (∀ position, m ≠ .parenthesis position) →
          Fate source (.error (.malformedPostfix m))
  | accepted {p : Parsed} : Source.check source = .ok () →
      ¬ Source.Blank source → Balanced (Source.parens source) → Converts source p.sequence →
        ¬ Expr.Deficient p.sequence → Fate source (.ok p)

theorem fate_parse (source : String) : Fate source (parse source) := by
  cases hcheck : Source.check source with
  | error e =>
      rw [parse_of_lex_error (lex_of_check_error hcheck)]
      obtain ⟨column, v, rfl, rfl | ⟨c, rfl⟩⟩ := Source.check_error hcheck
      · exact .invalid hcheck fun _ h => nomatch h
      · exact .invalid hcheck fun _ h => nomatch h
  | ok _ =>
      obtain ⟨tokens, hscan, hnil, hparens⟩ := exists_scan hcheck
      have hlex := lex_of_scan hcheck hscan
      by_cases hempty : tokens = []
      · rw [if_pos hempty] at hlex
        rw [parse_of_lex_error hlex]
        exact .empty hcheck (hnil.mp hempty)
      rw [if_neg hempty] at hlex
      have hblank : ¬ Source.Blank source := fun h => hempty (hnil.mpr h)
      have hbal : (∃ sequence, Postfix.ofTokens tokens = .ok sequence) ↔
          Balanced (Source.parens source) := hparens ▸ Postfix.exists_ofTokens_iff
      rw [parse_of_lex hlex]
      cases hpost : Postfix.ofTokens tokens with
      | error e =>
          obtain ⟨kind, index, rfl⟩ := Postfix.ofTokens_error hpost
          rw [build_of_ofTokens_error hpost]
          refine .unbalanced hcheck hblank fun h => ?_
          obtain ⟨sequence, h⟩ := hbal.mpr h
          exact nomatch hpost.symm.trans h
      | ok sequence =>
          have hb := hbal.mp ⟨sequence, hpost⟩
          have hconv : Converts source sequence := ⟨tokens, hscan, hpost⟩
          rw [build_of_ofTokens hpost]
          rcases Expr.ofPostfix_cases (Postfix.paren_not_mem_sequence hpost) with
            ⟨hd, t, ht⟩ | ⟨hd, m, hm, hpar⟩
          · rw [ht]
            exact .accepted hcheck hblank hb hconv hd
          · rw [hm]
            exact .malformed hcheck hblank hb hconv hd hpar

/-! ## One fate excludes the others -/

namespace Fate
variable {source : String} {r : Except CompileError Parsed}

theorem invalid_iff (h : Fate source r) {e : CompileError} : Source.check source = .error e ↔
    r = .error e ∧ ∃ column v, e = .invalidExpression column v := by
  constructor
  · intro hcheck
    cases h with
    | invalid h _ =>
        cases hcheck.symm.trans h
        exact ⟨rfl, _, _, rfl⟩
    | empty h _ | unbalanced h _ _ | malformed h _ _ _ _ _ | accepted h _ _ _ _ =>
        exact nomatch hcheck.symm.trans h
  · rintro ⟨rfl, column, v, rfl⟩
    cases h with
    | invalid h _ => exact h

theorem empty_iff (h : Fate source r) : r = .error .emptyExpression ↔
    Source.check source = .ok () ∧ Source.Blank source := by
  constructor
  · rintro rfl
    cases h with
    | empty hcheck hblank => exact ⟨hcheck, hblank⟩
  · rintro ⟨hcheck, hblank⟩
    cases h with
    | invalid h _ => exact nomatch hcheck.symm.trans h
    | empty _ _ => rfl
    | unbalanced _ h _ | malformed _ h _ _ _ _ | accepted _ h _ _ _ => exact absurd hblank h

theorem unbalanced_iff (h : Fate source r) :
    (∃ kind index, r = .error (.unbalancedParentheses kind index)) ↔
      Source.check source = .ok () ∧ ¬ Source.Blank source ∧
        ¬ Balanced (Source.parens source) := by
  constructor
  · rintro ⟨kind, index, rfl⟩
    cases h with
    | unbalanced hcheck hblank hbal => exact ⟨hcheck, hblank, hbal⟩
  · rintro ⟨hcheck, hblank, hbal⟩
    cases h with
    | invalid h _ => exact nomatch hcheck.symm.trans h
    | empty _ h => exact absurd h hblank
    | unbalanced _ _ _ => exact ⟨_, _, rfl⟩
    | malformed _ _ h _ _ _ | accepted _ _ h _ _ => exact absurd h hbal

theorem malformed_iff (h : Fate source r) : (∃ m, r = .error (.malformedPostfix m)) ↔
    Source.check source = .ok () ∧ ¬ Source.Blank source ∧ Balanced (Source.parens source) ∧
      ∃ sequence, Converts source sequence ∧ Expr.Deficient sequence := by
  constructor
  · rintro ⟨m, rfl⟩
    cases h with
    | malformed hcheck hblank hbal hconv hd _ => exact ⟨hcheck, hblank, hbal, _, hconv, hd⟩
  · rintro ⟨hcheck, hblank, hbal, sequence, hconv, hd⟩
    cases h with
    | invalid h _ => exact nomatch hcheck.symm.trans h
    | empty _ h => exact absurd h hblank
    | unbalanced _ _ h => exact absurd hbal h
    | malformed _ _ _ _ _ _ => exact ⟨_, rfl⟩
    | accepted _ _ _ h hd' => exact absurd (h.unique hconv ▸ hd) hd'

theorem accepted_iff (h : Fate source r) : (∃ p, r = .ok p) ↔
    Source.check source = .ok () ∧ ¬ Source.Blank source ∧ Balanced (Source.parens source) ∧
      ∃ sequence, Converts source sequence ∧ ¬ Expr.Deficient sequence := by
  constructor
  · rintro ⟨p, rfl⟩
    cases h with
    | accepted hcheck hblank hbal hconv hd => exact ⟨hcheck, hblank, hbal, _, hconv, hd⟩
  · rintro ⟨hcheck, hblank, hbal, sequence, hconv, hd⟩
    cases h with
    | invalid h _ => exact nomatch hcheck.symm.trans h
    | empty _ h => exact absurd h hblank
    | unbalanced _ _ h => exact absurd hbal h
    | malformed _ _ _ h hd' _ => exact absurd (h.unique hconv ▸ hd') hd
    | accepted _ _ _ _ _ => exact ⟨_, rfl⟩

theorem ne_unrecognized (h : Fate source r) (column : Nat) (c : Char) :
    r ≠ .error (.invalidExpression column (.unrecognized c)) := by
  rintro rfl
  cases h with
  | invalid _ hv => exact hv c rfl

theorem ne_parenthesis (h : Fate source r) (position : Nat) :
    r ≠ .error (.malformedPostfix (.parenthesis position)) := by
  rintro rfl
  cases h with
  | malformed _ _ _ _ _ hm => exact hm position rfl

end Fate

theorem lex_eq_error_iff {source : String} {e : CompileError} : lex source = .error e ↔
    parse source = .error e ∧ ((∃ column v, e = .invalidExpression column v) ∨
      e = .emptyExpression) := by
  have hfate := fate_parse source
  constructor
  · intro h
    refine ⟨parse_of_lex_error h, ?_⟩
    cases hcheck : Source.check source with
    | error e' =>
        cases (lex_of_check_error hcheck).symm.trans h
        exact Or.inl (hfate.invalid_iff.mp hcheck).2
    | ok _ =>
        obtain ⟨tokens, hscan, _⟩ := exists_scan hcheck
        rw [lex_of_scan hcheck hscan] at h
        split at h
        · cases h; exact Or.inr rfl
        · exact nomatch h
  · rintro ⟨h, ⟨column, v, rfl⟩ | rfl⟩
    · exact lex_of_check_error (hfate.invalid_iff.mpr ⟨h, column, v, rfl⟩)
    · obtain ⟨hcheck, hblank⟩ := hfate.empty_iff.mp h
      obtain ⟨tokens, hscan, hnil, _⟩ := exists_scan hcheck
      rw [lex_of_scan hcheck hscan, if_pos (hnil.mpr hblank)]

/-! ## Compiling -/

section Compile
variable {α : Type} [Coordinate α] (options : Layout.Options α) (source : String)

theorem compile_eq_error_iff {e : CompileError} :
    compile options source = .error e ↔ parse source = .error e := by
  unfold compile
  cases parse source with
  | error e' => exact ⟨fun h => by cases h; rfl, fun h => by cases h; rfl⟩
  | ok p => exact ⟨fun h => (nomatch h), fun h => (nomatch h)⟩

theorem exists_compile_iff :
    (∃ c, compile options source = .ok c) ↔ ∃ p, parse source = .ok p := by
  unfold compile
  cases parse source with
  | error e =>
      constructor
      · rintro ⟨_, h⟩; exact nomatch h
      · rintro ⟨_, h⟩; exact nomatch h
  | ok p => exact ⟨fun _ => ⟨p, rfl⟩, fun _ => ⟨_, rfl⟩⟩

theorem compile_eq_ok_iff {c : Compilation α} : compile options source = .ok c ↔
    ∃ p, parse source = .ok p ∧ c = ⟨p, p.tree.visits, Layout.ofExpr options p.tree⟩ := by
  unfold compile
  cases parse source with
  | error e =>
      constructor
      · intro h; exact nomatch h
      · rintro ⟨_, h, _⟩; exact nomatch h
  | ok p =>
      constructor
      · intro h
        cases h
        exact ⟨p, rfl, rfl⟩
      · rintro ⟨_, hp, rfl⟩
        cases hp
        rfl

/-- The answer to a text is its violation; or else that it is blank; or else
that its parentheses do not match; or else that its postfix sequence lacks
operands or has too many; or else a result. -/
theorem compile_cases :
    (∀ e, Source.check source = .error e ↔
      compile options source = .error e ∧ ∃ column v, e = .invalidExpression column v) ∧
    (compile options source = .error .emptyExpression ↔
      Source.check source = .ok () ∧ Source.Blank source) ∧
    ((∃ kind index, compile options source = .error (.unbalancedParentheses kind index)) ↔
      Source.check source = .ok () ∧ ¬ Source.Blank source ∧
        ¬ Balanced (Source.parens source)) ∧
    ((∃ m, compile options source = .error (.malformedPostfix m)) ↔
      Source.check source = .ok () ∧ ¬ Source.Blank source ∧ Balanced (Source.parens source) ∧
        ∃ sequence, Converts source sequence ∧ Expr.Deficient sequence) ∧
    ((∃ c, compile options source = .ok c) ↔
      Source.check source = .ok () ∧ ¬ Source.Blank source ∧ Balanced (Source.parens source) ∧
        ∃ sequence, Converts source sequence ∧ ¬ Expr.Deficient sequence) ∧
    (∀ column c, compile options source ≠ .error (.invalidExpression column (.unrecognized c))) ∧
    (∀ position, compile options source ≠ .error (.malformedPostfix (.parenthesis position))) := by
  have herr := fun e => compile_eq_error_iff options source (e := e)
  have h := fate_parse source
  simp only [herr, exists_compile_iff, ne_eq]
  exact ⟨fun e => h.invalid_iff, h.empty_iff, h.unbalanced_iff, h.malformed_iff, h.accepted_iff,
    h.ne_unrecognized, h.ne_parenthesis⟩

end Compile

end ArithTree
