/-
# The tokens of a text

Which tokens a text has, said without a scanner.  The text is taken apart into
blanks, a token, blanks, a token, and so on (`Spaced`).  The blanks may be
missing, but not between two variables or between two numbers, and that alone
makes every operand as long as it can be: a run of letters in two parts would be
two variables with nothing between them.

A text can be taken apart in this way exactly if the scanner reads it, and only
into the tokens that it reads (`scan_eq_ok_iff`).  What keeps a text from being
read is the first character that begins no token (`scan_eq_error_iff`).
-/
import ArithTree.Proofs.Quoted
import ArithTree.Proofs.Scan
import Mathlib.Data.List.Chain

namespace ArithTree.Token

/-! ## The characters -/

/-- The characters that separate tokens: space, tab, carriage return, line feed, form feed. -/
def blanks : List Char := [' ', '\t', '\r', '\n', '\x0c']

/-- The characters of expressions: ASCII letters and digits, the four signs, the
parentheses, and the blanks. -/
def isKnown (c : Char) : Bool :=
  c.isAlphanum || c ∈ ['+', '-', '*', '/', '(', ')'] || c ∈ blanks

theorem kind_of_mem_blanks {c : Char} (h : c ∈ blanks) : kind c = .blank := by
  simp only [blanks, List.mem_cons, List.not_mem_nil, or_false] at h
  rcases h with rfl | rfl | rfl | rfl | rfl
  all_goals rfl

theorem isAlphanum_of_mem_blanks {c : Char} (h : c ∈ blanks) : c.isAlphanum = false := by
  simp only [blanks, List.mem_cons, List.not_mem_nil, or_false] at h
  rcases h with rfl | rfl | rfl | rfl | rfl
  all_goals rfl

theorem kind_ne_foreign_iff {c : Char} : kind c ≠ .foreign ↔ isKnown c = true := by
  constructor
  · intro h
    rw [isKnown, Bool.or_eq_true, Bool.or_eq_true]
    rcases kind_cases c with hc | ⟨_, hc | ⟨token, hc⟩ | hc⟩
    · exact Or.inl (Or.inl hc)
    · exact Or.inr (decide_eq_true (blank_of_kind hc))
    · refine Or.inl (Or.inr ?_)
      rcases symbol_of_kind hc with ⟨side, rfl, _⟩ | ⟨op, rfl, _⟩
      · cases side <;> rfl
      · cases op <;> rfl
    · exact absurd hc h
  · intro h
    rw [isKnown, Bool.or_eq_true, Bool.or_eq_true, decide_eq_true_eq, decide_eq_true_eq] at h
    rcases h with (h | h) | h
    · rcases kind_of_isAlphanum h with h | h
      · rw [h]; exact CharKind.noConfusion
      · rw [h]; exact CharKind.noConfusion
    · simp only [List.mem_cons, List.not_mem_nil, or_false] at h
      rcases h with rfl | rfl | rfl | rfl | rfl | rfl
      all_goals decide
    · rw [kind_of_mem_blanks h]
      exact CharKind.noConfusion

/-! ## The texts of tokens -/

theorem toList_text_operator (op : Operator) : (operator op).text.toList = [op.symbol] :=
  String.toList_singleton _

theorem toList_text_paren (side : Paren) : (paren side).text.toList = [side.symbol] :=
  String.toList_singleton _

/-- An operand is a variable or a number, so that its text says what it is. -/
def Readable : Token → Prop
  | .operand text => Plain text
  | .operator _ | .paren _ => True

theorem Readable.scans : ∀ {token : Token}, Readable token → Scans token.text.toList [token]
  | .operand _, h => scanFrom_eq_ok_iff.mp (scanFrom_plain h 1)
  | .operator op, _ => by
      rw [toList_text_operator]
      exact .sign (kind_symbol op) .nil
  | .paren .opening, _ | .paren .closing, _ => .sign rfl .nil

theorem Readable.text_ne_nil : ∀ {token : Token}, Readable token → token.text.toList ≠ []
  | .operand _, h => fun hnil => h.1 (String.toList_eq_nil_iff.mp hnil)
  | .operator op, _ => by rw [toList_text_operator]; exact List.cons_ne_nil _ _
  | .paren side, _ => by rw [toList_text_paren]; exact List.cons_ne_nil _ _

theorem operand_of_isAlphanum {c : Char} (h : c.isAlphanum = true) : ∀ {token : Token},
    c ∈ token.text.toList → ∃ w, token = .operand w
  | .operand w, _ => ⟨w, rfl⟩
  | .operator op, hc => by
      rw [toList_text_operator, List.mem_singleton] at hc
      subst hc
      cases op <;> exact absurd h (by decide)
  | .paren side, hc => by
      rw [toList_text_paren, List.mem_singleton] at hc
      subst hc
      cases side <;> exact absurd h (by decide)

/-! ## Neighbours -/

def Letters (text : String) : Prop := ∀ c ∈ text.toList, c.isAlpha = true

def Digits (text : String) : Prop := ∀ c ∈ text.toList, c.isDigit = true

/-- Both tokens are variables, or both are numbers. -/
def OfOneKind : Token → Token → Prop
  | .operand v, .operand w => Letters v ∧ Letters w ∨ Digits v ∧ Digits w
  | _, _ => False

theorem Plain.letters_iff {w : String} (h : Plain w) {c : Char} (hc : c ∈ w.toList) :
    Letters w ↔ c.isAlpha = true := by
  constructor
  · intro hw
    exact hw c hc
  · intro hletter
    rcases h.2 with hw | hw
    · exact hw
    · exact absurd (hw c hc) (not_isDigit_of_isAlpha hletter)

theorem Plain.digits_iff {w : String} (h : Plain w) {c : Char} (hc : c ∈ w.toList) :
    Digits w ↔ c.isDigit = true := by
  constructor
  · intro hw
    exact hw c hc
  · intro hdigit
    rcases h.2 with hw | hw
    · exact absurd hdigit (not_isDigit_of_isAlpha (hw c hc))
    · exact hw

theorem sameRun_iff {v w : String} (hv : Plain v) (hw : Plain w) {c d : Char}
    (hc : c ∈ v.toList) (hd : d ∈ w.toList) :
    sameRun c d = true ↔ OfOneKind (.operand v) (.operand w) := by
  show _ ↔ Letters v ∧ Letters w ∨ Digits v ∧ Digits w
  rw [hv.letters_iff hc, hw.letters_iff hd, hv.digits_iff hc, hw.digits_iff hd, sameRun,
    Bool.or_eq_true, Bool.and_eq_true, Bool.and_eq_true]

theorem ofOneKind_of_sameRun {token next : Token} (htoken : Readable token)
    (hnext : Readable next) {c d : Char} (hc : c ∈ token.text.toList)
    (hd : d ∈ next.text.toList) (h : sameRun c d = true) : OfOneKind token next := by
  obtain ⟨v, rfl⟩ := operand_of_isAlphanum (isAlphanum_of_sameRun (sameRun_comm c d ▸ h)) hc
  obtain ⟨w, rfl⟩ := operand_of_isAlphanum (isAlphanum_of_sameRun h) hd
  exact (sameRun_iff htoken hnext hc hd).mp h

/-! ## Texts in which tokens are spaced -/

/-- The tokens one behind the other, each with its gap behind it. -/
def written (parts : List (Token × List Char)) : List Char :=
  parts.flatMap fun part => part.1.text.toList ++ part.2

theorem written_cons (token : Token) (gap : List Char) (parts : List (Token × List Char)) :
    written ((token, gap) :: parts) = token.text.toList ++ (gap ++ written parts) := by
  rw [written, List.flatMap_cons, List.append_assoc]
  rfl

/-- The text is some blanks and then the tokens, each with blanks behind it. -/
structure Spaced (text first : List Char) (parts : List (Token × List Char)) : Prop where
  text_eq : text = first ++ written parts
  first_blank : ∀ c ∈ first, c ∈ blanks
  gap_blank : ∀ part ∈ parts, ∀ c ∈ part.2, c ∈ blanks
  readable : ∀ part ∈ parts, Readable part.1
  /-- nothing is cut within a run -/
  apart : parts.IsChain fun part next => OfOneKind part.1 next.1 → part.2 ≠ []

/-- The text can be taken apart into the tokens and blanks between them. -/
def HasTokens (text : List Char) (tokens : List Token) : Prop :=
  ∃ first parts, Spaced text first parts ∧ parts.map Prod.fst = tokens

theorem Scans.blanks_append {gap text : List Char} {tokens : List Token}
    (hgap : ∀ c ∈ gap, c ∈ blanks) (h : Scans text tokens) : Scans (gap ++ text) tokens := by
  induction gap with
  | nil => exact h
  | cons c gap ih =>
      obtain ⟨hc, hgap⟩ := List.forall_mem_cons.mp hgap
      exact .blank (kind_of_mem_blanks hc) (ih hgap)

namespace Spaced
variable {text first gap : List Char} {parts : List (Token × List Char)} {token : Token} {c : Char}

theorem nil : Spaced [] [] [] where
  text_eq := rfl
  first_blank := fun _ h => absurd h List.not_mem_nil
  gap_blank := fun _ h => absurd h List.not_mem_nil
  readable := fun _ h => absurd h List.not_mem_nil
  apart := .nil

theorem blank_cons (h : Spaced text first parts) (hc : c ∈ blanks) :
    Spaced (c :: text) (c :: first) parts where
  text_eq := congrArg (c :: ·) h.text_eq
  first_blank := List.forall_mem_cons.mpr ⟨hc, h.first_blank⟩
  gap_blank := h.gap_blank
  readable := h.readable
  apart := h.apart

theorem token_append (h : Spaced text first parts) (token : Token) (htoken : Readable token)
    (hapart : ∀ part ∈ parts.head?, OfOneKind token part.1 → first ≠ []) :
    Spaced (token.text.toList ++ text) [] ((token, first) :: parts) where
  text_eq := by rw [h.text_eq, List.nil_append, written_cons]
  first_blank := fun _ h => absurd h List.not_mem_nil
  gap_blank := List.forall_mem_cons.mpr ⟨h.first_blank, h.gap_blank⟩
  readable := List.forall_mem_cons.mpr ⟨htoken, h.readable⟩
  apart := List.isChain_cons.mpr ⟨hapart, h.apart⟩

theorem tail (h : Spaced text first ((token, gap) :: parts)) :
    Spaced (gap ++ written parts) gap parts where
  text_eq := rfl
  first_blank := (List.forall_mem_cons.mp h.gap_blank).1
  gap_blank := (List.forall_mem_cons.mp h.gap_blank).2
  readable := (List.forall_mem_cons.mp h.readable).2
  apart := (List.isChain_cons.mp h.apart).2

theorem apart_tail (h : Spaced text first ((token, gap) :: parts)) :
    Apart token.text.toList (gap ++ written parts) := by
  obtain ⟨htoken, hparts⟩ := List.forall_mem_cons.mp h.readable
  cases gap with
  | cons b gap =>
      exact apart_cons (isAlphanum_of_mem_blanks (h.tail.first_blank b List.mem_cons_self))
  | nil =>
      cases parts with
      | nil => exact fun _ _ _ hd => nomatch hd
      | cons part parts =>
          obtain ⟨next, gap⟩ := part
          have hnext : Readable next := hparts _ List.mem_cons_self
          have hne : ¬ OfOneKind token next := fun hkind =>
            (List.isChain_cons.mp h.apart).1 _ rfl hkind rfl
          intro c hc d hd
          rw [List.nil_append, written_cons, List.head?_append_of_ne_nil _ hnext.text_ne_nil] at hd
          cases hcd : sameRun c d with
          | false => rfl
          | true =>
              exact absurd (ofOneKind_of_sameRun htoken hnext (List.mem_of_mem_getLast? hc)
                (List.mem_of_mem_head? hd) hcd) hne

/-- Tokens that are spaced are scanned as they stand. -/
theorem scans : ∀ {parts : List (Token × List Char)} {text first : List Char},
    Spaced text first parts → Scans text (parts.map Prod.fst)
  | [], _, _, h => by
      rw [h.text_eq]
      exact .blanks_append h.first_blank .nil
  | (token, gap) :: parts, _, _, h => by
      have htoken : Readable token := h.readable _ List.mem_cons_self
      have hrest := htoken.scans.append h.tail.scans h.apart_tail
      rw [h.text_eq, written_cons]
      exact .blanks_append h.first_blank hrest

end Spaced

/-! ## What is scanned -/

theorem OfOneKind.of_append {v w : String} : ∀ {next : Token},
    OfOneKind (.operand (v ++ w)) next → OfOneKind (.operand w) next
  | .operand _, h => by
      have hmem : ∀ c ∈ w.toList, c ∈ (v ++ w).toList := by
        intro c hc
        rw [String.toList_append]
        exact List.mem_append_right _ hc
      rcases h with ⟨hv, hnext⟩ | ⟨hv, hnext⟩
      · exact Or.inl ⟨fun c hc => hv c (hmem c hc), hnext⟩
      · exact Or.inr ⟨fun c hc => hv c (hmem c hc), hnext⟩

namespace Spaced
variable {text first gap : List Char} {parts : List (Token × List Char)} {c d : Char}

theorem join {w : List Char}
    (h : Spaced (d :: text) first ((.operand (String.ofList (d :: w)), gap) :: parts))
    (hcd : sameRun c d = true) : Spaced (c :: d :: text) []
      ((.operand (String.singleton c ++ String.ofList (d :: w)), gap) :: parts) := by
  have hplain : Plain (String.ofList (d :: w)) := h.readable _ List.mem_cons_self
  have hfirst : first = [] := by
    cases first with
    | nil => rfl
    | cons b first =>
        cases h.text_eq
        have hd := isAlphanum_of_mem_blanks (h.first_blank d List.mem_cons_self)
        exact absurd (isAlphanum_of_sameRun hcd) (by rw [hd]; exact Bool.false_ne_true)
  have htext : d :: text = d :: w ++ (gap ++ written parts) := by
    rw [h.text_eq, hfirst, List.nil_append, written_cons, Token.text, String.toList_ofList]
  have hjoined := h.tail.token_append (.operand (String.singleton c ++ String.ofList (d :: w)))
    (hplain.cons hcd) fun part hpart hkind =>
      (List.isChain_cons.mp h.apart).1 part hpart hkind.of_append
  rw [Token.text, String.toList_append, String.toList_singleton, String.toList_ofList] at hjoined
  rw [htext]
  exact hjoined

theorem word_cons (h : Spaced text first parts) (hc : c.isAlphanum = true)
    (hrun : text.head?.any (sameRun c) = false) :
    Spaced (c :: text) [] ((.operand (String.singleton c), first) :: parts) := by
  have hplain := plain_singleton hc
  have hcons := h.token_append (.operand (String.singleton c)) hplain ?_
  · rwa [Token.text, String.toList_singleton] at hcons
  · rintro ⟨next, gap⟩ hnext hkind rfl
    match next, hkind with
    | .operand w, hkind =>
        have hw : Plain w := h.readable _ (List.mem_of_mem_head? hnext)
        obtain ⟨parts, rfl⟩ : ∃ rest, parts = (.operand w, gap) :: rest := by
          cases parts with
          | nil => exact nomatch hnext
          | cons part rest => cases hnext; exact ⟨rest, rfl⟩
        -- the text begins with the operand, and its first character with that run
        have hne : (operand w).text.toList ≠ [] := Readable.text_ne_nil hw
        obtain ⟨d, more, hd⟩ := List.exists_cons_of_ne_nil hne
        rw [h.text_eq, List.nil_append, written_cons, hd] at hrun
        have hcd : sameRun c d = true := by
          refine (sameRun_iff hplain hw ?_ ?_).mpr hkind
          · rw [String.toList_singleton]
            exact List.mem_singleton_self c
          · rw [show w.toList = d :: more from hd]
            exact List.mem_cons_self
        exact absurd (hcd.symm.trans hrun) Bool.noConfusion

end Spaced

/-- What is scanned is spaced.  Each character goes in front of what is behind it:
a blank into the first gap, a sign before that gap, and a letter or digit before
it too or into the first token. -/
theorem Scans.hasTokens {text : List Char} {tokens : List Token} (h : Scans text tokens) :
    HasTokens text tokens := by
  induction h with
  | nil => exact ⟨[], [], .nil, rfl⟩
  | blank hc _ ih =>
      obtain ⟨first, parts, hspaced, rfl⟩ := ih
      exact ⟨_, parts, hspaced.blank_cons (blank_of_kind hc), rfl⟩
  | @sign c rest _ token hk _ ih =>
      obtain ⟨first, parts, hspaced, rfl⟩ := ih
      refine ⟨[], (token, first) :: parts, ?_, rfl⟩
      rcases symbol_of_kind hk with ⟨side, rfl, rfl⟩ | ⟨op, rfl, rfl⟩
      · have hcons := hspaced.token_append (.paren side) trivial fun _ _ h => h.elim
        rwa [toList_text_paren] at hcons
      · have hcons := hspaced.token_append (.operator op) trivial fun _ _ h => h.elim
        rwa [toList_text_operator] at hcons
  | @word c rest tokens hc hs ih =>
      obtain ⟨first, parts, hspaced, rfl⟩ := ih
      cases hrun : rest.head?.any (sameRun c) with
      | false =>
          rw [attach_apart hrun]
          exact ⟨[], _, hspaced.word_cons hc hrun, rfl⟩
      | true =>
          match rest, hs, hspaced, hrun with
          | d :: rest, hs, hspaced, hcd =>
              obtain ⟨w, tail, htokens⟩ := hs.head (isAlphanum_of_sameRun hcd)
              cases parts with
              | nil => exact nomatch htokens
              | cons part parts =>
                  obtain ⟨token, gap⟩ := part
                  obtain ⟨rfl, rfl⟩ := List.cons.inj htokens
                  refine ⟨[], _, hspaced.join hcd, ?_⟩
                  exact (if_pos hcd).symm

theorem scan_eq_ok_iff {source : String} {tokens : List Token} :
    scan source = .ok tokens ↔ HasTokens source.toList tokens := by
  refine scanFrom_eq_ok_iff.trans ⟨Scans.hasTokens, ?_⟩
  rintro ⟨first, parts, hspaced, rfl⟩
  exact hspaced.scans

/-! ## What is not scanned -/

theorem Scans.known {text : List Char} {tokens : List Token} (h : Scans text tokens) :
    ∀ c ∈ text, isKnown c = true := by
  induction h with
  | nil => exact fun _ h => absurd h List.not_mem_nil
  | word hc _ ih => exact List.forall_mem_cons.mpr ⟨by rw [isKnown, hc]; rfl, ih⟩
  | blank hc _ ih | sign hc _ ih =>
      refine List.forall_mem_cons.mpr ⟨kind_ne_foreign_iff.mp ?_, ih⟩
      rw [hc]
      exact CharKind.noConfusion

theorem exists_scan_iff {source : String} :
    (∃ tokens, scan source = .ok tokens) ↔ ∀ c ∈ source.toList, isKnown c = true := by
  constructor
  · rintro ⟨tokens, hscan⟩
    exact (scanFrom_eq_ok_iff.mp hscan).known
  · intro hknown
    obtain ⟨tokens, hscans⟩ := exists_scans fun c hc => kind_ne_foreign_iff.mpr (hknown c hc)
    exact ⟨tokens, scanFrom_eq_ok_iff.mpr hscans⟩

theorem scanFrom_of_unknown {before after : List Char} {c : Char} (column : Nat)
    (hbefore : ∀ d ∈ before, isKnown d = true) (hc : isKnown c = false) :
    scanFrom column (before ++ c :: after) =
      .error (.invalidExpression (column + before.length) (.unrecognized c)) := by
  have hforeign : kind c = .foreign := by
    by_contra h
    exact absurd (kind_ne_foreign_iff.mp h) (by rw [hc]; exact Bool.false_ne_true)
  have halphanum : c.isAlphanum = false := by
    rw [isKnown, Bool.or_eq_false_iff, Bool.or_eq_false_iff] at hc
    exact hc.1.1
  obtain ⟨tokens, hscans⟩ := exists_scans fun d hd => kind_ne_foreign_iff.mpr (hbefore d hd)
  rw [scanFrom_append before column (apart_cons halphanum), scanFrom_eq_ok_iff.mpr hscans,
    scanFrom_foreign _ _ hforeign]
  rfl

theorem scan_eq_error_iff {source : String} {e : CompileError} : scan source = .error e ↔
    ∃ before c after, source.toList = before ++ c :: after ∧
      (∀ d ∈ before, isKnown d = true) ∧ isKnown c = false ∧
        e = .invalidExpression (before.length + 1) (.unrecognized c) := by
  constructor
  · intro h
    cases hfind : source.toList.find? fun c => !isKnown c with
    | none =>
        have hknown : ∀ c ∈ source.toList, isKnown c = true := by
          simpa using List.find?_eq_none.mp hfind
        obtain ⟨tokens, hscan⟩ := exists_scan_iff.mpr hknown
        exact nomatch hscan.symm.trans h
    | some c =>
        obtain ⟨hc, before, after, hsource, hbefore⟩ := List.find?_eq_some_iff_append.mp hfind
        have hc : isKnown c = false := by simpa using hc
        have hbefore : ∀ d ∈ before, isKnown d = true := by simpa using hbefore
        refine ⟨before, c, after, hsource, hbefore, hc, ?_⟩
        rw [scan, hsource, scanFrom_of_unknown 1 hbefore hc] at h
        rw [← Except.error.inj h, Nat.add_comm]
  · rintro ⟨before, c, after, hsource, hbefore, hc, rfl⟩
    rw [scan, hsource, scanFrom_of_unknown 1 hbefore hc, Nat.add_comm]

/-- The reason quotes the character, and no other character has that reason. -/
theorem quotes_unrecognized (c : Char) :
    (∃ shown : String, (Violation.unrecognized c).reason =
      "unrecognized input \"" ++ shown ++ "\"" ∧ Text.StandsFor '"' shown.toList c) ∧
    ∀ d, (Violation.unrecognized d).reason = (Violation.unrecognized c).reason → d = c := by
  constructor
  · obtain ⟨shown, hstands, hquoted⟩ := Text.quoted_eq '"' c
    refine ⟨shown, ?_, hstands⟩
    calc (Violation.unrecognized c).reason
        = "unrecognized input " ++ Text.quoted '"' c := rfl
      _ = "unrecognized input " ++ String.singleton '"' ++ shown ++ String.singleton '"' := by
          simp only [hquoted, String.append_assoc]
      _ = "unrecognized input \"" ++ shown ++ "\"" := rfl
  · intro d h
    exact Text.quoted_injective (by decide) ((String.append_right_inj _).mp h)

/-- A text is scanned exactly if it has known characters only.  Its tokens are those
that it can be taken apart into, with blanks between them and no run cut, and
there is one way to do that.  Otherwise the first unknown character is reported,
with the column at which it stands, and quoted so that it is told from all others. -/
theorem scan_by_spacing (source : String) :
    ((∃ tokens, scan source = .ok tokens) ↔ ∀ c ∈ source.toList, isKnown c = true) ∧
    (∀ tokens, scan source = .ok tokens ↔ HasTokens source.toList tokens) ∧
    (∀ tokens others, HasTokens source.toList tokens → HasTokens source.toList others →
      others = tokens) ∧
    ∀ e, scan source = .error e ↔ ∃ before c after, source.toList = before ++ c :: after ∧
      (∀ d ∈ before, isKnown d = true) ∧ isKnown c = false ∧
        e = .invalidExpression (before.length + 1) (.unrecognized c) ∧
        (∃ shown : String, (Violation.unrecognized c).reason =
          "unrecognized input \"" ++ shown ++ "\"" ∧ Text.StandsFor '"' shown.toList c) ∧
        ∀ d, (Violation.unrecognized d).reason = (Violation.unrecognized c).reason → d = c := by
  refine ⟨exists_scan_iff, fun _ => scan_eq_ok_iff, ?_, ?_⟩
  · intro tokens others htokens hothers
    have hscan := scan_eq_ok_iff.mpr htokens
    exact Except.ok.inj ((scan_eq_ok_iff.mpr hothers).symm.trans hscan)
  · intro e
    refine scan_eq_error_iff.trans ⟨?_, ?_⟩
    · rintro ⟨before, c, after, hsource, hbefore, hc, he⟩
      exact ⟨before, c, after, hsource, hbefore, hc, he, quotes_unrecognized c⟩
    · rintro ⟨before, c, after, hsource, hbefore, hc, he, _⟩
      exact ⟨before, c, after, hsource, hbefore, hc, he⟩

/-- Between a variable and a number no blank is needed. -/
example : scan "(ab12\tx" =
    .ok [.paren .opening, .operand "ab", .operand "12", .operand "x"] :=
  rfl

end ArithTree.Token
