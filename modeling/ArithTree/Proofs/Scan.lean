/-
# What the scanner does to a text

The scanner reads characters, so its laws are about lists of characters.  The
first section says what one character does (`scanFrom_word` and its companions;
`kind_cases` leaves no character out), with `attach_cases` for the only choice
there is: a letter or digit begins an operand or joins the next one.

From there: a text cut in two is scanned like its halves unless the cut runs
through an operand (`scanFrom_append`), a run of one kind is one operand
(`scanFrom_plain`), no other operand is ever read (`Scans.plain`), and the
parentheses of the text are those of the tokens (`Scans.parens`).

A scanner that takes the longest token off the front of the text, and then the
next one, comes to the same tokens and the same faults (`scanFrom_eq_scanRuns`).
-/
import ArithTree.Proofs.Parentheses
import ArithTree.Token.Scan
import Mathlib.Data.List.TakeWhile

namespace ArithTree

def Paren.ofSymbol? (c : Char) : Option Paren :=
  if c = '(' then some .opening else if c = ')' then some .closing else none

theorem Paren.ofSymbol?_symbol (side : Paren) : Paren.ofSymbol? side.symbol = some side := by
  cases side with
  | opening => rfl
  | closing => rfl

theorem Paren.ofSymbol?_eq_none {c : Char} (ho : c ≠ '(') (hc : c ≠ ')') :
    Paren.ofSymbol? c = none := by
  rw [Paren.ofSymbol?, if_neg ho, if_neg hc]

namespace Token

/-! ## One character -/

theorem le_toNat_of_isAlpha {c : Char} (h : c.isAlpha = true) : 65 ≤ c.toNat := by
  rcases Bool.or_eq_true_iff.mp h with h | h
  · have hc : 'A'.val ≤ c.val := (of_decide_eq_true h).1
    exact UInt32.le_iff_toNat_le.mp hc
  · have hc : 'a'.val ≤ c.val := of_decide_eq_true (Bool.and_eq_true_iff.mp h).1
    exact Nat.le_trans (by decide) (UInt32.le_iff_toNat_le.mp hc)

theorem isAlpha_eq_false_of_isDigit {c : Char} (h : c.isDigit = true) : c.isAlpha = false := by
  have hle : c.toNat ≤ 57 := (Char.isDigit_iff_toNat.mp h).2
  cases ha : c.isAlpha with
  | false => rfl
  | true => exact absurd (Nat.le_trans (le_toNat_of_isAlpha ha) hle) (by decide)

theorem not_isDigit_of_isAlpha {c : Char} (h : c.isAlpha = true) : ¬ c.isDigit = true := by
  intro hd
  rw [isAlpha_eq_false_of_isDigit hd] at h
  exact Bool.false_ne_true h

theorem kind_of_isAlpha {c : Char} (h : c.isAlpha = true) : kind c = .letter := by
  simp only [kind, h, if_true]

theorem kind_of_isDigit {c : Char} (h : c.isDigit = true) : kind c = .digit := by
  have ha := isAlpha_eq_false_of_isDigit h
  simp only [kind, h, ha, if_true, Bool.false_eq_true, if_false]

theorem kind_of_isAlphanum {c : Char} (h : c.isAlphanum = true) :
    kind c = .letter ∨ kind c = .digit := by
  rcases Bool.or_eq_true_iff.mp h with h | h
  · exact Or.inl (kind_of_isAlpha h)
  · exact Or.inr (kind_of_isDigit h)

theorem kind_cases (c : Char) : c.isAlphanum = true ∨ c.isAlphanum = false ∧
    (kind c = .blank ∨ (∃ token, kind c = .sign token) ∨ kind c = .foreign) := by
  cases h : c.isAlphanum with
  | true => exact Or.inl rfl
  | false =>
      refine Or.inr ⟨rfl, ?_⟩
      obtain ⟨ha, hd⟩ := Bool.or_eq_false_iff.mp h
      simp only [kind, ha, hd, Bool.false_eq_true, if_false]
      split
      · exact Or.inl rfl
      · refine Or.inr ?_
        split
        · exact Or.inl ⟨_, rfl⟩
        · split
          · exact Or.inl ⟨_, rfl⟩
          · split
            · exact Or.inl ⟨_, rfl⟩
            · exact Or.inr rfl

theorem isAlphanum_of_kind {c : Char} (h : kind c = .letter ∨ kind c = .digit) :
    c.isAlphanum = true := by
  rcases kind_cases c with hc | ⟨_, hc | ⟨token, hc⟩ | hc⟩
  · exact hc
  all_goals
    rw [hc] at h
    rcases h with h | h
    · cases h
    · cases h

theorem symbol_of_ofSymbol? {c : Char} {op : Operator} (h : Operator.ofSymbol? c = some op) :
    c = op.symbol := by
  unfold Operator.ofSymbol? at h
  split at h
  · cases h; rfl
  · cases h; rfl
  · cases h; rfl
  · cases h; rfl
  · exact nomatch h

theorem symbol_of_kind {c : Char} {token : Token} (h : kind c = .sign token) :
    (∃ side, c = Paren.symbol side ∧ token = .paren side) ∨
      ∃ op, c = Operator.symbol op ∧ token = .operator op := by
  unfold kind at h
  repeat' split at h
  case isFalse.isFalse.isFalse.isTrue hc => cases h; exact Or.inl ⟨_, hc, rfl⟩
  case isFalse.isFalse.isFalse.isFalse.isTrue hc => cases h; exact Or.inl ⟨_, hc, rfl⟩
  case h_1 op hop => cases h; exact Or.inr ⟨op, symbol_of_ofSymbol? hop, rfl⟩
  all_goals cases h

theorem kind_symbol (op : Operator) : kind op.symbol = .sign (.operator op) := by
  cases op <;> rfl

theorem blank_of_kind {c : Char} (h : kind c = .blank) :
    c ∈ [' ', '\t', '\r', '\n', '\x0c'] := by
  unfold kind at h
  repeat' split at h
  case isFalse.isFalse.isTrue hc => exact hc
  all_goals cases h

theorem isAlphanum_of_sameRun {c d : Char} (h : sameRun c d = true) : d.isAlphanum = true := by
  simp only [sameRun, Bool.or_eq_true, Bool.and_eq_true] at h
  rcases h with ⟨_, h⟩ | ⟨_, h⟩
  · exact Bool.or_eq_true_iff.mpr (Or.inl h)
  · exact Bool.or_eq_true_iff.mpr (Or.inr h)

section Cons
variable {c : Char} (column : Nat) (rest : List Char)

theorem scanFrom_word (h : c.isAlphanum = true) :
    scanFrom column (c :: rest) = (scanFrom (column + 1) rest).map (attach c rest) := by
  rcases kind_of_isAlphanum h with h | h
  · simp only [scanFrom, h]
  · simp only [scanFrom, h]

theorem scanFrom_blank (h : kind c = .blank) :
    scanFrom column (c :: rest) = scanFrom (column + 1) rest := by
  simp only [scanFrom, h]

theorem scanFrom_sign {token : Token} (h : kind c = .sign token) :
    scanFrom column (c :: rest) = (scanFrom (column + 1) rest).map (token :: ·) := by
  simp only [scanFrom, h]

theorem scanFrom_foreign (h : kind c = .foreign) :
    scanFrom column (c :: rest) = .error (.invalidExpression column (.unrecognized c)) := by
  simp only [scanFrom, h]

end Cons

theorem attach_cases (c : Char) (rest : List Char) (tokens : List Token) :
    (∃ text tail, tokens = .operand text :: tail ∧ rest.head?.any (sameRun c) = true ∧
      attach c rest tokens = .operand (String.singleton c ++ text) :: tail) ∨
    attach c rest tokens = .operand (String.singleton c) :: tokens := by
  match tokens with
  | .operand text :: tail =>
      cases h : rest.head?.any (sameRun c) with
      | true => exact Or.inl ⟨text, tail, rfl, rfl, by simp only [attach, h, if_true]⟩
      | false => exact Or.inr (by simp only [attach, h, Bool.false_eq_true, if_false])
  | [] | .operator _ :: _ | .paren _ :: _ => exact Or.inr rfl

theorem attach_apart {c : Char} {rest : List Char} (h : rest.head?.any (sameRun c) = false)
    (tokens : List Token) : attach c rest tokens = .operand (String.singleton c) :: tokens := by
  rcases attach_cases c rest tokens with ⟨_, _, _, h', _⟩ | h'
  · exact absurd (h.symm.trans h') Bool.false_ne_true
  · exact h'

theorem attach_ne_nil (c : Char) (rest : List Char) (tokens : List Token) :
    attach c rest tokens ≠ [] := by
  rcases attach_cases c rest tokens with ⟨_, _, _, _, h⟩ | h
  · rw [h]; exact List.cons_ne_nil _ _
  · rw [h]; exact List.cons_ne_nil _ _

/-- `Scans s ts`: the text has the tokens, wherever it begins. -/
inductive Scans : List Char → List Token → Prop
  | nil : Scans [] []
  | word {c : Char} {rest : List Char} {ts : List Token} :
      c.isAlphanum = true → Scans rest ts → Scans (c :: rest) (attach c rest ts)
  | blank {c : Char} {rest : List Char} {ts : List Token} :
      kind c = .blank → Scans rest ts → Scans (c :: rest) ts
  | sign {c : Char} {rest : List Char} {ts : List Token} {token : Token} :
      kind c = .sign token → Scans rest ts → Scans (c :: rest) (token :: ts)

theorem scanFrom_eq_ok_iff : ∀ {s : List Char} {column : Nat} {ts : List Token},
    scanFrom column s = .ok ts ↔ Scans s ts := by
  intro s column ts
  constructor
  · intro h
    induction s generalizing column ts with
    | nil => cases h; exact .nil
    | cons c rest ih =>
        rcases kind_cases c with hc | ⟨_, hc | ⟨token, hc⟩ | hc⟩
        · rw [scanFrom_word _ _ hc] at h
          cases hr : scanFrom (column + 1) rest with
          | error e => rw [hr] at h; exact nomatch h
          | ok us => rw [hr] at h; cases h; exact .word hc (ih hr)
        · rw [scanFrom_blank _ _ hc] at h
          exact .blank hc (ih h)
        · rw [scanFrom_sign _ _ hc] at h
          cases hr : scanFrom (column + 1) rest with
          | error e => rw [hr] at h; exact nomatch h
          | ok us => rw [hr] at h; cases h; exact .sign hc (ih hr)
        · rw [scanFrom_foreign _ _ hc] at h
          exact nomatch h
  · intro h
    induction h generalizing column with
    | nil => rfl
    | word hc _ ih => rw [scanFrom_word _ _ hc, ih]; rfl
    | blank hc _ ih => rw [scanFrom_blank _ _ hc, ih]
    | sign hc _ ih => rw [scanFrom_sign _ _ hc, ih]; rfl

/-! ## A text in two parts -/

/-- The cut between the two parts runs through no operand. -/
def Apart (s t : List Char) : Prop :=
  ∀ c ∈ s.getLast?, ∀ d ∈ t.head?, sameRun c d = false

theorem Apart.tail {c : Char} {s t : List Char} (h : Apart (c :: s) t) : Apart s t := by
  intro d hd e he
  refine h d ?_ e he
  rw [Option.mem_def] at hd ⊢
  rw [List.getLast?_cons, hd]
  rfl

theorem Scans.head_of_nil {s : List Char} (h : Scans s []) (c : Char) :
    s.head?.any (sameRun c) = false := by
  generalize hts : ([] : List Token) = ts at h
  cases h with
  | nil => rfl
  | @blank d rest _ hd _ =>
      cases hcd : sameRun c d with
      | false => exact hcd
      | true =>
          rcases kind_of_isAlphanum (isAlphanum_of_sameRun hcd) with h | h
          · exact nomatch h.symm.trans hd
          · exact nomatch h.symm.trans hd
  | word _ _ => exact absurd hts.symm (attach_ne_nil _ _ _)
  | sign _ _ => exact nomatch hts

theorem attach_append {c : Char} {s t : List Char} {ts : List Token} (hs : Scans s ts)
    (h : Apart (c :: s) t) (us : List Token) :
    attach c (s ++ t) (ts ++ us) = attach c s ts ++ us := by
  match s, ts, hs with
  | [], _, .nil =>
      refine attach_apart ?_ us
      cases t with
      | nil => rfl
      | cons d t => exact h c rfl d rfl
  | d :: s, [], hs =>
      have hd := hs.head_of_nil c
      rw [attach_apart hd]
      exact attach_apart hd us
  | d :: s, .operand text :: ts, _ =>
      by_cases hd : sameRun c d = true
      · simp only [List.cons_append, attach, List.head?_cons, Option.any_some, hd, if_true]
      · simp only [List.cons_append, attach, List.head?_cons, Option.any_some, hd,
          Bool.false_eq_true, if_false]
  | d :: s, .operator _ :: ts, _ | d :: s, .paren _ :: ts, _ => rfl

theorem scanFrom_append {t : List Char} : ∀ (s : List Char) (column : Nat), Apart s t →
    scanFrom column (s ++ t) = (scanFrom column s).bind fun ts =>
      (scanFrom (column + s.length) t).map (ts ++ ·)
  | [], column, _ => by
      show scanFrom column t = (scanFrom column t).map ([] ++ ·)
      cases scanFrom column t with
      | error e => rfl
      | ok us => rfl
  | c :: s, column, h => by
      have ih := scanFrom_append s (column + 1) h.tail
      rw [Nat.add_assoc, Nat.add_comm 1, ← List.length_cons (a := c)] at ih
      rw [List.cons_append]
      rcases kind_cases c with hc | ⟨_, hc | ⟨token, hc⟩ | hc⟩
      -- only a letter or digit looks behind itself, and there `Apart` is needed
      · rw [scanFrom_word _ _ hc, scanFrom_word _ _ hc, ih]
        cases hs : scanFrom (column + 1) s with
        | error e => rfl
        | ok ts =>
            show Except.map _ (Except.map _ _) = Except.map _ _
            cases scanFrom (column + (c :: s).length) t with
            | error e => rfl
            | ok us => exact congrArg Except.ok (attach_append (scanFrom_eq_ok_iff.mp hs) h us)
      · rw [scanFrom_blank _ _ hc, scanFrom_blank _ _ hc, ih]
      · rw [scanFrom_sign _ _ hc, scanFrom_sign _ _ hc, ih]
        cases scanFrom (column + 1) s with
        | error e => rfl
        | ok ts =>
            show Except.map _ (Except.map _ _) = Except.map _ _
            cases scanFrom (column + (c :: s).length) t with
            | error e => rfl
            | ok us => rfl
      · rw [scanFrom_foreign _ _ hc, scanFrom_foreign _ _ hc]
        rfl

theorem Scans.append {s t : List Char} {ts us : List Token} (hs : Scans s ts) (ht : Scans t us)
    (h : Apart s t) : Scans (s ++ t) (ts ++ us) := by
  rw [← @scanFrom_eq_ok_iff _ 1, scanFrom_append s 1 h, scanFrom_eq_ok_iff.mpr hs]
  show Except.map _ _ = _
  rw [scanFrom_eq_ok_iff.mpr ht]
  rfl

theorem apart_cons {s t : List Char} {d : Char} (h : d.isAlphanum = false) : Apart s (d :: t) := by
  intro c _ e he
  cases he
  cases hcd : sameRun c d with
  | false => rfl
  | true => exact absurd (isAlphanum_of_sameRun hcd) (by rw [h]; exact Bool.false_ne_true)

/-! ## Operands -/

/-- A variable or a number: letters only or digits only, and at least one. -/
def Plain (text : String) : Prop :=
  text ≠ "" ∧ ((∀ c ∈ text.toList, c.isAlpha = true) ∨ ∀ c ∈ text.toList, c.isDigit = true)

instance (text : String) : Decidable (Plain text) :=
  decidable_of_iff (text ≠ "" ∧
      (text.toList.all Char.isAlpha = true ∨ text.toList.all Char.isDigit = true))
    (by simp only [Plain, List.all_eq_true])

theorem sameRun_of_isAlpha {c d : Char} (hc : c.isAlpha = true) (hd : d.isAlpha = true) :
    sameRun c d = true := by
  simp only [sameRun, hc, hd, Bool.and_self, Bool.true_or]

theorem sameRun_of_isDigit {c d : Char} (hc : c.isDigit = true) (hd : d.isDigit = true) :
    sameRun c d = true := by
  simp only [sameRun, hc, hd, Bool.and_self, Bool.or_true]

theorem scanFrom_run : ∀ {w : List Char} (column : Nat), w ≠ [] →
    (∀ c ∈ w, c.isAlphanum = true) → (∀ c ∈ w, ∀ d ∈ w, sameRun c d = true) →
      scanFrom column w = .ok [.operand (String.ofList w)]
  | [], _, h, _, _ => absurd rfl h
  | [c], column, _, hw, _ => by
      rw [scanFrom_word _ _ (hw c List.mem_cons_self), ← String.singleton_eq_ofList]
      rfl
  | c :: d :: w, column, _, hw, hr => by
      have ih := scanFrom_run (w := d :: w) (column + 1) (List.cons_ne_nil d w)
        (fun e he => hw e (List.mem_cons_of_mem _ he))
        (fun e he f hf => hr e (List.mem_cons_of_mem _ he) f (List.mem_cons_of_mem _ hf))
      have hcd := hr c List.mem_cons_self d (List.mem_cons_of_mem _ List.mem_cons_self)
      rw [scanFrom_word _ _ (hw c List.mem_cons_self), ih, String.ofList_cons (c := c)]
      show Except.ok (attach c (d :: w) _) = _
      simp only [attach, List.head?_cons, Option.any_some, hcd, if_true]

theorem scanFrom_plain {text : String} (h : Plain text) (column : Nat) :
    scanFrom column text.toList = .ok [.operand text] := by
  obtain ⟨hne, hall⟩ := h
  have hne : text.toList ≠ [] := fun h => hne (String.toList_eq_nil_iff.mp h)
  rcases hall with hall | hall
  · have := scanFrom_run column hne
      (fun c hc => Bool.or_eq_true_iff.mpr (Or.inl (hall c hc)))
      (fun c hc d hd => sameRun_of_isAlpha (hall c hc) (hall d hd))
    rwa [String.ofList_toList] at this
  · have := scanFrom_run column hne
      (fun c hc => Bool.or_eq_true_iff.mpr (Or.inr (hall c hc)))
      (fun c hc d hd => sameRun_of_isDigit (hall c hc) (hall d hd))
    rwa [String.ofList_toList] at this

theorem Scans.head {c : Char} {rest : List Char} {ts : List Token} (h : Scans (c :: rest) ts)
    (hc : c.isAlphanum = true) : ∃ w tail, ts = .operand (String.ofList (c :: w)) :: tail := by
  cases h with
  | @word _ _ us _ _ =>
      rcases attach_cases c rest us with ⟨text, tail, _, _, h⟩ | h
      · refine ⟨text.toList, tail, ?_⟩
        rw [h, String.ofList_cons, String.ofList_toList]
      · refine ⟨[], us, ?_⟩
        rw [h, String.singleton_eq_ofList]
  | blank hk _ | sign hk _ =>
      rcases kind_of_isAlphanum hc with h | h
      · exact nomatch h.symm.trans hk
      · exact nomatch h.symm.trans hk

theorem plain_singleton {c : Char} (h : c.isAlphanum = true) : Plain (String.singleton c) := by
  refine ⟨String.singleton_ne_empty, ?_⟩
  rw [String.toList_singleton]
  rcases Bool.or_eq_true_iff.mp h with h | h
  · exact Or.inl fun d hd => List.mem_singleton.mp hd ▸ h
  · exact Or.inr fun d hd => List.mem_singleton.mp hd ▸ h

theorem Plain.cons {c d : Char} {w : List Char} (h : Plain (String.ofList (d :: w)))
    (hcd : sameRun c d = true) : Plain (String.singleton c ++ String.ofList (d :: w)) := by
  obtain ⟨_, h⟩ := h
  rw [← String.ofList_cons]
  refine ⟨fun h => ?_, ?_⟩
  · rw [← String.toList_eq_nil_iff, String.toList_ofList] at h
    exact List.cons_ne_nil _ _ h
  rw [String.toList_ofList] at h ⊢
  simp only [sameRun, Bool.or_eq_true, Bool.and_eq_true] at hcd
  rcases h with h | h
  · refine Or.inl ?_
    have hd := h d List.mem_cons_self
    rcases hcd with ⟨hc, _⟩ | ⟨_, hd'⟩
    · exact List.forall_mem_cons.mpr ⟨hc, h⟩
    · exact absurd hd' (not_isDigit_of_isAlpha hd)
  · refine Or.inr ?_
    have hd := h d List.mem_cons_self
    rcases hcd with ⟨_, hd'⟩ | ⟨hc, _⟩
    · exact absurd hd (not_isDigit_of_isAlpha hd')
    · exact List.forall_mem_cons.mpr ⟨hc, h⟩

theorem Scans.plain {s : List Char} {ts : List Token} (h : Scans s ts) :
    ∀ text, .operand text ∈ ts → Plain text := by
  induction h with
  | nil => intro text h; exact absurd h List.not_mem_nil
  | blank _ _ ih => exact ih
  | sign hk _ ih =>
      intro text h
      rcases List.mem_cons.mp h with h | h
      · cases h
        rcases symbol_of_kind hk with ⟨_, _, h⟩ | ⟨_, _, h⟩
        · exact nomatch h
        · exact nomatch h
      · exact ih text h
  | @word c rest ts hc hs ih =>
      intro text h
      rcases attach_cases c rest ts with ⟨head, tail, rfl, hrun, heq⟩ | heq
      · rw [heq] at h
        rcases List.mem_cons.mp h with h | h
        · cases h
          -- the operand that is joined begins with the neighbour, so all of it is of one run
          match rest, hs, hrun with
          | d :: rest, hs, hrun =>
              obtain ⟨w, _, hw⟩ := hs.head (isAlphanum_of_sameRun hrun)
              cases hw
              exact (ih _ List.mem_cons_self).cons hrun
        · exact ih text (List.mem_cons_of_mem _ h)
      · rw [heq] at h
        rcases List.mem_cons.mp h with h | h
        · cases h
          exact plain_singleton hc
        · exact ih text h

/-! ## From the front -/

/-- The tokens of a text, taken off its front one after the other, each operand as
long as it can be. -/
def scanRuns (column : Nat) : List Char → Except CompileError (List Token)
  | [] => .ok []
  | c :: rest =>
    match kind c with
    | .foreign => .error (.invalidExpression column (.unrecognized c))
    | .blank => scanRuns (column + 1) rest
    | .sign token => (scanRuns (column + 1) rest).map (token :: ·)
    | .letter | .digit =>
      let run := c :: rest.takeWhile (sameRun c)
      (scanRuns (column + run.length) (rest.dropWhile (sameRun c))).map
        (.operand (String.ofList run) :: ·)
termination_by text => text.length
decreasing_by
  · simp
  · simp
  · exact Nat.lt_succ_of_le (List.dropWhile_sublist _).length_le

theorem sameRun_comm (c d : Char) : sameRun c d = sameRun d c := by
  rw [sameRun, sameRun, Bool.and_comm, Bool.and_comm d.isDigit]

theorem sameRun_trans {c d e : Char} (hcd : sameRun c d = true) (hde : sameRun d e = true) :
    sameRun c e = true := by
  simp only [sameRun, Bool.or_eq_true, Bool.and_eq_true] at hcd hde
  rcases hcd with ⟨hc, hd⟩ | ⟨hc, hd⟩
  · rcases hde with ⟨_, he⟩ | ⟨hd', _⟩
    · exact sameRun_of_isAlpha hc he
    · exact absurd hd' (not_isDigit_of_isAlpha hd)
  · rcases hde with ⟨hd', _⟩ | ⟨_, he⟩
    · exact absurd hd (not_isDigit_of_isAlpha hd')
    · exact sameRun_of_isDigit hc he

theorem sameRun_self {c : Char} (h : c.isAlphanum = true) : sameRun c c = true := by
  rcases Bool.or_eq_true_iff.mp h with h | h
  · exact sameRun_of_isAlpha h h
  · exact sameRun_of_isDigit h h

/-- The run at the front of a text is one operand, and the rest is scanned by itself. -/
theorem scanFrom_cons_run {c : Char} (hc : c.isAlphanum = true) (column : Nat) (rest : List Char) :
    let run := c :: rest.takeWhile (sameRun c)
    scanFrom column (c :: rest) = (scanFrom (column + run.length)
      (rest.dropWhile (sameRun c))).map (.operand (String.ofList run) :: ·) := by
  intro run
  have hself : sameRun c c = true := sameRun_self hc
  have hrun : ∀ d ∈ run, sameRun c d = true :=
    List.forall_mem_cons.mpr ⟨hself, fun d => List.mem_takeWhile_imp⟩
  have hpairs : ∀ d ∈ run, ∀ e ∈ run, sameRun d e = true := by
    intro d hd e he
    exact sameRun_trans (sameRun_comm c d ▸ hrun d hd) (hrun e he)
  have hapart : Apart run (rest.dropWhile (sameRun c)) := by
    intro d hd e he
    have hstop := List.head?_dropWhile_not (sameRun c) rest
    rw [he] at hstop
    cases hde : sameRun d e with
    | false => rfl
    | true =>
        have hce := sameRun_trans (hrun d (List.mem_of_mem_getLast? hd)) hde
        simp [hce] at hstop
  have htext : c :: rest = run ++ rest.dropWhile (sameRun c) :=
    congrArg (c :: ·) List.takeWhile_append_dropWhile.symm
  rw [htext, scanFrom_append run column hapart, scanFrom_run column (List.cons_ne_nil _ _)
    (fun d hd => isAlphanum_of_sameRun (hrun d hd)) hpairs]
  rfl

/-- Reading a text by its characters and taking the tokens off its front come to
the same tokens, or to the same fault. -/
theorem scanFrom_eq_scanRuns (column : Nat) (text : List Char) :
    scanFrom column text = scanRuns column text := by
  induction column, text using scanRuns.induct with
  | case1 column => rw [scanRuns]; rfl
  | case2 column c rest h => rw [scanFrom_foreign _ _ h, scanRuns, h]
  | case3 column c rest h ih => rw [scanFrom_blank _ _ h, scanRuns, h, ih]
  | case4 column c rest token h ih => rw [scanFrom_sign _ _ h, scanRuns, h, ih]
  | case5 column c rest h run ih =>
      rw [scanFrom_cons_run (isAlphanum_of_kind (Or.inl h)), scanRuns, h]
      exact congrArg _ ih
  | case6 column c rest h run ih =>
      rw [scanFrom_cons_run (isAlphanum_of_kind (Or.inr h)), scanRuns, h]
      exact congrArg _ ih

/-! ## Parentheses and blanks -/

theorem parens_attach (c : Char) (rest : List Char) (ts : List Token) :
    parens (attach c rest ts) = parens ts := by
  rcases attach_cases c rest ts with ⟨_, _, rfl, _, h⟩ | h
  · rw [h]; rfl
  · rw [h]; rfl

theorem Scans.parens {s : List Char} {ts : List Token} (h : Scans s ts) :
    parens ts = s.filterMap Paren.ofSymbol? := by
  induction h with
  | nil => rfl
  | @word c rest ts hc _ ih =>
      rw [parens_attach, ih]
      refine (List.filterMap_cons_none (Paren.ofSymbol?_eq_none ?_ ?_)).symm
      · rintro rfl; exact absurd hc (by decide)
      · rintro rfl; exact absurd hc (by decide)
  | @blank c rest ts hc _ ih =>
      rw [ih]
      refine (List.filterMap_cons_none (Paren.ofSymbol?_eq_none ?_ ?_)).symm
      · rintro rfl; exact absurd (blank_of_kind hc) (by decide)
      · rintro rfl; exact absurd (blank_of_kind hc) (by decide)
  | @sign c rest ts token hk _ ih =>
      rcases symbol_of_kind hk with ⟨side, rfl, rfl⟩ | ⟨op, rfl, rfl⟩
      · rw [List.filterMap_cons_some (Paren.ofSymbol?_symbol side), ← ih]
        rfl
      · rw [List.filterMap_cons_none (by cases op <;> rfl), ← ih]
        rfl

theorem exists_scans {s : List Char} (h : ∀ c ∈ s, kind c ≠ .foreign) : ∃ ts, Scans s ts := by
  induction s with
  | nil => exact ⟨[], .nil⟩
  | cons c rest ih =>
      obtain ⟨ts, hts⟩ := ih fun d hd => h d (List.mem_cons_of_mem _ hd)
      rcases kind_cases c with hc | ⟨_, hc | ⟨token, hc⟩ | hc⟩
      · exact ⟨_, .word hc hts⟩
      · exact ⟨_, .blank hc hts⟩
      · exact ⟨_, .sign hc hts⟩
      · exact absurd hc (h c List.mem_cons_self)

theorem Scans.eq_nil_iff {s : List Char} {ts : List Token} (h : Scans s ts) :
    ts = [] ↔ ∀ c ∈ s, kind c = .blank := by
  induction h with
  | nil => exact ⟨fun _ c hc => absurd hc List.not_mem_nil, fun _ => rfl⟩
  | @word c rest ts hc _ _ =>
      constructor
      · intro h; exact absurd h (attach_ne_nil _ _ _)
      · intro h
        have hk := h c List.mem_cons_self
        rcases kind_of_isAlphanum hc with hc | hc
        · exact nomatch hc.symm.trans hk
        · exact nomatch hc.symm.trans hk
  | blank hc _ ih =>
      rw [ih, List.forall_mem_cons]
      exact ⟨fun h => ⟨hc, h⟩, fun h => h.2⟩
  | @sign c rest ts token hk _ _ =>
      constructor
      · intro h; exact nomatch h
      · intro h; exact nomatch hk.symm.trans (h c List.mem_cons_self)

end Token

end ArithTree
