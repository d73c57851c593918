/-
# A text in two parts

A text that is cut in two is scanned part by part: the tokens are those of the
first part and then those of the second, and a fault is that of the first part
or else that of the second, further on by the characters before it (`inTurn`).
Scanning and checking look across the cut in different ways.  The scanner must
not have an operand cut through, the check must not have a minus sign before the
cut and a digit behind it.  A space at the cut is enough for both.

So the words of a command line may be joined by spaces, and a space may be put
into an accepted text wherever it cuts through no operand (`scan_check_split`).
-/
import ArithTree.Cli.Display
import ArithTree.Proofs.Join

namespace ArithTree

/-- The error in a text that begins `offset` characters further on. -/
def CompileError.shift (offset : Nat) : CompileError → CompileError
  | .invalidExpression column v => .invalidExpression (column + offset) v
  | e => e

theorem CompileError.shift_shift (m n : Nat) (e : CompileError) :
    (e.shift n).shift m = e.shift (m + n) := by
  cases e with
  | invalidExpression column v =>
      show invalidExpression (column + n + m) v = invalidExpression (column + (m + n)) v
      rw [Nat.add_assoc, Nat.add_comm n]
  | emptyExpression | malformedPostfix _ | unbalancedParentheses _ _ => rfl

/-- What two parts of a text come to, the second of which begins `offset`
characters behind the first: the error of the first, or else that of the second,
or else both results together. -/
def inTurn {α β γ : Type} (offset : Nat) (both : α → β → γ) :
    Except CompileError α → Except CompileError β → Except CompileError γ
  | .error e, _ => .error e
  | .ok _, .error e => .error (e.shift offset)
  | .ok a, .ok b => .ok (both a b)

theorem inTurn_eq_ok_iff {α β γ : Type} {offset : Nat} {both : α → β → γ} {c : γ}
    {first : Except CompileError α} {second : Except CompileError β} :
    inTurn offset both first second = .ok c ↔
      ∃ a b, first = .ok a ∧ second = .ok b ∧ both a b = c := by
  cases first with
  | error e => simp [inTurn]
  | ok a =>
      cases second with
      | error e => simp [inTurn]
      | ok b => simp [inTurn]

theorem inTurn_mapError_shift {α β γ : Type} (m n : Nat) (both : α → β → γ)
    (first : Except CompileError α) (second : Except CompileError β) :
    inTurn m both first (second.mapError (·.shift n)) = inTurn (m + n) both first second := by
  cases first with
  | error e => rfl
  | ok a =>
      cases second with
      | error e => exact congrArg Except.error (e.shift_shift m n)
      | ok b => rfl

theorem toList_append_space (s t : String) :
    (s ++ " " ++ t).toList = s.toList ++ ' ' :: t.toList := by
  simp

/-! ## Scanning -/

namespace Token

theorem scanFrom_add (offset : Nat) : ∀ (text : List Char) (column : Nat),
    scanFrom (column + offset) text = (scanFrom column text).mapError (·.shift offset)
  | [], _ => rfl
  | c :: rest, column => by
      have ih := scanFrom_add offset rest (column + 1)
      rw [Nat.add_right_comm] at ih
      rcases kind_cases c with hc | ⟨_, hc | ⟨token, hc⟩ | hc⟩
      · rw [scanFrom_word _ _ hc, scanFrom_word _ _ hc, ih]
        cases scanFrom (column + 1) rest with
        | error e => rfl
        | ok tokens => rfl
      · rw [scanFrom_blank _ _ hc, scanFrom_blank _ _ hc, ih]
      · rw [scanFrom_sign _ _ hc, scanFrom_sign _ _ hc, ih]
        cases scanFrom (column + 1) rest with
        | error e => rfl
        | ok tokens => rfl
      · rw [scanFrom_foreign _ _ hc, scanFrom_foreign _ _ hc]
        rfl

theorem scanFrom_one_append {s t : List Char} (h : Apart s t) :
    scanFrom 1 (s ++ t) = inTurn s.length (· ++ ·) (scanFrom 1 s) (scanFrom 1 t) := by
  rw [scanFrom_append s 1 h, scanFrom_add]
  cases scanFrom 1 s with
  | error e => rfl
  | ok tokens =>
      cases scanFrom 1 t with
      | error e => rfl
      | ok more => rfl

theorem scan_append {s t : String} (h : Apart s.toList t.toList) :
    scan (s ++ t) = inTurn s.length (· ++ ·) (scan s) (scan t) := by
  rw [scan, String.toList_append, scanFrom_one_append h, String.length_toList]
  rfl

theorem scan_append_space (s t : String) :
    scan (s ++ " " ++ t) = inTurn (s.length + 1) (· ++ ·) (scan s) (scan t) := by
  have hspace : scanFrom 1 (' ' :: t.toList) = (scan t).mapError (·.shift 1) := by
    rw [scanFrom_blank 1 _ rfl]
    exact scanFrom_add 1 t.toList 1
  rw [scan, toList_append_space, scanFrom_one_append (apart_cons rfl), hspace,
    String.length_toList]
  exact inTurn_mapError_shift _ _ _ _ _

theorem scan_intercalate_eq_ok_iff : ∀ {words : List String} {tokens : List Token},
    scan (" ".intercalate words) = .ok tokens ↔
      ∃ parts, List.Forall₂ (fun word part => scan word = .ok part) words parts ∧
        parts.flatten = tokens
  | [], tokens => by
      constructor
      · intro h
        cases h
        exact ⟨[], .nil, rfl⟩
      · rintro ⟨_, hparts, rfl⟩
        cases hparts
        rfl
  | [word], tokens => by
      rw [String.intercalate_singleton]
      constructor
      · intro h
        exact ⟨[tokens], .cons h .nil, List.flatten_singleton⟩
      · rintro ⟨_, hparts, rfl⟩
        obtain ⟨part, _, hword, hnil, rfl⟩ := List.forall₂_cons_left_iff.mp hparts
        cases hnil
        rw [hword, List.flatten_singleton]
  | word :: next :: words, tokens => by
      rw [String.intercalate_cons_cons, scan_append_space, inTurn_eq_ok_iff]
      constructor
      · rintro ⟨part, more, hword, hmore, rfl⟩
        obtain ⟨parts, hparts, rfl⟩ := scan_intercalate_eq_ok_iff.mp hmore
        exact ⟨part :: parts, .cons hword hparts, List.flatten_cons⟩
      · rintro ⟨_, hparts, rfl⟩
        obtain ⟨part, parts, hword, hmore, rfl⟩ := List.forall₂_cons_left_iff.mp hparts
        have hmore : scan (" ".intercalate (next :: words)) = .ok parts.flatten :=
          scan_intercalate_eq_ok_iff.mpr ⟨parts, hmore, rfl⟩
        exact ⟨part, _, hword, hmore, List.flatten_cons.symm⟩

end Token

/-! ## Checking -/

namespace Source

theorem firstViolation?_add (offset : Nat) : ∀ (text : List Char) (start : Nat),
    firstViolation? (start + offset) text =
      (firstViolation? start text).map fun (column, v) => (column + offset, v)
  | [], _ => rfl
  | c :: rest, start => by
      have ih := firstViolation?_add offset rest (start + 1)
      rw [Nat.add_right_comm] at ih
      rw [firstViolation?, firstViolation?]
      cases violation? c rest with
      | none => exact ih
      | some v => rfl

theorem firstViolation?_cons (start : Nat) (c : Char) (rest : List Char) :
    firstViolation? start (c :: rest) =
      ((violation? c rest).map (start, ·)).or (firstViolation? (start + 1) rest) := by
  rw [firstViolation?]
  cases violation? c rest with
  | none => rfl
  | some v => rfl

theorem violation?_of_loose {c : Char} {rest : List Char} (h : ∀ d ∈ rest.head?, Loose c d) :
    violation? c rest = violation? c [] := by
  have hnil : ¬ (c = '-' ∧ ([] : List Char).head?.any Char.isDigit = true) :=
    fun h => nomatch h.2
  cases rest with
  | nil => rfl
  | cons d rest =>
      have hneg : ¬ (c = '-' ∧ (d :: rest).head?.any Char.isDigit = true) := h d rfl
      rw [violation?, violation?, if_neg hneg, if_neg hnil]

/-- The first violation of two parts, between which no minus sign stands right before a digit. -/
theorem firstViolation?_append {t : List Char} : ∀ (s : List Char) (start : Nat),
    (∀ c ∈ s.getLast?, ∀ d ∈ t.head?, Loose c d) →
      firstViolation? start (s ++ t) =
        (firstViolation? start s).or (firstViolation? (start + s.length) t)
  | [], _, _ => rfl
  | [c], start, h => by
      have hv : violation? c t = violation? c [] := violation?_of_loose (h c rfl)
      rw [List.singleton_append, firstViolation?_cons, hv, firstViolation?_cons]
      show _ = (Option.or _ none).or _
      rw [Option.or_none]
      rfl
  | c :: d :: s, start, h => by
      have ih := firstViolation?_append (d :: s) (start + 1) h
      have hv : violation? c (d :: s ++ t) = violation? c (d :: s) := rfl
      rw [List.cons_append, firstViolation?_cons, hv, ih, firstViolation?_cons start c,
        Option.or_assoc, List.length_cons (a := c), Nat.add_assoc, Nat.add_comm 1]

theorem firstViolation?_append_space (s t : List Char) :
    firstViolation? 1 (s ++ ' ' :: t) =
      (firstViolation? 1 s).or (firstViolation? (1 + (s.length + 1)) t) := by
  have hspace : violation? ' ' t = none :=
    violation?_eq_none_iff.mpr ⟨rfl, fun _ _ => loose_of_ne (by decide)⟩
  have hcut : ∀ c ∈ s.getLast?, ∀ d ∈ (' ' :: t).head?, Loose c d := by
    intro c _ d hd
    cases hd
    exact loose_of_not_digit rfl
  rw [firstViolation?_append s 1 hcut, firstViolation?_cons, hspace]
  rfl

theorem check_append_space (s t : String) :
    check (s ++ " " ++ t) = inTurn (s.length + 1) (fun _ _ => ()) (check s) (check t) := by
  unfold check
  rw [toList_append_space, firstViolation?_append_space, firstViolation?_add, String.length_toList]
  cases firstViolation? 1 s.toList with
  | some found => rfl
  | none =>
      cases firstViolation? 1 t.toList with
      | some found => rfl
      | none => rfl

theorem check_append_space_eq_ok_iff {s t : String} :
    check (s ++ " " ++ t) = .ok () ↔ check s = .ok () ∧ check t = .ok () := by
  rw [check_append_space, inTurn_eq_ok_iff]
  constructor
  · rintro ⟨_, _, hs, ht, _⟩
    exact ⟨hs, ht⟩
  · rintro ⟨hs, ht⟩
    exact ⟨(), (), hs, ht, rfl⟩

theorem check_of_append {s t : String} (h : check (s ++ t) = .ok ()) :
    check s = .ok () ∧ check t = .ok () := by
  obtain ⟨hall, hchain⟩ := check_eq_ok_iff.mp h
  rw [String.toList_append] at hall hchain
  obtain ⟨hs, ht⟩ := List.forall_mem_append.mp hall
  obtain ⟨hchains, hchaint, _⟩ := List.isChain_append.mp hchain
  exact ⟨check_eq_ok_iff.mpr ⟨hs, hchains⟩, check_eq_ok_iff.mpr ⟨ht, hchaint⟩⟩

theorem check_intercalate_eq_ok_iff : ∀ {words : List String},
    check (" ".intercalate words) = .ok () ↔ ∀ word ∈ words, check word = .ok ()
  | [] => ⟨fun _ _ h => absurd h List.not_mem_nil, fun _ => rfl⟩
  | [word] => by rw [String.intercalate_singleton, List.forall_mem_singleton]
  | word :: next :: words => by
      rw [String.intercalate_cons_cons, check_append_space_eq_ok_iff, check_intercalate_eq_ok_iff]
      exact (@List.forall_mem_cons _ (fun word => check word = .ok ()) _ _).symm

end Source

/-! ## Spaces in an accepted text -/

theorem lex_append_space {s t : String} {tokens : List Token}
    (hcut : Token.Apart s.toList t.toList) (h : lex (s ++ t) = .ok tokens) :
    lex (s ++ " " ++ t) = .ok tokens := by
  obtain ⟨hcheck, hscan, hne⟩ := lex_eq_ok_iff.mp h
  rw [Token.scan_append hcut] at hscan
  obtain ⟨_, _, hs, ht, rfl⟩ := inTurn_eq_ok_iff.mp hscan
  refine lex_eq_ok_iff.mpr ⟨?_, ?_, hne⟩
  · exact Source.check_append_space_eq_ok_iff.mpr (Source.check_of_append hcheck)
  · rw [Token.scan_append_space]
    exact inTurn_eq_ok_iff.mpr ⟨_, _, hs, ht, rfl⟩

theorem eq_of_expressionOf {words : List String} {line : String}
    (h : Cli.Display.expressionOf words = some line) : line = " ".intercalate words := by
  unfold Cli.Display.expressionOf at h
  split at h
  · exact nomatch h
  · exact (Option.some.inj h).symm

/-- A text that is cut in two without an operand being cut through is scanned as
its parts are, and with a space at the cut it is scanned and checked as they are.
So a space may be put into an accepted text wherever it cuts through no operand,
and the words of a command line have in one line the tokens that each has alone. -/
theorem scan_check_split (s t : String) :
    (Token.Apart s.toList t.toList →
      Token.scan (s ++ t) = inTurn s.length (· ++ ·) (Token.scan s) (Token.scan t)) ∧
    Token.scan (s ++ " " ++ t) = inTurn (s.length + 1) (· ++ ·) (Token.scan s) (Token.scan t) ∧
    (Source.check (s ++ " " ++ t) = .ok () ↔ Source.check s = .ok () ∧ Source.check t = .ok ()) ∧
    Source.check (s ++ " " ++ t) =
      inTurn (s.length + 1) (fun _ _ => ()) (Source.check s) (Source.check t) ∧
    (∀ tokens, Token.Apart s.toList t.toList → lex (s ++ t) = .ok tokens →
      lex (s ++ " " ++ t) = .ok tokens) ∧
    ∀ words line, Cli.Display.expressionOf words = some line →
      (Source.check line = .ok () ↔ ∀ word ∈ words, Source.check word = .ok ()) ∧
      ∀ tokens, Token.scan line = .ok tokens ↔
        ∃ parts, List.Forall₂ (fun word part => Token.scan word = .ok part) words parts ∧
          parts.flatten = tokens := by
  refine ⟨Token.scan_append, Token.scan_append_space s t, Source.check_append_space_eq_ok_iff,
    Source.check_append_space s t, fun _ => lex_append_space, ?_⟩
  intro words line h
  rw [eq_of_expressionOf h]
  exact ⟨Source.check_intercalate_eq_ok_iff, fun _ => Token.scan_intercalate_eq_ok_iff⟩

/-- `(a2` and `b-c)`: the cut is between two operands of different kinds, and the
text is accepted with a space there and without. -/
theorem split_between_operands :
    let first : List Token := [.paren .opening, .operand "a", .operand "2"]
    let second : List Token := [.operand "b", .operator .sub, .operand "c", .paren .closing]
    Token.Apart "(a2".toList "b-c)".toList ∧ lex ("(a2" ++ "b-c)") = .ok (first ++ second) ∧
      Cli.Display.expressionOf ["(a2", "b-c)"] = some "(a2 b-c)" ∧
      Token.scan ("(a2" ++ "b-c)") =
        inTurn 3 (· ++ ·) (Token.scan "(a2") (Token.scan "b-c)") ∧
      lex ("(a2" ++ " " ++ "b-c)") = .ok (first ++ second) ∧
      Token.scan "(a2 b-c)" = .ok (first ++ second) := by
  intro first second
  have hcut : Token.Apart "(a2".toList "b-c)".toList := by
    show Token.Apart ['(', 'a', '2'] ['b', '-', 'c', ')']
    intro c hc d hd
    cases hc
    cases hd
    rfl
  have hlex : lex ("(a2" ++ "b-c)") = .ok (first ++ second) := rfl
  have hline : Cli.Display.expressionOf ["(a2", "b-c)"] = some "(a2 b-c)" := rfl
  obtain ⟨hscan, _, _, _, hspace, hwords⟩ := scan_check_split "(a2" "b-c)"
  refine ⟨hcut, hlex, hline, hscan hcut, hspace _ hcut hlex, ?_⟩
  exact ((hwords _ _ hline).2 _).mpr ⟨[first, second], .cons rfl (.cons rfl .nil), rfl⟩

/-- The sign at the end of the first part and the digit at the beginning of the
second are scanned in either case, but pass the check only apart. -/
example : Token.scan "a-1" = .ok [.operand "a", .operator .sub, .operand "1"] ∧
    Source.check "a-1" = .error (.invalidExpression 2 .negativeLiteral) ∧
    Source.check "a- 1" = .ok () :=
  ⟨rfl, rfl, rfl⟩

end ArithTree
