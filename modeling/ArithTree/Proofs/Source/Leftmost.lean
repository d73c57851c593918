/-
# The leftmost violation

Which fault of a text is named: the leftmost one, whatever else is wrong with it
(`check_leftmost`).  `FaultAt` says what can be wrong at a place without a search,
by the character at the place and the one behind it.

The search that `check` makes looks one character ahead.  A search that never
does so has to keep the character before in mind, and notices a negative literal
one character behind the column that it reports.  `findBehind?` is that search.
It still finds the leftmost fault (`findBehind?_eq`), since the character after
the minus sign is a digit, and a digit is never at fault itself.
-/
import ArithTree.Proofs.Source
import Mathlib.Order.Bounds.Basic

namespace ArithTree.Source

/-! ## Faults by their places -/

/-- ASCII letters and digits, the four signs, the parentheses, the space. -/
def InAlphabet (c : Char) : Prop :=
  ('A' ≤ c ∧ c ≤ 'Z') ∨ ('a' ≤ c ∧ c ≤ 'z') ∨ ('0' ≤ c ∧ c ≤ '9') ∨
    c ∈ ['+', '-', '*', '/', '(', ')', ' ']

theorem isAllowed_iff {c : Char} : isAllowed c = true ↔ InAlphabet c := by
  have halpha : c.isAlpha = true ↔ c.isUpper = true ∨ c.isLower = true := Bool.or_eq_true_iff
  have hupper : c.isUpper = true ↔ 'A' ≤ c ∧ c ≤ 'Z' := decide_eq_true_iff
  have hlower : c.isLower = true ↔ 'a' ≤ c ∧ c ≤ 'z' :=
    Bool.and_eq_true_iff.trans (and_congr decide_eq_true_iff decide_eq_true_iff)
  have hdigit : c.isDigit = true ↔ '0' ≤ c ∧ c ≤ '9' :=
    Bool.and_eq_true_iff.trans (and_congr decide_eq_true_iff decide_eq_true_iff)
  rw [isAllowed, Bool.or_eq_true, decide_eq_true_eq, Char.isAlphanum, Bool.or_eq_true, halpha,
    hupper, hlower, hdigit, or_assoc, or_assoc]
  exact Iff.rfl

theorem isAllowed_eq_false_iff {c : Char} : isAllowed c = false ↔ ¬ InAlphabet c := by
  rw [← isAllowed_iff, Bool.not_eq_true]

/-- What is wrong at a place of the text, counted from 0. -/
inductive FaultAt (text : List Char) (i : Nat) : Violation → Prop
  | character {c : Char} : text[i]? = some c → ¬ InAlphabet c → FaultAt text i (.disallowed c)
  | sign : NegativeAt text i → FaultAt text i .negativeLiteral

theorem violationAt?_eq_some_iff {text : List Char} {i : Nat} {v : Violation} :
    violationAt? text i = some v ↔ FaultAt text i v := by
  have hnext : (text.drop (i + 1)).head? = text[i + 1]? := List.head?_drop
  rw [violationAt?, Option.bind_eq_some_iff]
  constructor
  · rintro ⟨c, hc, hv⟩
    rcases violation?_eq_some_iff.mp hv with ⟨hforeign, rfl⟩ | ⟨rfl, hdigit, rfl⟩
    · exact .character hc (isAllowed_eq_false_iff.mp hforeign)
    · exact .sign ⟨hc, hnext ▸ hdigit⟩
  · rintro (⟨hc, hforeign⟩ | ⟨hminus, hdigit⟩)
    · exact ⟨_, hc, violation?_eq_some_iff.mpr (Or.inl ⟨isAllowed_eq_false_iff.mpr hforeign, rfl⟩)⟩
    · exact ⟨_, hminus, violation?_eq_some_iff.mpr (Or.inr ⟨rfl, hnext.symm ▸ hdigit, rfl⟩)⟩

theorem violationAt?_eq_none_iff {text : List Char} {i : Nat} :
    violationAt? text i = none ↔ ∀ v, ¬ FaultAt text i v := by
  rw [Option.eq_none_iff_forall_ne_some]
  exact forall_congr' fun v => not_congr violationAt?_eq_some_iff

/-! ## The fault that is found -/

theorem firstViolation?_eq_some_iff {text : List Char} {start column : Nat} {v : Violation} :
    firstViolation? start text = some (column, v) ↔
      ∃ i, IsLeast {k | ∃ w, FaultAt text k w} i ∧ FaultAt text i v ∧ column = start + i := by
  rcases firstViolation?_cases text start with ⟨hnone, hall⟩ | ⟨i, w, hsome, hi, hbefore⟩
  · constructor
    · intro h
      exact nomatch hnone.symm.trans h
    · rintro ⟨k, _, hk, _⟩
      exact absurd hk (violationAt?_eq_none_iff.mp (hall k) v)
  · have hfault : FaultAt text i w := violationAt?_eq_some_iff.mp hi
    have hleast : IsLeast {k | ∃ w, FaultAt text k w} i := by
      refine ⟨⟨w, hfault⟩, ?_⟩
      rintro k ⟨u, hu⟩
      by_contra hk
      exact violationAt?_eq_none_iff.mp (hbefore k (Nat.not_le.mp hk)) u hu
    rw [hsome]
    constructor
    · intro h
      cases h
      exact ⟨i, hleast, hfault, rfl⟩
    · rintro ⟨k, hk, hv, rfl⟩
      obtain rfl : k = i := hk.unique hleast
      rw [Option.some.inj (hi.symm.trans (violationAt?_eq_some_iff.mpr hv))]

/-- There is no fault at any place exactly if every character is in the alphabet
and no minus sign has a digit right behind it. -/
theorem faultless_iff {text : List Char} : (∀ i v, ¬ FaultAt text i v) ↔
    (∀ c ∈ text, InAlphabet c) ∧ ∀ i, ¬ NegativeAt text i := by
  constructor
  · intro h
    refine ⟨?_, fun i hneg => h i _ (.sign hneg)⟩
    intro c hc
    obtain ⟨i, hi⟩ := List.mem_iff_getElem?.mp hc
    by_contra hforeign
    exact h i _ (.character hi hforeign)
  · rintro ⟨hall, hnone⟩ i _ (⟨hc, hforeign⟩ | hneg)
    · exact hforeign (hall _ (List.mem_of_getElem? hc))
    · exact hnone i hneg

theorem check_eq_ok_iff_faultless {source : String} :
    check source = .ok () ↔ ∀ i v, ¬ FaultAt source.toList i v := by
  unfold check
  rcases firstViolation?_cases source.toList 1 with ⟨hnone, hall⟩ | ⟨i, v, hsome, hi, _⟩
  · rw [hnone]
    exact ⟨fun _ i => violationAt?_eq_none_iff.mp (hall i), fun _ => rfl⟩
  · rw [hsome]
    constructor
    · intro h
      exact nomatch h
    · intro h
      exact absurd (violationAt?_eq_some_iff.mp hi) (h i v)

theorem check_eq_error_iff {source : String} {e : CompileError} : check source = .error e ↔
    ∃ column v, firstViolation? 1 source.toList = some (column, v) ∧
      e = .invalidExpression column v := by
  unfold check
  cases firstViolation? 1 source.toList with
  | none => simp
  | some found =>
      obtain ⟨column, v⟩ := found
      constructor
      · intro h
        cases h
        exact ⟨column, v, rfl, rfl⟩
      · rintro ⟨_, _, hfound, rfl⟩
        cases hfound
        rfl

theorem inAlphabet_of_mem_take {text : List Char} {i : Nat}
    (h : IsLeast {k | ∃ w, FaultAt text k w} i) : ∀ c ∈ text.take i, InAlphabet c := by
  intro c hc
  obtain ⟨k, hk, rfl⟩ := List.mem_take_iff_getElem.mp hc
  by_contra hforeign
  have hfault : FaultAt text k (.disallowed text[k]) :=
    .character (List.getElem?_eq_getElem _) hforeign
  have hle : i ≤ k := h.2 ⟨_, hfault⟩
  omega

theorem reason_of_faultAt {text : List Char} {i : Nat} {v : Violation} (h : FaultAt text i v) :
    (NegativeAt text i ∧ v.reason = "negative number literals are not supported") ∨
      ∃ c, text[i]? = some c ∧ ¬ InAlphabet c ∧
        v.reason = "disallowed character " ++ Text.quoted '\'' c := by
  cases h with
  | character hc hforeign => exact Or.inr ⟨_, hc, hforeign, rfl⟩
  | sign hneg => exact Or.inl ⟨hneg, rfl⟩

theorem lt_length_of_faultAt {text : List Char} {i : Nat} {v : Violation}
    (h : FaultAt text i v) : i < text.length := by
  cases h with
  | character hc _ => exact (List.getElem?_eq_some_iff.mp hc).1
  | sign h => exact (List.getElem?_eq_some_iff.mp h.1).1

/-! ## The search that looks back -/

/-- The first fault that is noticed by looking at a character and at the one before. -/
def findBehind? (column : Nat) (previous : Option Char) : List Char → Option (Nat × Violation)
  | [] => none
  | c :: rest =>
    if !isAllowed c then some (column, .disallowed c)
    else if c.isDigit = true ∧ previous = some '-' then some (column - 1, .negativeLiteral)
    else findBehind? (column + 1) (some c) rest

theorem isAllowed_of_isDigit {c : Char} (h : c.isDigit = true) : isAllowed c = true := by
  simp only [isAllowed, Char.isAlphanum, h, Bool.or_true, Bool.true_or]

/-- Behind an allowed character, looking back finds what looking ahead from it finds. -/
theorem findBehind?_some {rest : List Char} : ∀ {c : Char} (column : Nat), isAllowed c = true →
    findBehind? (column + 1) (some c) rest = firstViolation? column (c :: rest) := by
  induction rest with
  | nil =>
      intro c column hc
      have hnone : violation? c [] = none := violation?_eq_none_iff.mpr ⟨hc, by simp⟩
      simp only [findBehind?, firstViolation?, hnone]
  | cons d rest ih =>
      intro c column hc
      by_cases hneg : c = '-' ∧ d.isDigit = true
      · obtain ⟨rfl, hd⟩ := hneg
        have hv : violation? '-' (d :: rest) = some .negativeLiteral :=
          violation?_eq_some_iff.mpr (Or.inr ⟨rfl, hd, rfl⟩)
        simp [findBehind?, firstViolation?, hv, isAllowed_of_isDigit hd, hd]
      · have hloose : Loose c d := hneg
        have hnone : violation? c (d :: rest) = none :=
          violation?_eq_none_iff.mpr ⟨hc, by simpa using hloose⟩
        have hback : ¬ (d.isDigit = true ∧ some c = some '-') :=
          fun h => hneg ⟨Option.some.inj h.2, h.1⟩
        have hstep : firstViolation? column (c :: d :: rest) =
            firstViolation? (column + 1) (d :: rest) := by
          rw [firstViolation?, hnone]
        rw [hstep, findBehind?, if_neg hback]
        cases hd : isAllowed d with
        | false => simp [firstViolation?, violation?, hd]
        | true => exact ih (column + 1) hd

theorem findBehind?_eq (text : List Char) :
    findBehind? 1 none text = firstViolation? 1 text := by
  cases text with
  | nil => rfl
  | cons c rest =>
      cases hc : isAllowed c with
      | false => simp [findBehind?, firstViolation?, violation?, hc]
      | true =>
          rw [← findBehind?_some 1 hc, findBehind?]
          simp [hc]

/-! ## What is reported -/

/-- A text passes the check exactly if its characters are in the alphabet and no
minus sign has a digit right behind it.  Otherwise the least place with a fault
is reported, counted from 1, with what is wrong there; so it lies within the text
and what stands before it is in the alphabet.  A search that looks back instead
of ahead reports the same. -/
theorem check_leftmost (source : String) :
    (check source = .ok () ↔
      (∀ c ∈ source.toList, InAlphabet c) ∧ ∀ i, ¬ NegativeAt source.toList i) ∧
    (∀ e, check source = .error e ↔
      ∃ i v, IsLeast {k | ∃ w, FaultAt source.toList k w} i ∧ FaultAt source.toList i v ∧
        e = .invalidExpression (i + 1) v) ∧
    (∀ i v, FaultAt source.toList i v →
      (NegativeAt source.toList i ∧ v.reason = "negative number literals are not supported") ∨
        ∃ c, source.toList[i]? = some c ∧ ¬ InAlphabet c ∧
          v.reason = "disallowed character " ++ Text.quoted '\'' c) ∧
    (∀ column v, check source = .error (.invalidExpression column v) →
      1 ≤ column ∧ column ≤ source.length ∧
        ∀ c ∈ source.toList.take (column - 1), InAlphabet c) ∧
    ∀ column v, check source = .error (.invalidExpression column v) ↔
      findBehind? 1 none source.toList = some (column, v) := by
  have herror : ∀ e, check source = .error e ↔
      ∃ i v, IsLeast {k | ∃ w, FaultAt source.toList k w} i ∧ FaultAt source.toList i v ∧
        e = .invalidExpression (i + 1) v := by
    intro e
    rw [check_eq_error_iff]
    constructor
    · rintro ⟨_, v, hfound, rfl⟩
      obtain ⟨i, hleast, hfault, rfl⟩ := firstViolation?_eq_some_iff.mp hfound
      exact ⟨i, v, hleast, hfault, by rw [Nat.add_comm]⟩
    · rintro ⟨i, v, hleast, hfault, rfl⟩
      exact ⟨i + 1, v, firstViolation?_eq_some_iff.mpr ⟨i, hleast, hfault, Nat.add_comm i 1⟩, rfl⟩
  refine ⟨check_eq_ok_iff_faultless.trans faultless_iff, herror,
    fun _ _ hfault => reason_of_faultAt hfault, ?_, ?_⟩
  · intro column v h
    obtain ⟨i, w, hleast, hfault, heq⟩ := (herror _).mp h
    obtain ⟨rfl, rfl⟩ := CompileError.invalidExpression.inj heq
    have hlt := lt_length_of_faultAt hfault
    rw [String.length_toList] at hlt
    exact ⟨Nat.le_add_left 1 i, hlt, inAlphabet_of_mem_take hleast⟩
  · intro column v
    rw [findBehind?_eq, check_eq_error_iff]
    constructor
    · rintro ⟨_, _, hfound, heq⟩
      obtain ⟨rfl, rfl⟩ := CompileError.invalidExpression.inj heq
      exact hfound
    · intro hfound
      exact ⟨column, v, hfound, rfl⟩

/-- The minus sign is noticed at the digit behind it, before the character that
is not allowed, and is reported by its own column. -/
example : check "b*-7;" = .error (.invalidExpression 3 .negativeLiteral) ∧
    check "b;*-7" = .error (.invalidExpression 2 (.disallowed ';')) :=
  ⟨rfl, rfl⟩

end ArithTree.Source
