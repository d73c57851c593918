/-
# Accepted texts

A text passes the check if its characters are allowed and its neighbours are:
no minus sign stands right before a digit (`check_eq_ok_iff`).  What is refused
is refused for one of these two faults and for no other (`check_error`).

The last section says which of several faults is named.  `violationAt?` looks at
one place of the text and at no other; the fault that the search finds is at the
first place that has one (`firstViolation?_cases`).
-/
import ArithTree.Source
import Mathlib.Data.List.Chain

namespace ArithTree.Source

/-- The two characters may stand side by side. -/
def Loose (c d : Char) : Prop :=
  ¬ (c = '-' ∧ d.isDigit = true)

theorem loose_of_ne {c d : Char} (h : c ≠ '-') : Loose c d :=
  fun hcd => h hcd.1

theorem loose_of_not_digit {c d : Char} (h : d.isDigit = false) : Loose c d :=
  fun hcd => absurd hcd.2 (by rw [h]; exact Bool.false_ne_true)

theorem violation?_eq_none_iff {c : Char} {rest : List Char} :
    violation? c rest = none ↔ isAllowed c = true ∧ ∀ d ∈ rest.head?, Loose c d := by
  unfold violation? Loose
  cases isAllowed c with
  | false => simp
  | true =>
      cases rest with
      | nil => simp
      | cons d rest =>
          by_cases h : c = '-' ∧ d.isDigit = true
          · simp [h]
          · have h' : c = '-' → d.isDigit = false := by simpa using h
            simpa [h] using h'

theorem violation?_eq_some_iff {c : Char} {rest : List Char} {v : Violation} :
    violation? c rest = some v ↔ (isAllowed c = false ∧ v = .disallowed c) ∨
      (c = '-' ∧ rest.head?.any Char.isDigit = true ∧ v = .negativeLiteral) := by
  constructor
  · intro h
    unfold violation? at h
    split at h
    · next hc =>
        cases h
        exact Or.inl ⟨by simpa using hc, rfl⟩
    split at h
    · next hneg =>
        cases h
        exact Or.inr ⟨hneg.1, hneg.2, rfl⟩
    · exact nomatch h
  · rintro (⟨hc, rfl⟩ | ⟨rfl, hdigit, rfl⟩)
    · exact if_pos (by simpa using hc)
    · exact (if_neg (by decide)).trans (if_pos ⟨rfl, hdigit⟩)

theorem firstViolation?_eq_none_iff {text : List Char} : ∀ {column : Nat},
    firstViolation? column text = none ↔
      (∀ c ∈ text, isAllowed c = true) ∧ text.IsChain Loose := by
  induction text with
  | nil => intro column; simp [firstViolation?]
  | cons c rest ih =>
      intro column
      rw [List.forall_mem_cons, List.isChain_cons]
      cases hv : violation? c rest with
      | some v =>
          have : ¬ (isAllowed c = true ∧ ∀ d ∈ rest.head?, Loose c d) := fun h =>
            nomatch hv.symm.trans (violation?_eq_none_iff.mpr h)
          simp only [firstViolation?, hv]
          constructor
          · intro h; exact nomatch h
          · rintro ⟨⟨h, _⟩, h', _⟩; exact absurd ⟨h, h'⟩ this
      | none =>
          obtain ⟨hc, hd⟩ := violation?_eq_none_iff.mp hv
          simp only [firstViolation?, hv]
          rw [ih]
          constructor
          · rintro ⟨h, h'⟩; exact ⟨⟨hc, h⟩, hd, h'⟩
          · rintro ⟨⟨_, h⟩, _, h'⟩; exact ⟨h, h'⟩

theorem check_eq_ok_iff {source : String} : check source = .ok () ↔
    (∀ c ∈ source.toList, isAllowed c = true) ∧ source.toList.IsChain Loose := by
  rw [← show firstViolation? 1 source.toList = none ↔ _ from firstViolation?_eq_none_iff, check]
  cases firstViolation? 1 source.toList with
  | none => exact ⟨fun _ => rfl, fun _ => rfl⟩
  | some p => exact ⟨fun h => (nomatch h), fun h => (nomatch h)⟩

theorem reason_of_firstViolation? {column : Nat} {v : Violation} : ∀ {text : List Char} {start : Nat},
    firstViolation? start text = some (column, v) → v = .negativeLiteral ∨ ∃ c, v = .disallowed c
  | c :: rest, start, h => by
      unfold firstViolation? at h
      split at h
      · next hv =>
          cases h
          rcases violation?_eq_some_iff.mp hv with ⟨_, rfl⟩ | ⟨_, _, rfl⟩
          · exact Or.inr ⟨c, rfl⟩
          · exact Or.inl rfl
      · exact reason_of_firstViolation? h

theorem check_error {source : String} {e : CompileError} (h : check source = .error e) :
    ∃ column v, e = .invalidExpression column v ∧
      (v = .negativeLiteral ∨ ∃ c, v = .disallowed c) := by
  unfold check at h
  split at h
  · next column v hv => cases h; exact ⟨column, v, rfl, reason_of_firstViolation? hv⟩
  · exact nomatch h

/-! ## The leftmost violation -/

/-- What is wrong at a place of the text, counted from 0. -/
def violationAt? (text : List Char) (i : Nat) : Option Violation :=
  text[i]?.bind fun c => violation? c (text.drop (i + 1))

/-- A minus sign stands at the place, with a digit right behind it. -/
def NegativeAt (text : List Char) (i : Nat) : Prop :=
  text[i]? = some '-' ∧ text[i + 1]?.any Char.isDigit = true

instance (text : List Char) (i : Nat) : Decidable (NegativeAt text i) :=
  inferInstanceAs (Decidable (_ ∧ _))

@[simp] theorem violationAt?_cons_zero (c : Char) (rest : List Char) :
    violationAt? (c :: rest) 0 = violation? c rest := rfl

@[simp] theorem violationAt?_cons_succ (c : Char) (rest : List Char) (i : Nat) :
    violationAt? (c :: rest) (i + 1) = violationAt? rest i := by
  simp [violationAt?]

theorem firstViolation?_cases (text : List Char) : ∀ start : Nat,
    (firstViolation? start text = none ∧ ∀ i, violationAt? text i = none) ∨
    ∃ i v, firstViolation? start text = some (start + i, v) ∧ violationAt? text i = some v ∧
      ∀ j < i, violationAt? text j = none := by
  induction text with
  | nil =>
      intro start
      exact Or.inl ⟨rfl, fun _ => rfl⟩
  | cons c rest ih =>
      intro start
      cases hv : violation? c rest with
      | some v =>
          refine Or.inr ⟨0, v, ?_, hv, fun j hj => absurd hj (Nat.not_lt_zero j)⟩
          simp [firstViolation?, hv]
      | none =>
          have hstep : firstViolation? start (c :: rest) = firstViolation? (start + 1) rest := by
            simp [firstViolation?, hv]
          rcases ih (start + 1) with ⟨hnone, hall⟩ | ⟨i, v, hsome, hi, hbefore⟩
          · refine Or.inl ⟨hstep.trans hnone, ?_⟩
            intro i
            cases i with
            | zero => exact hv
            | succ i => simpa using hall i
          · refine Or.inr ⟨i + 1, v, ?_, by simpa using hi, ?_⟩
            · rw [hstep, hsome, Nat.add_assoc, Nat.add_comm 1]
            · intro j hj
              cases j with
              | zero => exact hv
              | succ j => simpa using hbefore j (Nat.lt_of_succ_lt_succ hj)

theorem violationAt?_of_allowed {text : List Char} (h : ∀ c ∈ text, isAllowed c = true) (i : Nat) :
    (violationAt? text i = none ∧ ¬ NegativeAt text i) ∨
    (violationAt? text i = some .negativeLiteral ∧ NegativeAt text i) := by
  unfold violationAt? NegativeAt
  cases hc : text[i]? with
  | none => simp
  | some c =>
      have hallowed : isAllowed c = true := h c (List.mem_of_getElem? hc)
      have hnext : (text.drop (i + 1)).head? = text[i + 1]? := List.head?_drop
      simp only [Option.bind_some, violation?, hallowed, hnext]
      by_cases hneg : c = '-' ∧ text[i + 1]?.any Char.isDigit = true
      · simp [hneg]
      · simp [hneg]

/-- A text of allowed characters passes the check, or is refused for the first
minus sign that has a digit right behind it. -/
theorem check_of_allowed {source : String} (h : ∀ c ∈ source.toList, isAllowed c = true) :
    (check source = .ok () ∧ ∀ i, ¬ NegativeAt source.toList i) ∨
    ∃ i, check source = .error (.invalidExpression (i + 1) .negativeLiteral) ∧
      NegativeAt source.toList i ∧ ∀ j < i, ¬ NegativeAt source.toList j := by
  have hnone : ∀ i, violationAt? source.toList i = none → ¬ NegativeAt source.toList i := by
    intro i hi
    rcases violationAt?_of_allowed h i with ⟨_, hneg⟩ | ⟨hv, _⟩
    · exact hneg
    · exact nomatch hv.symm.trans hi
  rcases firstViolation?_cases source.toList 1 with ⟨hfirst, hall⟩ | ⟨i, v, hfirst, hi, hbefore⟩
  · refine Or.inl ⟨by simp [check, hfirst], ?_⟩
    intro i
    exact hnone i (hall i)
  · refine Or.inr ⟨i, ?_⟩
    rcases violationAt?_of_allowed h i with ⟨hv, _⟩ | ⟨hv, hneg⟩
    · exact nomatch hv.symm.trans hi
    · cases hi.symm.trans hv
      refine ⟨by simp [check, hfirst, Nat.add_comm], hneg, ?_⟩
      intro j hj
      exact hnone j (hbefore j hj)

end ArithTree.Source
