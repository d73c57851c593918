/-
# What stands between quotes

`StandsFor` says which characters between two marks stand for a character: the
character itself if there is something to see that is neither the mark nor a
backslash, and otherwise an escape, which begins with a backslash.  A quoted
character is such a text between two marks (`quoted_eq`), and the text tells
which character it is (`quoted_injective`), so that nothing gets lost in an
error message.
-/
import ArithTree.Text.Quoted
import Mathlib.Data.List.Basic

namespace ArithTree.Text

/-! ## Hexadecimal digits -/

theorem digitChar_injective_of_lt : ∀ m < 16, ∀ n < 16, Nat.digitChar m = Nat.digitChar n → m = n := by
  decide

/-- Numbers with the same hexadecimal digits are equal: the last digit is that of
the remainder, and the digits before it are those of the quotient. -/
theorem toDigits_sixteen_injective : Function.Injective (Nat.toDigits 16) := by
  intro m
  induction m using Nat.strongRecOn with
  | ind m ih =>
      intro n h
      rw [Nat.toDigits_eq_if (by decide), Nat.toDigits_eq_if (n := n) (by decide)] at h
      have hm := Nat.mod_lt m (show 0 < 16 by decide)
      have hn := Nat.mod_lt n (show 0 < 16 by decide)
      have hne : ∀ k, Nat.toDigits 16 k ≠ [] := fun k => Nat.toDigits_ne_nil
      split at h
      · rename_i hlt
        split at h
        · rename_i hlt'
          exact digitChar_injective_of_lt m hlt n hlt' (List.cons.inj h).1
        · simpa [hne] using congrArg List.length h
      · rename_i hle
        split at h
        · simpa [hne] using congrArg List.length h
        · obtain ⟨hinit, hlast⟩ := List.append_inj' h rfl
          have hquotient := ih (m / 16) (by omega) hinit
          have hremainder := digitChar_injective_of_lt _ hm _ hn (List.cons.inj hlast).1
          omega

/-! ## Characters and what stands for them -/

/-- The characters with a short escape, and the letters of these. -/
def shortEscapes : List (Char × Char) :=
  [('\x00', '0'), ('\t', 't'), ('\r', 'r'), ('\n', 'n'), ('\\', '\\')]

/-- Between two marks, these characters stand for this one. -/
inductive StandsFor (mark : Char) : List Char → Char → Prop
  | itself {c : Char} : c ≠ mark → c ≠ '\\' → isExtender c = false → isUndrawn c = false →
      StandsFor mark [c] c
  | mark : StandsFor mark ['\\', mark] mark
  | short {c letter : Char} : (c, letter) ∈ shortEscapes → StandsFor mark ['\\', letter] c
  | code {c : Char} : isExtender c = true ∨ isUndrawn c = true →
      StandsFor mark ('\\' :: 'u' :: '\x7b' :: (Nat.toDigits 16 c.toNat ++ ['\x7d'])) c

theorem standsFor_escape (mark c : Char) : StandsFor mark (escape mark c).toList c := by
  unfold escape
  split
  · exact .short (by decide)
  · exact .short (by decide)
  · exact .short (by decide)
  · exact .short (by decide)
  · exact .short (by decide)
  · rename_i hbackslash
    split
    · rename_i h
      subst h
      rw [String.toList_ofList]
      exact .mark
    · rename_i hmark
      split
      · rename_i hcode
        rw [codeEscape]
        simp only [String.toList_append, String.toList_ofList]
        exact .code (by simpa using hcode)
      · rename_i hdrawn
        simp only [Bool.or_eq_true, not_or, Bool.not_eq_true] at hdrawn
        rw [String.toList_singleton]
        exact .itself hmark hbackslash hdrawn.1 hdrawn.2

theorem eq_of_short {c d letter : Char} (hc : (c, letter) ∈ shortEscapes)
    (hd : (d, letter) ∈ shortEscapes) : c = d := by
  have hall : ∀ pair ∈ shortEscapes, ∀ pair' ∈ shortEscapes, pair.2 = pair'.2 →
      pair.1 = pair'.1 := by decide
  exact hall _ hc _ hd rfl

/-- What stands for a character stands for no other one, unless the mark is a
letter of a short escape. -/
theorem StandsFor.unique {mark c d : Char} {shown : List Char}
    (hmark : ∀ pair ∈ shortEscapes, pair.2 ≠ mark) (hc : StandsFor mark shown c)
    (hd : StandsFor mark shown d) : c = d := by
  generalize hshown : shown = shown' at hd
  cases hc with
  | itself =>
      cases hd with
      | itself => exact (List.cons.inj hshown).1
      | mark | short _ | code _ => simp at hshown
  | mark =>
      cases hd with
      | mark => rfl
      | short hletter =>
          simp only [List.cons.injEq, true_and, and_true] at hshown
          exact absurd hshown.symm (hmark _ hletter)
      | itself | code _ => simp at hshown
  | short hletter =>
      cases hd with
      | short hletter' =>
          simp only [List.cons.injEq, true_and, and_true] at hshown
          subst hshown
          exact eq_of_short hletter hletter'
      | mark =>
          simp only [List.cons.injEq, true_and, and_true] at hshown
          exact absurd hshown (hmark _ hletter)
      | itself | code _ => simp at hshown
  | code _ =>
      cases hd with
      | code _ =>
          simp only [List.cons.injEq, true_and, List.append_cancel_right_eq] at hshown
          exact Char.toNat_inj.mp (toDigits_sixteen_injective hshown)
      | itself | mark | short _ => simp at hshown

/-! ## Between the marks -/

theorem quoted_eq (mark c : Char) : ∃ shown : String, StandsFor mark shown.toList c ∧
    quoted mark c = String.singleton mark ++ shown ++ String.singleton mark :=
  ⟨escape mark c, standsFor_escape mark c, rfl⟩

theorem quoted_injective {mark : Char} (hmark : ∀ pair ∈ shortEscapes, pair.2 ≠ mark) :
    Function.Injective (quoted mark) := by
  intro c d h
  obtain ⟨shown, hc, hshown⟩ := quoted_eq mark c
  obtain ⟨shown', hd, hshown'⟩ := quoted_eq mark d
  rw [h, hshown', String.append_left_inj, String.append_right_inj] at hshown
  subst hshown
  exact hc.unique hmark hd

end ArithTree.Text
