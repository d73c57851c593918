/-
# Numbers in writing

`Writes` says which texts write a number, and which one, by the shape of the
text alone: a sign, which may be left out, and a magnitude in digits or in
words.  What digits write is the binary64 number that the decimal itself stands
for.  No text writes two numbers, because reading a text gives the number that
it writes and nothing else (`read?_eq_some_iff`).

The reader takes a text apart from the front.  So each half of the equivalence
needs to know where a part ends: a magnitude does not begin with a sign, and
what follows a run of digits does not begin with a digit.
-/
import ArithTree.Decimal.Read
import Mathlib.Data.List.TakeWhile

namespace ArithTree.Decimal

/-! ## The shape of a number -/

/-- A sign, which may be left out: `true` for a minus. -/
inductive Sign : List Char → Bool → Prop
  | omitted : Sign [] false
  | plus : Sign ['+'] false
  | minus : Sign ['-'] true

def AllDigits (text : List Char) : Prop :=
  ∀ c ∈ text, c.isDigit = true

/-- A fraction with the digits behind its point.  There may be none of them, and
the point may be left out with them. -/
inductive Fraction : List Char → List Char → Prop
  | omitted : Fraction [] []
  | point {digits : List Char} : AllDigits digits → Fraction ('.' :: digits) digits

/-- The power of ten at the end of a number, which may be left out. -/
inductive Power : List Char → Int → Prop
  | omitted : Power [] 0
  | positive {mark : Char} {sign digits : List Char} : mark = 'e' ∨ mark = 'E' →
      Sign sign false → digits ≠ [] → AllDigits digits →
      Power (mark :: (sign ++ digits)) (Nat.ofDigitChars 10 digits 0)
  | negative {mark : Char} {sign digits : List Char} : mark = 'e' ∨ mark = 'E' →
      Sign sign true → digits ≠ [] → AllDigits digits →
      Power (mark :: (sign ++ digits)) (-(Nat.ofDigitChars 10 digits 0 : Int))

/-- A number without its sign: digits with a point among them and a power of ten,
or a word.  The digits behind the point lower the power. -/
inductive Magnitude : List Char → Float → Prop
  | decimal {whole point fraction power : List Char} {exponent : Int} : AllDigits whole →
      Fraction point fraction → whole ++ fraction ≠ [] → Power power exponent →
      Magnitude (whole ++ (point ++ power))
        (Float.ofScientific (Nat.ofDigitChars 10 (whole ++ fraction) 0)
          (exponent - fraction.length < 0) (exponent - fraction.length).natAbs)
  | inf {word : List Char} : word.map Char.toLower = "inf".toList → Magnitude word (1 / 0)
  | infinity {word : List Char} :
      word.map Char.toLower = "infinity".toList → Magnitude word (1 / 0)
  | nan {word : List Char} : word.map Char.toLower = "nan".toList → Magnitude word (0 / 0)

inductive Writes : List Char → Float → Prop
  | positive {sign magnitude : List Char} {x : Float} : Sign sign false →
      Magnitude magnitude x → Writes (sign ++ magnitude) x
  | negative {sign magnitude : List Char} {x : Float} : Sign sign true →
      Magnitude magnitude x → Writes (sign ++ magnitude) (-x)

/-! ## Signs -/

def Unsigned (text : List Char) : Prop :=
  ∀ c ∈ text.head?, c ≠ '-' ∧ c ≠ '+'

theorem splitSign_append {sign rest : List Char} {minus : Bool} (hsign : Sign sign minus)
    (hrest : Unsigned rest) : splitSign (sign ++ rest) = (minus, rest) := by
  cases hsign with
  | plus | minus => rfl
  | omitted =>
      cases rest with
      | nil => rfl
      | cons c rest =>
          obtain ⟨hminus, hplus⟩ := hrest c rfl
          rw [List.nil_append, splitSign.eq_def]
          split
          · exact absurd (List.cons.inj ‹_›).1 hminus
          · exact absurd (List.cons.inj ‹_›).1 hplus
          · rfl

theorem exists_splitSign (text : List Char) :
    ∃ sign, text = sign ++ (splitSign text).2 ∧ Sign sign (splitSign text).1 := by
  rw [splitSign.eq_def]
  split
  · exact ⟨['-'], rfl, .minus⟩
  · exact ⟨['+'], rfl, .plus⟩
  · exact ⟨[], rfl, .omitted⟩

/-! ## Runs of digits -/

theorem AllDigits.unsigned {text : List Char} (h : AllDigits text) : Unsigned text := by
  intro c hc
  have hdigit : c.isDigit = true := h c (List.mem_of_mem_head? hc)
  constructor
  · rintro rfl
    exact absurd hdigit (by decide)
  · rintro rfl
    exact absurd hdigit (by decide)

theorem splitDigits_append {digits rest : List Char} (hdigits : AllDigits digits)
    (hrest : ∀ c ∈ rest.head?, c.isDigit = false) : splitDigits (digits ++ rest) = (digits, rest) := by
  rw [splitDigits, List.takeWhile_append_of_pos hdigits, List.dropWhile_append_of_pos hdigits]
  cases rest with
  | nil => rw [List.takeWhile_nil, List.dropWhile_nil, List.append_nil]
  | cons c rest =>
      have hc : ¬ c.isDigit = true := by simp [hrest c rfl]
      rw [List.takeWhile_cons_of_neg hc, List.dropWhile_cons_of_neg hc, List.append_nil]

theorem splitDigits_spec (text : List Char) :
    text = (splitDigits text).1 ++ (splitDigits text).2 ∧ AllDigits (splitDigits text).1 :=
  ⟨List.takeWhile_append_dropWhile.symm, fun _ => List.mem_takeWhile_imp⟩

theorem splitFraction_append {point fraction rest : List Char} (hpoint : Fraction point fraction)
    (hrest : ∀ c ∈ rest.head?, c.isDigit = false ∧ c ≠ '.') :
    splitFraction (point ++ rest) = (fraction, rest) := by
  cases hpoint with
  | point hdigits =>
      rw [List.cons_append, splitFraction.eq_1]
      exact splitDigits_append hdigits fun c hc => (hrest c hc).1
  | omitted =>
      rw [List.nil_append, splitFraction.eq_def]
      split
      · exact absurd rfl (hrest '.' rfl).2
      · rfl

theorem splitFraction_spec (text : List Char) :
    ∃ point, text = point ++ (splitFraction text).2 ∧ Fraction point (splitFraction text).1 := by
  rw [splitFraction.eq_def]
  split
  · rename_i rest
    obtain ⟨hrest, hdigits⟩ := splitDigits_spec rest
    exact ⟨'.' :: (splitDigits rest).1, congrArg ('.' :: ·) hrest, .point hdigits⟩
  · exact ⟨[], rfl, .omitted⟩

/-! ## Magnitudes -/

theorem exponent?_eq_some_iff {text : List Char} {e : Int} :
    exponent? text = some e ↔ Power text e := by
  constructor
  · intro h
    cases text with
    | nil => cases h; exact .omitted
    | cons mark rest =>
        obtain ⟨sign, hrest, hsign⟩ := exists_splitSign rest
        rw [hrest]
        simp only [exponent?] at h
        split at h
        · rename_i hshape
          obtain ⟨hmark, hne, hall⟩ := hshape
          have hdigits : AllDigits (splitSign rest).2 := List.all_eq_true.mp hall
          generalize hminus : (splitSign rest).1 = minus at h hsign
          cases minus with
          | true => cases h; exact .negative hmark hsign hne hdigits
          | false => cases h; exact .positive hmark hsign hne hdigits
        · cases h
  · intro h
    cases h with
    | omitted => rfl
    | positive hmark hsign hne hdigits | negative hmark hsign hne hdigits =>
        have hall := List.all_eq_true.mpr hdigits
        simp only [exponent?, splitSign_append hsign hdigits.unsigned]
        rw [if_pos ⟨hmark, hne, hall⟩]
        rfl

/-- A power of ten cannot be taken for more digits or for a fraction. -/
theorem Power.head {text : List Char} {e : Int} (h : Power text e) :
    ∀ c ∈ text.head?, c.isDigit = false ∧ c ≠ '.' := by
  have hmark : ∀ {mark : Char}, mark = 'e' ∨ mark = 'E' → mark.isDigit = false ∧ mark ≠ '.' := by
    rintro mark (rfl | rfl)
    · decide
    · decide
  cases h with
  | omitted => exact fun _ h => nomatch h
  | positive hm | negative hm =>
      rintro c ⟨⟩
      exact hmark hm

theorem magnitude?_eq_some_iff {text : List Char} {x : Float} : magnitude? text = some x ↔
    ∃ whole point fraction power exponent, text = whole ++ (point ++ power) ∧ AllDigits whole ∧
      Fraction point fraction ∧ whole ++ fraction ≠ [] ∧ Power power exponent ∧
      x = nearest (Nat.ofDigitChars 10 (whole ++ fraction) 0) (exponent - fraction.length) := by
  constructor
  · intro h
    obtain ⟨htext, hwhole⟩ := splitDigits_spec text
    obtain ⟨point, hrest, hpoint⟩ := splitFraction_spec (splitDigits text).2
    simp only [magnitude?] at h
    split at h
    · cases h
    · rename_i hne
      obtain ⟨exponent, hexponent, rfl⟩ := Option.map_eq_some_iff.mp h
      refine ⟨_, point, _, _, exponent, ?_, hwhole, hpoint, hne,
        exponent?_eq_some_iff.mp hexponent, rfl⟩
      rw [← hrest, ← htext]
  · rintro ⟨whole, point, fraction, power, exponent, rfl, hwhole, hpoint, hne, hpower, rfl⟩
    have hrest : ∀ c ∈ (point ++ power).head?, c.isDigit = false := by
      cases hpoint with
      | omitted => exact fun c hc => (hpower.head c hc).1
      | point _ => rintro c ⟨⟩; decide
    simp only [magnitude?, splitDigits_append hwhole hrest,
      splitFraction_append hpoint hpower.head, if_neg hne, exponent?_eq_some_iff.mpr hpower,
      Option.map_some]

theorem named?_eq_some {word : List Char} {x : Float} (h : named? word = some x) :
    Magnitude word x := by
  simp only [named?] at h
  split at h
  · rename_i hword
    cases h
    rcases hword with hword | hword
    · exact .inf hword
    · exact .infinity hword
  · split at h
    · cases h
      exact .nan ‹_›
    · cases h

theorem toLower_of_lt {c : Char} (h : c < 'A') : c.toLower = c := by
  have hrange : ¬ (c.val ≥ 'A'.val ∧ c.val ≤ 'Z'.val) :=
    fun hrange => absurd hrange.1 (UInt32.not_le.mpr h)
  exact dif_neg hrange

/-- Digits, the point and the signs all come before the letters. -/
theorem lt_of_isDigit {c : Char} (h : c.isDigit = true) : c < 'A' := by
  simp only [Char.isDigit, Bool.and_eq_true, decide_eq_true_eq] at h
  exact UInt32.lt_of_le_of_lt h.2 (by decide)

theorem exists_decimal_cons {whole point fraction power : List Char}
    (hwhole : AllDigits whole) (hpoint : Fraction point fraction) (hne : whole ++ fraction ≠ []) :
    ∃ c rest, whole ++ (point ++ power) = c :: rest ∧ (c.isDigit = true ∨ c = '.') := by
  cases whole with
  | cons c whole => exact ⟨c, _, rfl, Or.inl (hwhole c List.mem_cons_self)⟩
  | nil =>
      cases hpoint with
      | omitted => exact absurd rfl hne
      | point _ => exact ⟨'.', _, rfl, Or.inr rfl⟩

theorem named?_eq_none {c : Char} {rest : List Char} (hc : c.isDigit = true ∨ c = '.') :
    named? (c :: rest) = none := by
  have hlt : c < 'A' := by
    rcases hc with hc | rfl
    · exact lt_of_isDigit hc
    · decide
  have hi : c ≠ 'i' := fun h => absurd hlt (by rw [h]; decide)
  have hn : c ≠ 'n' := fun h => absurd hlt (by rw [h]; decide)
  simp [named?, toLower_of_lt hlt, hi, hn]

theorem Magnitude.unsigned {text : List Char} {x : Float} (h : Magnitude text x) :
    Unsigned text := by
  have hword : ∀ {word letters : List Char}, word.map Char.toLower = letters →
      (∀ c ∈ letters.head?, 'A' < c) → Unsigned word := by
    rintro word letters rfl hletter c hc
    have hlower : 'A' < c.toLower := hletter _ (by simp [Option.mem_def.mp hc])
    constructor
    · rintro rfl
      exact absurd hlower (by decide)
    · rintro rfl
      exact absurd hlower (by decide)
  cases h with
  | inf h | infinity h | nan h => exact hword h (by simp)
  | decimal hwhole hpoint hne _ =>
      obtain ⟨c, rest, htext, hc⟩ := exists_decimal_cons hwhole hpoint hne
      rw [htext]
      rintro d ⟨⟩
      rcases hc with hc | rfl
      · have hdigits : AllDigits [c] := by simpa [AllDigits] using hc
        exact hdigits.unsigned c rfl
      · decide

theorem magnitude_iff {text : List Char} {x : Float} :
    (named? text).or (magnitude? text) = some x ↔ Magnitude text x := by
  rw [Option.or_eq_some_iff, magnitude?_eq_some_iff]
  constructor
  · rintro (h | ⟨_, whole, point, fraction, power, exponent, rfl, hwhole, hpoint, hne, hpower, rfl⟩)
    · exact named?_eq_some h
    · exact .decimal hwhole hpoint hne hpower
  · intro h
    cases h with
    | inf h => exact Or.inl (by simp [named?, h])
    | infinity h => exact Or.inl (by simp [named?, h])
    | nan h => exact Or.inl (by simp [named?, h])
    | decimal hwhole hpoint hne hpower =>
        obtain ⟨c, rest, htext, hc⟩ := exists_decimal_cons hwhole hpoint hne
        refine Or.inr ⟨?_, _, _, _, _, _, rfl, hwhole, hpoint, hne, hpower, rfl⟩
        rw [htext]
        exact named?_eq_none hc

theorem read?_eq_some_iff {text : String} {x : Float} :
    read? text = some x ↔ Writes text.toList x := by
  constructor
  · intro h
    obtain ⟨sign, htext, hsign⟩ := exists_splitSign text.toList
    simp only [read?] at h
    rw [htext]
    generalize splitSign text.toList = parts at h hsign ⊢
    obtain ⟨minus, magnitude⟩ := parts
    obtain ⟨y, hy, rfl⟩ := Option.map_eq_some_iff.mp h
    cases minus with
    | true => exact .negative hsign (magnitude_iff.mp hy)
    | false => exact .positive hsign (magnitude_iff.mp hy)
  · intro h
    simp only [read?]
    generalize text.toList = chars at h
    cases h with
    | positive hsign hmagnitude | negative hsign hmagnitude =>
        simp only [splitSign_append hsign hmagnitude.unsigned, magnitude_iff.mpr hmagnitude]
        rfl

/-- No text writes two numbers. -/
theorem Writes.unique {text : List Char} {x y : Float} (hx : Writes text x) (hy : Writes text y) :
    x = y := by
  have hread : ∀ {z : Float}, Writes text z → read? (String.ofList text) = some z := by
    intro z hz
    rw [read?_eq_some_iff, String.toList_ofList]
    exact hz
  exact Option.some.inj ((hread hx).symm.trans (hread hy))

end ArithTree.Decimal
