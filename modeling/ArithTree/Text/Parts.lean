/-
# Parts of a text

What is taken off a text, and where it is cut.  Blanks are the characters that
Unicode counts as white space.  A text is cut in two at the first place where a
mark stands, the mark itself left out (`cutAt_eq_some`).

A line feed ends a line, and a carriage return right before it belongs to that
ending; any other carriage return is part of the line.  What follows the last
line feed is a line of its own unless it is empty.
-/

namespace ArithTree.Text

/-! ## Blanks and ends -/

/-- `c` has the property *White_Space*. -/
def isBlank (c : Char) : Bool :=
  ('\t' ≤ c && c ≤ '\r')
    || ('\u2000' ≤ c && c ≤ '\u200a')
    || c ∈ [' ', '\u0085', '\u00a0', '\u1680', '\u2028', '\u2029', '\u202f', '\u205f', '\u3000']

/-- A text without the characters at its end that have a property. -/
def stripEnd (p : Char → Bool) (text : List Char) : List Char :=
  (text.reverse.dropWhile p).reverse

theorem stripEnd_append {p : Char → Bool} {text ending : List Char}
    (hending : ∀ c ∈ ending, p c = true) (hlast : ∀ c ∈ text.getLast?, p c = false) :
    stripEnd p (text ++ ending) = text := by
  have hdrop : text.reverse.dropWhile p = text.reverse := by
    cases hrev : text.reverse with
    | nil => rfl
    | cons c rest =>
      have hc : p c = false := hlast c (by rw [← List.head?_reverse, hrev]; rfl)
      exact List.dropWhile_cons_of_neg (by simp [hc])
  have hall : ∀ c ∈ ending.reverse, p c = true := by simpa using hending
  rw [stripEnd, List.reverse_append, List.dropWhile_append_of_pos hall, hdrop,
    List.reverse_reverse]

/-- A text without the characters at its two ends that have a property. -/
def strip (p : Char → Bool) (text : List Char) : List Char :=
  stripEnd p (text.dropWhile p)

def trim (text : String) : String :=
  String.ofList (strip isBlank text.toList)

/-- A text of blanks alone, or without any character. -/
def isBlankText (text : String) : Bool :=
  text.toList.all isBlank

/-! ## The first mark -/

/-- What stands before and behind the first `mark`, if there is one. -/
def cutAt (mark : Char) : List Char → Option (List Char × List Char)
  | [] => none
  | c :: rest =>
    if c = mark then some ([], rest)
    else (cutAt mark rest).map fun (before, behind) => (c :: before, behind)

theorem cutAt_eq_some {mark : Char} {text before behind : List Char} :
    cutAt mark text = some (before, behind) ↔
      text = before ++ mark :: behind ∧ mark ∉ before := by
  induction text generalizing before with
  | nil => simp [cutAt]
  | cons c rest ih =>
    unfold cutAt
    split
    · rename_i h
      subst h
      cases before <;> simp
      grind
    · rename_i h
      simp only [Option.map_eq_some_iff, Prod.mk.injEq, Prod.exists]
      cases before with
      | nil => simp [h]
      | cons b before =>
        simp [ih]
        grind

def cut? (mark : Char) (text : String) : Option (String × String) :=
  (cutAt mark text.toList).map fun (before, behind) =>
    (String.ofList before, String.ofList behind)

theorem cut?_eq_some {mark : Char} {text before behind : String} :
    cut? mark text = some (before, behind) ↔
      text.toList = before.toList ++ mark :: behind.toList ∧ mark ∉ before.toList := by
  simp only [cut?, Option.map_eq_some_iff, Prod.exists, Prod.mk.injEq]
  constructor
  · rintro ⟨_, _, hcut, rfl, rfl⟩
    simpa using cutAt_eq_some.mp hcut
  · intro h
    exact ⟨_, _, cutAt_eq_some.mpr h, String.ofList_toList, String.ofList_toList⟩

/-! ## Lines -/

/-- The lines of a text, without what ends them. -/
def linesOf : List Char → List (List Char)
  | [] => []
  | '\n' :: rest => [] :: linesOf rest
  | '\r' :: '\n' :: rest => [] :: linesOf rest
  | c :: rest =>
    match linesOf rest with
    | [] => [[c]]
    | line :: lines => (c :: line) :: lines

def lines (text : String) : List String :=
  (linesOf text.toList).map String.ofList

def numberedLines (text : String) : List (Nat × String) :=
  (lines text).zipIdx 1 |>.map fun (line, n) => (n, line)

end ArithTree.Text
