/-
# Cores and lines

`strip` takes off what stands at the two ends of a text.  `IsCore` says what is
left without taking anything off: the text is this core between characters that
have the property, and the core neither begins nor ends with one.  Every text
has exactly one core (`strip_eq_iff`).

`CutInto` says what the lines of a text are: each ends at a line feed, or at a
carriage return and a line feed, and the last one may end with the text.  A text
is cut in exactly one way (`linesOf_eq_iff`), and it does not matter which of
the two ends its lines have (`linesOf_withReturns`).  A line is blank if nothing
is left of it without the blanks at its two ends (`isBlankText_iff`).
-/
import ArithTree.Text.Parts
import Mathlib.Data.List.TakeWhile

namespace ArithTree.Text

/-! ## Without the ends -/

/-- The text is the core between characters with the property, none of which is
at an end of the core itself. -/
structure IsCore (p : Char → Bool) (text core : List Char) : Prop where
  between : ∃ before behind, text = before ++ (core ++ behind) ∧
    (∀ c ∈ before, p c = true) ∧ ∀ c ∈ behind, p c = true
  head : ∀ c ∈ core.head?, p c = false
  last : ∀ c ∈ core.getLast?, p c = false

section Strip
variable {p : Char → Bool} {text core : List Char}

theorem exists_stripEnd_append (p : Char → Bool) (text : List Char) :
    ∃ behind, text = stripEnd p text ++ behind ∧ ∀ c ∈ behind, p c = true := by
  refine ⟨(text.reverse.takeWhile p).reverse, ?_, ?_⟩
  · rw [stripEnd, ← List.reverse_append, List.takeWhile_append_dropWhile, List.reverse_reverse]
  · intro c hc
    exact List.mem_takeWhile_imp (List.mem_reverse.mp hc)

theorem last_stripEnd {c : Char} (hc : c ∈ (stripEnd p text).getLast?) : p c = false := by
  rw [stripEnd, List.getLast?_reverse] at hc
  have hnot := List.head?_dropWhile_not p text.reverse
  rw [hc] at hnot
  simpa using hnot

theorem isCore_strip (p : Char → Bool) (text : List Char) : IsCore p text (strip p text) := by
  obtain ⟨behind, hbehind, hall⟩ := exists_stripEnd_append p (text.dropWhile p)
  refine ⟨⟨text.takeWhile p, behind, ?_, fun c => List.mem_takeWhile_imp, hall⟩, ?_,
    fun c => last_stripEnd⟩
  · rw [strip, ← hbehind, List.takeWhile_append_dropWhile]
  · intro c hc
    -- the core begins with what is left of the text behind its first characters
    have hhead : (text.dropWhile p).head? = some c := by
      have hc : (stripEnd p (text.dropWhile p)).head? = some c := hc
      rw [hbehind, List.head?_append, hc, Option.some_or]
    have hnot := List.head?_dropWhile_not p text
    rw [hhead] at hnot
    simpa using hnot

theorem IsCore.strip_eq (h : IsCore p text core) : strip p text = core := by
  obtain ⟨⟨before, behind, rfl, hbefore, hbehind⟩, hhead, hlast⟩ := h
  rw [strip, List.dropWhile_append_of_pos hbefore]
  cases core with
  | nil => rw [List.nil_append, List.dropWhile_eq_nil_iff.mpr hbehind]; rfl
  | cons c rest =>
      have hc : ¬ p c = true := by simp [hhead c rfl]
      rw [List.cons_append, List.dropWhile_cons_of_neg hc, ← List.cons_append]
      exact stripEnd_append hbehind hlast

theorem strip_eq_iff : strip p text = core ↔ IsCore p text core := by
  constructor
  · rintro rfl
    exact isCore_strip p text
  · exact IsCore.strip_eq

theorem strip_self (hhead : ∀ c ∈ text.head?, p c = false)
    (hlast : ∀ c ∈ text.getLast?, p c = false) : strip p text = text :=
  IsCore.strip_eq ⟨⟨[], [], by simp, by simp, by simp⟩, hhead, hlast⟩

end Strip

/-! ## Cutting -/

/-- The text consists of the lines, one after the other. -/
inductive CutInto : List Char → List (List Char) → Prop
  | nil : CutInto [] []
  | last {line : List Char} : line ≠ [] → '\n' ∉ line → CutInto line [line]
  | feed {line rest : List Char} {lines : List (List Char)} : '\n' ∉ line →
      line.getLast? ≠ some '\r' → CutInto rest lines →
      CutInto (line ++ '\n' :: rest) (line :: lines)
  | returnFeed {line rest : List Char} {lines : List (List Char)} : '\n' ∉ line →
      CutInto rest lines → CutInto (line ++ '\r' :: '\n' :: rest) (line :: lines)

theorem linesOf_cons {c : Char} {rest : List Char} (hc : c ≠ '\n')
    (hreturn : c = '\r' → rest.head? ≠ some '\n') :
    linesOf (c :: rest) = match linesOf rest with
      | [] => [[c]]
      | line :: lines => (c :: line) :: lines := by
  have hends : ∀ rest', c = '\r' → rest = '\n' :: rest' → False := by
    rintro rest' rfl rfl
    exact hreturn rfl rfl
  exact linesOf.eq_4 c rest hc hends

/-- What stands before the end of a line is that line. -/
theorem linesOf_append {line rest : List Char} {lines : List (List Char)}
    (hrest : linesOf rest = [] :: lines) (hline : '\n' ∉ line)
    (hlast : rest.head? = some '\n' → line.getLast? ≠ some '\r') :
    linesOf (line ++ rest) = line :: lines := by
  induction line with
  | nil => exact hrest
  | cons c line ih =>
      obtain ⟨hc, hline⟩ := not_or.mp (mt List.mem_cons.mpr hline)
      cases line with
      | nil =>
          rw [List.singleton_append, linesOf_cons (Ne.symm hc), hrest]
          rintro rfl h
          exact hlast h rfl
      | cons d line =>
          have hd : d ≠ '\n' := fun h => hline (h ▸ List.mem_cons_self)
          have ih := ih hline (by simpa using hlast)
          rw [List.cons_append, linesOf_cons (Ne.symm hc), ih]
          intro _ h
          exact hd (Option.some.inj h)

theorem linesOf_last {line : List Char} (hne : line ≠ []) (hline : '\n' ∉ line) :
    linesOf line = [line] := by
  induction line with
  | nil => exact absurd rfl hne
  | cons c line ih =>
      obtain ⟨hc, hline⟩ := not_or.mp (mt List.mem_cons.mpr hline)
      have hhead : c = '\r' → line.head? ≠ some '\n' := by
        intro _ h
        exact hline (List.mem_of_head? h)
      rw [linesOf_cons (Ne.symm hc) hhead]
      cases line with
      | nil => rfl
      | cons d line => rw [ih (List.cons_ne_nil d line) hline]

theorem linesOf_of_cutInto {text : List Char} {lines : List (List Char)} (h : CutInto text lines) :
    linesOf text = lines := by
  induction h with
  | nil => rfl
  | last hne hline => exact linesOf_last hne hline
  | @feed line rest lines hline hlast _ ih =>
      have hrest : linesOf ('\n' :: rest) = [] :: lines := by simp [linesOf, ih]
      exact linesOf_append hrest hline fun _ => hlast
  | @returnFeed line rest lines hline _ ih =>
      have hrest : linesOf ('\r' :: '\n' :: rest) = [] :: lines := by simp [linesOf, ih]
      exact linesOf_append hrest hline fun h => absurd (Option.some.inj h) (by decide)

theorem CutInto.cons {c : Char} {rest line : List Char} {lines : List (List Char)}
    (hc : c ≠ '\n') (hreturn : c = '\r' → rest.head? ≠ some '\n')
    (h : CutInto rest (line :: lines)) : CutInto (c :: rest) ((c :: line) :: lines) := by
  have hmem : '\n' ∉ line → '\n' ∉ c :: line := by
    intro hline
    exact List.not_mem_cons_of_ne_of_not_mem hc.symm hline
  cases h with
  | last hne hline => exact .last (List.cons_ne_nil c _) (hmem hline)
  | @feed _ rest _ hline hlast hrest =>
      refine .feed (hmem hline) ?_ hrest
      cases line with
      | nil =>
          intro h
          exact hreturn (Option.some.inj h) rfl
      | cons d line => exact hlast
  | returnFeed hline hrest => exact .returnFeed (hmem hline) hrest

theorem cutInto_linesOf (text : List Char) : CutInto text (linesOf text) := by
  fun_induction linesOf text with
  | case1 => exact .nil
  | case2 rest ih => exact .feed List.not_mem_nil (by simp) ih
  | case3 rest ih => exact .returnFeed List.not_mem_nil ih
  | case4 c rest hc hreturn hnil ih =>
      rw [hnil] at ih
      cases ih
      exact .last (List.cons_ne_nil c _) (by simpa using Ne.symm hc)
  | case5 c rest hc hreturn line lines hlines ih =>
      rw [hlines] at ih
      refine ih.cons hc ?_
      intro h hhead
      obtain ⟨rest', hrest⟩ := List.head?_eq_some_iff.mp hhead
      exact hreturn rest' h hrest

theorem linesOf_eq_iff {text : List Char} {lines : List (List Char)} :
    linesOf text = lines ↔ CutInto text lines := by
  constructor
  · rintro rfl
    exact cutInto_linesOf text
  · exact linesOf_of_cutInto

theorem lines_eq_iff {text : String} {cut : List String} :
    lines text = cut ↔ CutInto text.toList (cut.map String.toList) := by
  rw [← linesOf_eq_iff, lines]
  constructor
  · rintro rfl
    simp [Function.comp_def]
  · intro h
    simp [h, Function.comp_def]

/-! ## The two ends of a line -/

/-- The text with a carriage return put before every line feed. -/
def withReturns (text : List Char) : List Char :=
  text.flatMap fun c => if c = '\n' then ['\r', '\n'] else [c]

theorem linesOf_withReturns {text : List Char} (h : '\r' ∉ text) :
    linesOf (withReturns text) = linesOf text := by
  induction text with
  | nil => rfl
  | cons c rest ih =>
      obtain ⟨hc, hrest⟩ := not_or.mp (mt List.mem_cons.mpr h)
      by_cases hfeed : c = '\n'
      · subst hfeed
        show linesOf ('\r' :: '\n' :: withReturns rest) = _
        rw [linesOf, linesOf, ih hrest]
      · have hcons : withReturns (c :: rest) = c :: withReturns rest := by
          simp [withReturns, hfeed]
        have hreturn : c ≠ '\r' := Ne.symm hc
        rw [hcons, linesOf_cons hfeed fun h => absurd h hreturn,
          linesOf_cons hfeed fun h => absurd h hreturn, ih hrest]

theorem lines_withReturns {text : String} (h : '\r' ∉ text.toList) :
    lines (String.ofList (withReturns text.toList)) = lines text := by
  rw [lines, String.toList_ofList, linesOf_withReturns h, lines]

/-! ## Blank lines -/

theorem strip_eq_nil_iff {p : Char → Bool} {text : List Char} :
    strip p text = [] ↔ ∀ c ∈ text, p c = true := by
  rw [strip, stripEnd, List.reverse_eq_nil_iff, List.dropWhile_eq_nil_iff]
  constructor
  · intro h
    -- what is left begins with a character without the property, so nothing is left
    cases hleft : text.dropWhile p with
    | nil => exact List.dropWhile_eq_nil_iff.mp hleft
    | cons c rest =>
        have hc : p c = true := h c (by simp [hleft])
        have hhead := List.head?_dropWhile_not p text
        simp [hleft, hc] at hhead
  · intro h c hc
    exact h c ((List.dropWhile_sublist p).subset (List.mem_reverse.mp hc))

theorem isBlankText_iff {text : String} : isBlankText text = true ↔ trim text = "" := by
  rw [isBlankText, List.all_eq_true, ← strip_eq_nil_iff, trim, ← String.toList_eq_nil_iff,
    String.toList_ofList]

end ArithTree.Text
