/-
# The caret of a diagnostic

The last line of a diagnostic with a column is the margin, blanks and a caret
(`endsWithLines_diagnostic`).  The caret stands below the character at fault if
the text is one line.  A text of several lines is copied as it is, and only its
first line has the margin before it; the line above the caret is then the last
line of the text, whichever line the fault is in.  `pointsAt_iff` says exactly
when the caret is right all the same.

Lines are told apart by line feeds alone here, so that a carriage return at the
end of a text is a character of its last line.
-/
import ArithTree.Proofs.Compile
import ArithTree.Proofs.Source.Leftmost

namespace ArithTree

/-! ## The last lines of a text -/

/-- Every line of the text is ended by a line feed, and these two are the last. -/
def EndsWithLines (text above below : List Char) : Prop :=
  ∃ front, text.splitOn '\n' = front ++ [above, below, []]

theorem EndsWithLines.unique {text above below above' below' : List Char}
    (h : EndsWithLines text above below) (h' : EndsWithLines text above' below') :
    above = above' ∧ below = below' := by
  obtain ⟨front, hsplit⟩ := h
  obtain ⟨front', hsplit'⟩ := h'
  have hlast := (List.append_inj' (hsplit.symm.trans hsplit') rfl).2
  simpa using hlast

/-- What stands behind the last line feed of a text, or the whole text. -/
def lastLine (text : List Char) : List Char :=
  (text.splitOn '\n').getLastD []

theorem exists_splitOn_append (before text : List Char) (hbefore : '\n' ∉ before) :
    ∃ front, (before ++ text).splitOn '\n' =
      front ++ [if '\n' ∈ text then lastLine text else before ++ text] := by
  by_cases h : '\n' ∈ text
  · -- the text is cut at its last line feed, which is the first one from behind
    obtain ⟨back, front, hrev, hback⟩ := List.eq_append_cons_of_mem (List.mem_reverse.mpr h)
    have htext : text = front.reverse ++ '\n' :: back.reverse := by
      simpa using congrArg List.reverse hrev
    have hback' : back.reverse.splitOn '\n' = [back.reverse] :=
      List.splitOn_eq_singleton (by simpa using hback)
    have hlast : lastLine text = back.reverse := by
      rw [lastLine, htext, List.splitOn_append_cons_self, hback', List.getLastD_concat]
    refine ⟨(before ++ front.reverse).splitOn '\n', ?_⟩
    rw [if_pos h, hlast, htext, ← List.append_assoc, List.splitOn_append_cons_self, hback']
  · refine ⟨[], ?_⟩
    rw [if_neg h]
    exact List.splitOn_eq_singleton (by simp [hbefore, h])

namespace CompileError

/-! ## The last lines of a diagnostic -/

/-- The line under the expression: the five characters of the margin, blanks, a caret. -/
def caretChars (blanks : Nat) : List Char :=
  [' ', ' ', ' ', '|', ' '] ++ List.replicate blanks ' ' ++ ['^']

/-- The line above the caret: the text behind the margin, or the last line of a
text of several lines. -/
def shownLine (source : List Char) : List Char :=
  if '\n' ∈ source then lastLine source else [' ', ' ', ' ', '|', ' '] ++ source

theorem caretChars_injective {m n : Nat} (h : caretChars m = caretChars n) : m = n := by
  have hlength := congrArg List.length h
  simp only [caretChars, List.length_append, List.length_replicate] at hlength
  omega

theorem endsWithLines_diagnostic (column : Nat) (v : Violation) (source origin : String) :
    EndsWithLines ((invalidExpression column v).diagnostic source origin).toList
      (shownLine source.toList) (caretChars (column - 1)) := by
  obtain ⟨before, htext⟩ : ∃ before : List Char,
      ((invalidExpression column v).diagnostic source origin).toList =
        before ++ '\n' :: (([' ', ' ', ' ', '|', ' '] ++ source.toList) ++
          '\n' :: (caretChars (column - 1) ++ '\n' :: [])) := by
    refine ⟨("error[" ++ stage (invalidExpression column v) ++ "]: " ++
      message (invalidExpression column v) ++ "\n" ++
      ("  --> " ++ origin ++ (":" ++ toString column) ++ "\n") ++ "   |").toList, ?_⟩
    rw [diagnostic_eq]
    simp only [column?, Option.elim_some, caretChars, String.toList_append, String.toList_ofList,
      List.append_assoc]
    rfl
  have hfeed : '\n' ∉ caretChars (column - 1) := by
    simp [caretChars]
  obtain ⟨front, hfront⟩ := exists_splitOn_append [' ', ' ', ' ', '|', ' '] source.toList (by decide)
  refine ⟨before.splitOn '\n' ++ front, ?_⟩
  rw [htext, List.splitOn_append_cons_self, List.splitOn_append_cons_self,
    List.splitOn_append_cons_self, hfront, List.splitOn_eq_singleton hfeed, List.splitOn_nil]
  simp [shownLine]

/-! ## What the caret points at -/

/-- The last line is the margin, blanks and a caret, and the character above the
caret is this one. -/
def PointsAt (rendered : String) (c : Char) : Prop :=
  ∃ above blanks, EndsWithLines rendered.toList above (caretChars blanks) ∧
    above[5 + blanks]? = some c

theorem pointsAt_diagnostic_iff {column : Nat} {v : Violation} {source origin : String} {c : Char} :
    PointsAt ((invalidExpression column v).diagnostic source origin) c ↔
      (shownLine source.toList)[5 + (column - 1)]? = some c := by
  have hends := endsWithLines_diagnostic column v source origin
  constructor
  · rintro ⟨above, blanks, hlines, hc⟩
    obtain ⟨rfl, hbelow⟩ := hlines.unique hends
    rwa [caretChars_injective hbelow] at hc
  · intro hc
    exact ⟨_, _, hends, hc⟩

theorem getElem?_shownLine_iff {source : List Char} {i : Nat} {c : Char} (hc : source[i]? = some c) :
    (shownLine source)[5 + i]? = some c ↔
      ('\n' ∈ source → (lastLine source)[5 + i]? = some c) := by
  unfold shownLine
  by_cases h : '\n' ∈ source
  · simp [h]
  · simp [h, Nat.add_comm 5 i, hc]

/-- A text that the check refuses has a character in the column that is named, and
this is the character at fault.  The caret of the diagnostic stands below it
exactly if the text is one line, or if the last line of the text happens to have
the same character where the caret is. -/
theorem pointsAt_iff {α : Type} [Coordinate α] {layout : Layout.Options α} {source : String}
    {column : Nat} {v : Violation}
    (h : compile layout source = .error (.invalidExpression column v)) (origin : String) :
    ∃ c, 1 ≤ column ∧ source.toList[column - 1]? = some c ∧
      Source.FaultAt source.toList (column - 1) v ∧
      EndsWithLines ((invalidExpression column v).diagnostic source origin).toList
        (shownLine source.toList) (caretChars (column - 1)) ∧
      (PointsAt ((invalidExpression column v).diagnostic source origin) c ↔
        ('\n' ∈ source.toList →
          (lastLine source.toList)[5 + (column - 1)]? = some c)) := by
  have hcheck : Source.check source = .error (.invalidExpression column v) :=
    (fate_parse source).invalid_iff.mpr
      ⟨(compile_eq_error_iff layout source).mp h, column, v, rfl⟩
  obtain ⟨_, _, hfound, herror⟩ := Source.check_eq_error_iff.mp hcheck
  cases herror
  obtain ⟨i, _, hfault, rfl⟩ := Source.firstViolation?_eq_some_iff.mp hfound
  have hi : 1 + i - 1 = i := Nat.add_sub_cancel_left 1 i
  have hlt : i < source.toList.length := Source.lt_length_of_faultAt hfault
  have hc : source.toList[i]? = some source.toList[i] := List.getElem?_eq_getElem hlt
  have hends := endsWithLines_diagnostic (1 + i) v source origin
  rw [hi] at hends
  refine ⟨source.toList[i], Nat.le_add_right 1 i, ?_⟩
  rw [hi, pointsAt_diagnostic_iff, hi]
  exact ⟨hc, hfault, hends, getElem?_shownLine_iff hc⟩

/-- The fault is in one line that ends with a carriage return, and the character
at fault has no room in one byte. -/
theorem pointsAt_in_one_line :
    compile Layout.Options.standard "a + é\r" =
      .error (.invalidExpression 5 (.disallowed 'é')) ∧
    PointsAt ((invalidExpression 5 (.disallowed 'é')).diagnostic "a + é\r" "<args>") 'é' := by
  have herror : compile Layout.Options.standard "a + é\r" =
      .error (.invalidExpression 5 (.disallowed 'é')) := rfl
  obtain ⟨c, _, hc, _, _, hpoints⟩ := pointsAt_iff herror "<args>"
  obtain rfl : 'é' = c := Option.some.inj hc
  exact ⟨herror, hpoints.mpr fun h => absurd h (by decide)⟩

/-- The fault is in the first of two lines, so that the second one stands above
the caret. -/
theorem not_pointsAt_above_last_line :
    compile Layout.Options.standard "a$\nb" = .error (.invalidExpression 2 (.disallowed '$')) ∧
    "a$\nb".toList[1]? = some '$' ∧
    ¬ PointsAt ((invalidExpression 2 (.disallowed '$')).diagnostic "a$\nb" "<stdin>") '$' := by
  refine ⟨rfl, rfl, ?_⟩
  rw [pointsAt_diagnostic_iff]
  decide

end CompileError

end ArithTree
