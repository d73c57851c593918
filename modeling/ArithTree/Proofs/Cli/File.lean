/-
# Checking a file

A file is checked line by line.  What is said about a line depends on the line
and its number alone, and the blank lines count for the numbers but are passed
over (`run_file`).

The entries are gone through by a recursion that carries the number of faults
so far; `checkFrom_eq` says what it comes to: the outputs of the entries one
after the other, and the count of those with a fault.  Everything else is about
which entries there are, which are the lines of `CutInto` that hold something.
-/
import ArithTree.Proofs.Cli.Arguments
import ArithTree.Proofs.Text

namespace ArithTree.Cli.Check

/-! ## Entry by entry -/

/-- A check of the text finds a fault. -/
def Level.refuses (level : Level) (text : String) : Bool :=
  (inspect level text).error.isSome

theorem checkFrom_eq (settings : Settings) (total failures : Nat) (entries : List Entry) :
    let failed := failures + entries.countP fun entry => settings.level.refuses entry.source
    checkFrom settings total failures entries =
      { code := if failed = 0 then success else failure
        output := entries.flatMap (fun entry =>
            entry.output (inspect settings.level entry.source)) ++ summary failed total
        errors := entries.flatMap fun entry =>
          entry.errors settings.verbose (inspect settings.level entry.source) } := by
  induction entries generalizing failures with
  | nil => intro failed; rfl
  | cons entry entries ih =>
      intro failed
      -- the fault of the entry is counted with those before it, or with those behind
      have hfailed : (if settings.level.refuses entry.source then failures + 1 else failures) +
          entries.countP (fun entry => settings.level.refuses entry.source) = failed := by
        simp only [failed, List.countP_cons]
        split <;> omega
      have hrest := ih (if settings.level.refuses entry.source then failures + 1 else failures)
      simp only [hfailed] at hrest
      rw [checkFrom, ← Level.refuses, hrest]
      simp [List.append_assoc]

theorem checkEntries_eq (settings : Settings) (entries : List Entry) :
    let failed := entries.countP fun entry => settings.level.refuses entry.source
    checkEntries settings entries =
      { code := if failed = 0 then success else failure
        output := header settings.level ++ (entries.flatMap (fun entry =>
            entry.output (inspect settings.level entry.source)) ++ summary failed entries.length)
        errors := entries.flatMap fun entry =>
          entry.errors settings.verbose (inspect settings.level entry.source) } := by
  intro failed
  have hchecked := checkFrom_eq settings entries.length 0 entries
  simp only [Nat.zero_add] at hchecked
  rw [checkEntries, hchecked]

/-! ## Line by line -/

/-- The lines that hold more than blanks, with their numbers among all lines. -/
def numberedExpressions (cut : List String) : List (String × Nat) :=
  (cut.zipIdx 1).filter fun (text, _) => Text.trim text ≠ ""

theorem entriesOfFile_eq (path content : String) :
    entriesOfFile path content = (numberedExpressions (Text.lines content)).map
      fun (text, n) => ⟨path ++ ":" ++ toString n, text⟩ := by
  have hblank : ∀ text, (!Text.isBlankText text) = decide (Text.trim text ≠ "") := by
    intro text
    rw [Bool.eq_iff_iff, Bool.not_eq_true', ← Bool.not_eq_true, decide_eq_true_eq,
      Text.isBlankText_iff]
  simp only [entriesOfFile, Text.numberedLines, numberedExpressions, List.filter_map, List.map_map,
    Function.comp_def, hblank]
  rfl

/-! ## The whole file -/

theorem run_file_arguments (level : Level) (path : String) {content : String}
    {surroundings : Surroundings} (hfile : surroundings.file path = .ok content.toUTF8) :
    run (level.arguments ++ ["-f", path]) surroundings =
      checkEntries { level } (entriesOfFile path content) := by
  have hread : interpret {} none (level.arguments ++ ["-f", path]) =
      .ok (.check { level } (.file path)) := by
    rw [interpret_level, interpret_file]
  have htext : surroundings.fileText path = .ok content := by
    rw [Surroundings.fileText, hfile]
    exact decodeText_toUTF8 content
  simp only [run, hread, checkFile, htext]

/-- The lines of a file that hold more than blanks are checked one after the
other, each under its number and as if it were the only one; the summary counts
them and those with a fault, and the code is zero if there is none of these.
A carriage return before every line feed makes no difference. -/
theorem run_file (level : Level) (path : String) {content : String} {surroundings : Surroundings}
    (hfile : surroundings.file path = .ok content.toUTF8) :
    let arguments := level.arguments ++ ["-f", path]
    let checked := run arguments surroundings
    (∃ cut : List String, Text.CutInto content.toList (cut.map String.toList) ∧
      let numbered := numberedExpressions cut
      let failures := numbered.countP fun (text, _) => level.refuses text
      let total := numbered.length
      checked.output =
        [.text "exprtree-check v0.1.0\n", .text ("检查级别: " ++ level.description ++ "\n"),
          .text "\n"]
        ++ (numbered.flatMap fun (text, n) =>
          .text (path ++ ":" ++ toString n ++ ": " ++ text ++ "\n") ::
            ((inspect level text).lines.map fun said => .text (said ++ "\n")) ++ [.text "\n"])
        ++ [.text (if failures = 0 then
              "[+] 检查完成! " ++ toString total ++ " 个表达式全部通过 (耗时: "
            else "[-] 检查完成: " ++ toString failures ++ "/" ++ toString total ++
              " 个表达式未通过 (耗时: "),
          .elapsed, .text ")\n"] ∧
      checked.errors = (numbered.flatMap fun (text, n) =>
        match (inspect level text).error with
        | some e => [.text ("error[" ++ e.stage ++ "]: " ++ e.message ++ "\n" ++
            ("  --> " ++ (path ++ ":" ++ toString n) ++
              (e.column?.elim "" fun column => ":" ++ toString column) ++ "\n") ++
            ("   |\n" ++ "   | " ++ text ++ "\n" ++ (e.column?.elim "" fun column =>
              "   | " ++ String.ofList (List.replicate (column - 1) ' ') ++ "^\n")))]
        | none => []) ∧
      checked.code = (if failures = 0 then 0 else 1) ∧
      (checked.code = 0 ↔ ∀ text n, (text, n) ∈ numbered → (inspect level text).error = none)) ∧
    ('\r' ∉ content.toList → ∀ there : Surroundings,
      there.file path = .ok (String.ofList (Text.withReturns content.toList)).toUTF8 →
      run arguments there = checked) := by
  intro arguments checked
  have hchecked : checked = checkEntries { level } (entriesOfFile path content) :=
    run_file_arguments level path hfile
  refine ⟨⟨Text.lines content, Text.lines_eq_iff.mp rfl, ?_⟩, ?_⟩
  · intro numbered failures total
    have hentries : checked = _ := hchecked.trans (checkEntries_eq _ _)
    simp only [entriesOfFile_eq, List.flatMap_map, List.countP_map, List.length_map,
      Function.comp_def, Entry.output_eq, header_eq, summary_eq] at hentries
    have hzero : (if failures = 0 then success else failure) = 0 ↔ failures = 0 := by
      simp [success, failure]
    rw [hentries]
    refine ⟨(List.append_assoc _ _ _).symm, ?_, rfl, ?_⟩
    · simp only [Entry.errors, CompileError.diagnostic_eq]
      rfl
    · refine hzero.trans ?_
      simp [failures, List.countP_eq_zero, Level.refuses]
  · intro hreturn there hthere
    rw [hchecked, run_file_arguments level path hthere, entriesOfFile_eq, entriesOfFile_eq,
      Text.lines_withReturns hreturn]

/-- Three lines, of which one is blank and keeps its number, and one has a fault:
one of two expressions. -/
theorem run_file_with_blank_line :
    let here : Surroundings := ⟨.empty, fun _ => .ok "a+b\n \n(c\n".toUTF8⟩
    let there : Surroundings := ⟨.empty, fun _ => .ok "a+b\r\n \r\n(c\r\n".toUTF8⟩
    let arguments := ["--parse-only", "-f", "f"]
    here.file "f" = .ok "a+b\n \n(c\n".toUTF8 ∧
      (run arguments here).code = 1 ∧
      (run arguments here).output =
        [.text "exprtree-check v0.1.0\n", .text "检查级别: 语法分析\n", .text "\n",
         .text "f:1: a+b\n",
         .text "  [1] 字符校验...\n", .text "      [+] 通过\n",
         .text "  [2] 词法分析...\n", .text "      [+] 通过，发现 3 个 token\n",
         .text "  [3] 语法分析...\n", .text "      [+] 通过，后缀式: a b +\n",
         .text "          2 个操作数，1 个运算符，深度 2\n", .text "\n",
         .text "f:3: (c\n",
         .text "  [1] 字符校验...\n", .text "      [+] 通过\n",
         .text "  [2] 词法分析...\n", .text "      [+] 通过，发现 2 个 token\n",
         .text "  [3] 语法分析...\n", .text "\n",
         .text "[-] 检查完成: 1/2 个表达式未通过 (耗时: ", .elapsed, .text ")\n"] ∧
      (run arguments here).errors =
        [.text ("error[conversion]: Unbalanced parentheses: '(' is never closed (token #0)\n" ++
          "  --> f:3\n" ++ "   |\n" ++ "   | (c\n")] ∧
      run arguments there = run arguments here := by
  intro here there arguments
  have hfile : here.file "f" = .ok "a+b\n \n(c\n".toUTF8 := rfl
  have hreturns : there.file "f" =
      .ok (String.ofList (Text.withReturns "a+b\n \n(c\n".toList)).toUTF8 := rfl
  obtain ⟨⟨cut, hcut, houtput, herrors, hcode, _⟩, hsame⟩ := run_file .parseOnly "f" hfile
  obtain rfl := Text.lines_eq_iff.mpr hcut
  have hnumbered : numberedExpressions (Text.lines "a+b\n \n(c\n") = [("a+b", 1), ("(c", 3)] := by
    decide
  refine ⟨hfile, hcode.trans ?_, houtput.trans ?_, herrors.trans ?_, hsame (by decide) there hreturns⟩
  · rw [hnumbered]
    rfl
  · rw [hnumbered]
    decide +kernel
  · rw [hnumbered]
    decide +kernel

end ArithTree.Cli.Check
