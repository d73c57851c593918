/-
# An expression in the arguments or on the standard input

The command gets its text in two ways: as words among the arguments, or, if
there are none, from the standard input without the line ends behind it.  It
does the same with the text either way and names its origin in diagnostics only
(`run_words_or_input`).

Both runs come down to `compileText`: `run_words` reads the options and then the
words behind the marker, and `run_input` the options and then the input, where
what `stripEnd` takes off is exactly what stands behind the text.
-/
import ArithTree.Proofs.Cli.Arguments
import ArithTree.Proofs.Compile

namespace ArithTree

namespace Cli.Display

/-- The two outputs end with the diagnostic of the error, of which one line says
`<args>` here and `<stdin>` there.  They are the same in everything else. -/
def DifferInPlace (e : CompileError) (text : String) (errors errors' : List Piece) : Prop :=
  let column := e.column?.elim "" fun column => ":" ++ toString column
  let above := "error[" ++ e.stage ++ "]: " ++ e.message ++ "\n"
  let below := "   |\n" ++ "   | " ++ text ++ "\n" ++ (e.column?.elim "" fun column =>
    "   | " ++ String.ofList (List.replicate (column - 1) ' ') ++ "^\n")
  ∃ events : List Piece,
    errors = events ++ [.text (above ++ ("  --> " ++ "<args>" ++ column ++ "\n") ++ below)] ∧
    errors' = events ++ [.text (above ++ ("  --> " ++ "<stdin>" ++ column ++ "\n") ++ below)]

/-! ## One text from two origins -/

section Compile
variable {layout : Layout.Options Float} {text : String} (settings : Settings)

theorem compileText_of_ok {c : Compilation Float} (h : compile layout text = .ok c) :
    ∃ output errors, ∀ origin, compileText settings text origin = ⟨success, output, errors⟩ := by
  obtain ⟨c', hc'⟩ := (exists_compile_iff settings.layout text).mpr
    ((exists_compile_iff layout text).mp ⟨c, h⟩)
  refine ⟨shown settings text c', log settings.verbose (Event.ofCompile settings.layout text), ?_⟩
  intro origin
  simp [compileText, hc']

theorem compileText_of_error {e : CompileError} (h : compile layout text = .error e) :
    ∃ events, ∀ origin, compileText settings text origin =
      ⟨failure, [], events ++ [.text (e.diagnostic text origin)]⟩ := by
  have hsettings : compile settings.layout text = .error e :=
    (compile_eq_error_iff _ _).mpr ((compile_eq_error_iff _ _).mp h)
  refine ⟨log settings.verbose (Event.ofCompile settings.layout text), ?_⟩
  intro origin
  simp [compileText, hsettings]

end Compile

/-! ## The two runs -/

section Run
variable {options : List String} {changes : Settings → Settings}

theorem run_words (hoptions : Complete options changes) {words : List String} (hne : words ≠ [])
    (surroundings : Surroundings) :
    run (options ++ "--" :: words) surroundings =
      compileText (changes {}) (" ".intercalate words) "<args>" := by
  have hread : interpret {} [] (options ++ "--" :: words) =
      .ok (.compile (changes {}) (some (" ".intercalate words))) := by
    rw [interpret_complete hoptions, interpret_onlyWords]
    simp [expressionOf, hne]
  simp only [run, hread]

theorem run_input (hoptions : Complete options changes) {text ending : String}
    (hending : ∀ c ∈ ending.toList, c = '\r' ∨ c = '\n')
    (hlast : ∀ c ∈ text.toList.getLast?, c ≠ '\r' ∧ c ≠ '\n')
    {surroundings : Surroundings} (hinput : surroundings.input = (text ++ ending).toUTF8) :
    run options surroundings = compileText (changes {}) text "<stdin>" := by
  have hread : interpret {} [] options = .ok (.compile (changes {}) none) := by
    have := interpret_complete hoptions {} [] []
    rwa [List.append_nil] at this
  have htext : surroundings.inputText = .ok (text ++ ending) := by
    rw [Surroundings.inputText, hinput, decodeText_toUTF8]
  have hstrip : withoutLineEnd (text ++ ending) = text := by
    rw [withoutLineEnd, String.toList_append, Text.stripEnd_append, String.ofList_toList]
    · simpa using hending
    · simpa using hlast
  simp only [run, hread, compileInput, htext, hstrip]

/-- Words behind the marker and the same text on the standard input, with any
line ends behind it, come to the same code and the same output, and the place in
a diagnostic is all that tells them apart. -/
theorem run_words_or_input (hoptions : Complete options changes) {words : List String}
    (hne : words ≠ [])
    (hlast : ∀ c ∈ (" ".intercalate words).toList.getLast?, c ≠ '\r' ∧ c ≠ '\n')
    {ending : String} (hending : ∀ c ∈ ending.toList, c = '\r' ∨ c = '\n')
    (here : Surroundings) {there : Surroundings}
    (hinput : there.input = (" ".intercalate words ++ ending).toUTF8)
    (layout : Layout.Options Float) :
    let text := " ".intercalate words
    let given := run (options ++ "--" :: words) here
    let read := run options there
    given.code = read.code ∧ given.output = read.output ∧
    (∀ c, compile layout text = .ok c → given.errors = read.errors) ∧
    (∀ e, compile layout text = .error e →
      DifferInPlace e text given.errors read.errors ∧
      given.code = 1 ∧ given.output = [] ∧ read.code = 1 ∧ read.output = []) := by
  intro text given read
  have hgiven : given = compileText (changes {}) text "<args>" := run_words hoptions hne here
  have hread : read = compileText (changes {}) text "<stdin>" :=
    run_input hoptions hending hlast hinput
  rw [hgiven, hread]
  cases hcompile : compile layout text with
  | ok c =>
      obtain ⟨output, errors, hends⟩ := compileText_of_ok (changes {}) hcompile
      rw [hends, hends]
      exact ⟨rfl, rfl, fun _ _ => rfl, fun _ h => (nomatch h)⟩
  | error e =>
      obtain ⟨events, hends⟩ := compileText_of_error (changes {}) hcompile
      rw [hends, hends, e.diagnostic_eq, e.diagnostic_eq]
      refine ⟨rfl, rfl, fun _ h => (nomatch h), ?_⟩
      rintro _ ⟨⟩
      exact ⟨⟨events, rfl, rfl⟩, rfl, rfl, rfl, rfl⟩

end Run

/-- Three words, one of them empty and one that looks like an option: the text has
a group that nothing closes, so both runs refuse it. -/
theorem unclosed_words_or_input :
    let words := ["(a", "", "--help"]
    let there : Surroundings := ⟨("(a  --help" ++ "\r\n\n").toUTF8, fun _ => .error .missing⟩
    let options := ["--json", "--offset", "5", "--verbose"]
    let above := "error[conversion]: Unbalanced parentheses: '(' is never closed (token #0)\n"
    let below := "   |\n   | (a  --help\n"
    (∃ changes, Complete options changes) ∧ words ≠ [] ∧ " ".intercalate words = "(a  --help" ∧
      (∃ events,
        (run (options ++ "--" :: words) there).errors =
          events ++ [.text (above ++ "  --> <args>\n" ++ below)] ∧
        (run options there).errors = events ++ [.text (above ++ "  --> <stdin>\n" ++ below)]) ∧
      (run options there).code = 1 ∧ (run options there).output = [] := by
  intro words there options above below
  have hoffset : IsNumber "5" 5 := read?_trim_eq_some_iff.mp (by decide +kernel)
  have hoptions : Complete options _ :=
    .cons .json (.cons (.offset hoffset) (.cons .verbose .nil))
  have herror : compile Layout.Options.standard "(a  --help" =
      .error (.unbalancedParentheses .unclosedOpen 0) := rfl
  have hne : words ≠ [] := by decide
  have hjoined : " ".intercalate words = "(a  --help" := rfl
  have hlast : ∀ c ∈ (" ".intercalate words).toList.getLast?, c ≠ '\r' ∧ c ≠ '\n' := by
    rw [hjoined]
    rintro c ⟨⟩
    exact ⟨by decide, by decide⟩
  have hending : ∀ c ∈ "\r\n\n".toList, c = '\r' ∨ c = '\n' := by simp
  have hinput : there.input = (" ".intercalate words ++ "\r\n\n").toUTF8 := rfl
  obtain ⟨_, _, _, hfault⟩ :=
    run_words_or_input hoptions hne hlast hending there hinput Layout.Options.standard
  obtain ⟨⟨events, hgiven, hread⟩, _, _, hcode, houtput⟩ := hfault _ herror
  exact ⟨⟨_, hoptions⟩, hne, hjoined, ⟨events, hgiven, hread⟩, hcode, houtput⟩

end Cli.Display

end ArithTree
