/-
# Verbosity

The option `--verbose` in front of any arguments puts lines of the log among
the complaints of a run and does nothing else: code and output stay the same,
whatever the run comes to, and so does what it reads (`Command.run_verbose`).

The arguments behind the option are read as without it (`interpret_verbose` of
both commands), so the two runs differ in one setting.  Each part of the work is
then compared with itself under that setting: `WithLog` is what may tell the two
apart, and it is kept by everything of which an outcome is made.
-/
import ArithTree.Cli.Command
import ArithTree.Proofs.Cli.File

namespace ArithTree.Cli

/-- Taking a first step and then one of two others, which differ by a renaming. -/
theorem bind_eq_map_bind {ε α β γ : Type} {first : Except ε α} {rename : β → γ}
    {next : α → Except ε β} {next' : α → Except ε γ}
    (h : ∀ a, next' a = (next a).map rename) :
    first.bind next' = (first.bind next).map rename := by
  cases first with
  | error e => rfl
  | ok a => exact h a

/-! ## Lines of the log -/

/-- The second output is the first one with lines of the log put in. -/
inductive WithLog : List Piece → List Piece → Prop
  | nil : WithLog [] []
  | cons (piece : Piece) {quiet loud : List Piece} :
      WithLog quiet loud → WithLog (piece :: quiet) (piece :: loud)
  | logged (event : Event) {quiet loud : List Piece} :
      WithLog quiet loud → WithLog quiet (logLine event ++ loud)

namespace WithLog

theorem refl (pieces : List Piece) : WithLog pieces pieces := by
  induction pieces with
  | nil => exact .nil
  | cons piece _ ih => exact .cons piece ih

theorem append {quiet loud quiet' loud' : List Piece} (h : WithLog quiet loud)
    (h' : WithLog quiet' loud') : WithLog (quiet ++ quiet') (loud ++ loud') := by
  induction h with
  | nil => exact h'
  | cons piece _ ih => exact .cons piece ih
  | logged event _ ih =>
      rw [List.append_assoc]
      exact .logged event ih

theorem flatMap {α : Type} {quiet loud : α → List Piece} (h : ∀ a, WithLog (quiet a) (loud a)) :
    ∀ as : List α, WithLog (as.flatMap quiet) (as.flatMap loud)
  | [] => .nil
  | a :: as => (h a).append (flatMap h as)

theorem log (verbose : Bool) (events : List Event) :
    WithLog (log verbose events) (log true events) := by
  cases verbose with
  | true => exact refl _
  | false =>
      show WithLog [] (events.flatMap logLine)
      induction events with
      | nil => exact .nil
      | cons event _ ih => exact .logged event ih

end WithLog

/-- The second outcome is the first one with lines of the log put in where it
complains. -/
structure Outcome.Louder (quiet loud : Outcome) : Prop where
  code_eq : loud.code = quiet.code
  output_eq : loud.output = quiet.output
  errors : WithLog quiet.errors loud.errors

theorem Outcome.Louder.refl (outcome : Outcome) : outcome.Louder outcome :=
  ⟨rfl, rfl, .refl _⟩

/-! ## Lines of the output

The time of day is written in the log and nowhere else. -/

theorem moment_not_mem_line (s : String) : Piece.moment ∉ line s := by
  simp [line]

theorem moment_not_mem_lines (ss : List String) : Piece.moment ∉ lines ss := by
  simp [lines, moment_not_mem_line]

/-! ## Showing an expression -/

namespace Display

def Settings.verbosely (settings : Settings) : Settings :=
  { settings with verbose := true }

def Request.verbosely : Request → Request
  | .version => .version
  | .help => .help
  | .compile settings expression => .compile settings.verbosely expression

theorem interpret_verbosely : ∀ (arguments : List String) (settings : Settings)
    (words : List String), interpret settings.verbosely words arguments =
      (interpret settings words arguments).map Request.verbosely
  | [], _, _ => rfl
  | argument :: rest, settings, words => by
      have ih := interpret_verbosely rest
      rw [interpret.eq_def, interpret.eq_def settings]
      dsimp only
      cases Argument.of argument with
      | version | help | onlyWords | unknown => rfl
      | json => exact ih { settings with json := true } words
      | verbose => exact ih { settings with verbose := true } words
      | word => exact ih settings (words ++ [argument])
      | origin =>
          cases rest with
          | nil => rfl
          | cons value rest =>
              refine bind_eq_map_bind fun place => ?_
              exact interpret_verbosely rest (settings.withPlace place.1 place.2) words
      | offset =>
          cases rest with
          | nil => rfl
          | cons value rest =>
              refine bind_eq_map_bind fun x => ?_
              exact interpret_verbosely rest (settings.withOffset x) words
      | levelStep =>
          cases rest with
          | nil => rfl
          | cons value rest =>
              refine bind_eq_map_bind fun x => ?_
              exact interpret_verbosely rest (settings.withLevelStep x) words

theorem interpret_verbose (arguments : List String) :
    interpret {} [] ("--verbose" :: arguments) =
      (interpret {} [] arguments).map Request.verbosely :=
  (interpret_sets .verbose {} [] arguments).trans (interpret_verbosely arguments {} [])

theorem compileText_louder (settings : Settings) (source origin : String) :
    (compileText settings source origin).Louder
      (compileText settings.verbosely source origin) := by
  have hlog := WithLog.log settings.verbose (Event.ofCompile settings.layout source)
  cases hcompile : compile settings.layout source with
  | ok c =>
      have hloud : compile settings.verbosely.layout source = .ok c := hcompile
      simp only [compileText, hcompile, hloud]
      exact ⟨rfl, rfl, hlog⟩
  | error e =>
      have hloud : compile settings.verbosely.layout source = .error e := hcompile
      simp only [compileText, hcompile, hloud]
      exact ⟨rfl, rfl, hlog.append (.refl _)⟩

theorem compileInput_louder (settings : Settings) (surroundings : Surroundings) :
    (compileInput settings surroundings).Louder
      (compileInput settings.verbosely surroundings) := by
  cases hread : surroundings.inputText with
  | ok text =>
      simp only [compileInput, hread]
      exact compileText_louder settings _ _
  | error e =>
      simp only [compileInput, hread]
      exact .refl _

theorem run_louder (arguments : List String) (surroundings : Surroundings) :
    (run arguments surroundings).Louder (run ("--verbose" :: arguments) surroundings) := by
  unfold run
  rw [interpret_verbose]
  cases interpret {} [] arguments with
  | error e => exact .refl _
  | ok request =>
      match request with
      | .version | .help => exact .refl _
      | .compile settings (some expression) => exact compileText_louder settings expression _
      | .compile settings none => exact compileInput_louder settings surroundings

theorem moment_not_mem_compileText (settings : Settings) (source origin : String) :
    Piece.moment ∉ (compileText settings source origin).output := by
  unfold compileText
  split
  · simp only [shown]
    split
    · exact moment_not_mem_line _
    · exact moment_not_mem_lines _
  · exact List.not_mem_nil

theorem moment_not_mem_output (arguments : List String) (surroundings : Surroundings) :
    Piece.moment ∉ (run arguments surroundings).output := by
  unfold run
  cases interpret {} [] arguments with
  | error e => exact moment_not_mem_lines usage
  | ok request =>
      match request with
      | .version => exact moment_not_mem_lines [banner]
      | .help => exact moment_not_mem_lines usage
      | .compile settings (some expression) => exact moment_not_mem_compileText _ _ _
      | .compile settings none =>
          show Piece.moment ∉ (compileInput settings surroundings).output
          unfold compileInput
          split
          · exact moment_not_mem_compileText _ _ _
          · exact List.not_mem_nil

theorem wants_verbose (arguments : List String) :
    Command.display.wants ("--verbose" :: arguments) = Command.display.wants arguments := by
  unfold Command.wants
  rw [interpret_verbose]
  cases interpret {} [] arguments with
  | error e => rfl
  | ok request =>
      match request with
      | .version | .help | .compile _ none | .compile _ (some _) => rfl

end Display

/-! ## Checking expressions -/

namespace Check

def Settings.verbosely (settings : Settings) : Settings :=
  { settings with verbose := true }

def Request.verbosely : Request → Request
  | .version => .version
  | .help => .help
  | .check settings subject => .check settings.verbosely subject

theorem interpret_verbosely : ∀ (arguments : List String) (settings : Settings)
    (subject : Option Subject), interpret settings.verbosely subject arguments =
      (interpret settings subject arguments).map Request.verbosely
  | [], _, none | [], _, some _ => rfl
  | argument :: rest, settings, subject => by
      have ih := interpret_verbosely rest
      rw [interpret.eq_def, interpret.eq_def settings]
      dsimp only
      cases Argument.of argument with
      | version | help | unknown => rfl
      | level level => exact ih { settings with level } subject
      | verbose => exact ih { settings with verbose := true } subject
      | expression => exact bind_eq_map_bind fun found => ih settings (some found)
      | file =>
          cases rest with
          | nil => rfl
          | cons path rest =>
              refine bind_eq_map_bind fun found => ?_
              exact interpret_verbosely rest settings (some found)

theorem interpret_verbose (arguments : List String) :
    interpret {} none ("--verbose" :: arguments) =
      (interpret {} none arguments).map Request.verbosely := by
  have hargument : Argument.of "--verbose" = .verbose := rfl
  rw [← interpret_verbosely, interpret.eq_def]
  simp only [hargument]
  rfl

theorem errors_withLog (verbose : Bool) (entry : Entry) (found : Inspection) :
    WithLog (entry.errors verbose found) (entry.errors true found) :=
  (WithLog.log verbose found.events).append (.refl _)

theorem checkEntries_louder (settings : Settings) (entries : List Entry) :
    (checkEntries settings entries).Louder (checkEntries settings.verbosely entries) := by
  rw [checkEntries_eq, checkEntries_eq]
  refine ⟨rfl, rfl, ?_⟩
  exact .flatMap (fun entry => errors_withLog settings.verbose entry _) entries

theorem checkFile_louder (settings : Settings) (path : String) (surroundings : Surroundings) :
    (checkFile settings path surroundings).Louder
      (checkFile settings.verbosely path surroundings) := by
  unfold checkFile
  cases surroundings.fileText path with
  | ok content => exact checkEntries_louder settings _
  | error e => exact .refl _

theorem run_louder (arguments : List String) (surroundings : Surroundings) :
    (run arguments surroundings).Louder (run ("--verbose" :: arguments) surroundings) := by
  unfold run
  rw [interpret_verbose]
  cases interpret {} none arguments with
  | error e => exact .refl _
  | ok request =>
      match request with
      | .version | .help => exact .refl _
      | .check settings (.expression source) => exact checkEntries_louder settings _
      | .check settings (.file path) => exact checkFile_louder settings path surroundings

theorem moment_not_mem_header (level : Level) : Piece.moment ∉ header level :=
  moment_not_mem_lines _

theorem moment_not_mem_checkEntries (settings : Settings) (entries : List Entry) :
    Piece.moment ∉ (checkEntries settings entries).output := by
  rw [checkEntries_eq]
  simp [moment_not_mem_header, Entry.output, summary, moment_not_mem_line, moment_not_mem_lines]

theorem moment_not_mem_output (arguments : List String) (surroundings : Surroundings) :
    Piece.moment ∉ (run arguments surroundings).output := by
  unfold run
  cases interpret {} none arguments with
  | error e => exact moment_not_mem_lines usage
  | ok request =>
      match request with
      | .version => exact moment_not_mem_lines [banner]
      | .help => exact moment_not_mem_lines usage
      | .check settings (.expression source) => exact moment_not_mem_checkEntries _ _
      | .check settings (.file path) =>
          show Piece.moment ∉ (checkFile settings path surroundings).output
          unfold checkFile
          split
          · exact moment_not_mem_checkEntries _ _
          · exact moment_not_mem_header _

theorem wants_verbose (arguments : List String) :
    Command.check.wants ("--verbose" :: arguments) = Command.check.wants arguments := by
  unfold Command.wants
  rw [interpret_verbose]
  cases interpret {} none arguments with
  | error e => rfl
  | ok request =>
      match request with
      | .version | .help | .check _ (.expression _) | .check _ (.file _) => rfl

end Check

/-! ## Both commands -/

/-- Whatever a command is asked and whatever there is to read, the option in
front changes neither the code nor the output, in which no time of day is
written; the same is read, and lines of the log are all that is added to the
complaints. -/
theorem Command.run_verbose (command : Command) (arguments : List String)
    (surroundings : Surroundings) :
    let quiet := command.run arguments surroundings
    let loud := command.run ("--verbose" :: arguments) surroundings
    loud.code = quiet.code ∧ loud.output = quiet.output ∧ Piece.moment ∉ loud.output ∧
      WithLog quiet.errors loud.errors ∧
      command.wants ("--verbose" :: arguments) = command.wants arguments := by
  intro quiet loud
  cases command with
  | display =>
      obtain ⟨hcode, houtput, herrors⟩ := Display.run_louder arguments surroundings
      exact ⟨hcode, houtput, Display.moment_not_mem_output _ _, herrors,
        Display.wants_verbose arguments⟩
  | check =>
      obtain ⟨hcode, houtput, herrors⟩ := Check.run_louder arguments surroundings
      exact ⟨hcode, houtput, Check.moment_not_mem_output _ _, herrors,
        Check.wants_verbose arguments⟩

end ArithTree.Cli
