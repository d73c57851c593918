/-
# Arguments

What the two commands take an argument for.  All options but three begin with
two hyphens, so an argument that does not and is none of the three is part of
an expression.

For the command that shows an expression, `Sets` says which arguments are one
option with all that belongs to it, and what such an option changes.  Reading
goes on behind complete options as if they had not been there, but for the
settings (`interpret_complete`).  For the command that checks, this is said of
the options that set a level (`interpret_level`).
-/
import ArithTree.Cli.Check
import ArithTree.Cli.Display
import ArithTree.Proofs.Decimal
import ArithTree.Proofs.Text

namespace ArithTree.Cli

def IsLong (argument : String) : Prop :=
  "--".toList <+: argument.toList

instance (argument : String) : Decidable (IsLong argument) :=
  inferInstanceAs (Decidable (_ <+: _))

theorem IsLong.ne {argument option : String} (hoption : IsLong option)
    (h : ¬ IsLong argument) : argument ≠ option := by
  rintro rfl
  exact h hoption

theorem not_isPrefixOf_of_not_isLong {argument : String} (h : ¬ IsLong argument) :
    ¬ "--".toList.isPrefixOf argument.toList = true :=
  mt List.isPrefixOf_iff_prefix.mp h

namespace Display

theorem argument_of_word {argument : String} (h : ¬ IsLong argument) (hv : argument ≠ "-v")
    (hh : argument ≠ "-h") : Argument.of argument = .word := by
  have hne : ∀ option, IsLong option → argument ≠ option := fun _ hoption => hoption.ne h
  rw [Argument.of, if_neg (not_or.mpr ⟨hne "--version" (by decide), hv⟩),
    if_neg (not_or.mpr ⟨hne "--help" (by decide), hh⟩), if_neg (hne "--json" (by decide)),
    if_neg (hne "--verbose" (by decide)), if_neg (hne "--origin" (by decide)),
    if_neg (hne "--offset" (by decide)), if_neg (hne "--level-step" (by decide)),
    if_neg (hne "--" (by decide)), if_neg (not_isPrefixOf_of_not_isLong h)]

/-! ## Values -/

/-- The text writes the number, with any blanks around it. -/
def IsNumber (text : String) (x : Float) : Prop :=
  ∃ core, Text.IsCore Text.isBlank text.toList core ∧ Decimal.Writes core x

theorem read?_trim_eq_some_iff {text : String} {x : Float} :
    Decimal.read? (Text.trim text) = some x ↔ IsNumber text x := by
  rw [Decimal.read?_eq_some_iff, Text.trim, String.toList_ofList]
  simp only [IsNumber, ← Text.strip_eq_iff, exists_eq_left']

theorem numberValue_eq_ok_iff {option text : String} {x : Float} :
    numberValue option text = .ok x ↔ IsNumber text x := by
  rw [← read?_trim_eq_some_iff, numberValue]
  cases Decimal.read? (Text.trim text) with
  | none => simp
  | some y => simp

/-- The text writes two numbers and a comma between them. -/
def IsPlace (text : String) (x y : Float) : Prop :=
  ∃ before behind : String, text.toList = before.toList ++ ',' :: behind.toList ∧
    ',' ∉ before.toList ∧ IsNumber before x ∧ IsNumber behind y

theorem placeValue_eq_ok_iff {option text : String} {x y : Float} :
    placeValue option text = .ok (x, y) ↔ IsPlace text x y := by
  constructor
  · intro h
    simp only [placeValue, bind, Except.bind] at h
    cases hcut : Text.cut? ',' text with
    | none => simp [hcut] at h
    | some parts =>
        obtain ⟨before, behind⟩ := parts
        cases hx : numberValue option before with
        | error e => simp [hcut, hx] at h
        | ok x' =>
            cases hy : numberValue option behind with
            | error e => simp [hcut, hx, hy] at h
            | ok y' =>
                obtain ⟨rfl, rfl⟩ : x' = x ∧ y' = y := by simpa [hcut, hx, hy] using h
                obtain ⟨htext, hbefore⟩ := Text.cut?_eq_some.mp hcut
                exact ⟨before, behind, htext, hbefore, numberValue_eq_ok_iff.mp hx,
                  numberValue_eq_ok_iff.mp hy⟩
  · rintro ⟨before, behind, htext, hbefore, hx, hy⟩
    simp [placeValue, Text.cut?_eq_some.mpr ⟨htext, hbefore⟩, numberValue_eq_ok_iff.mpr hx,
      numberValue_eq_ok_iff.mpr hy, bind, Except.bind]

/-! ## Complete options -/

/-- The arguments are one option, with a value that makes sense if it needs one;
it changes the settings like this. -/
inductive Sets : List String → (Settings → Settings) → Prop
  | json : Sets ["--json"] fun settings => { settings with json := true }
  | verbose : Sets ["--verbose"] fun settings => { settings with verbose := true }
  | origin {value : String} {x y : Float} : IsPlace value x y →
      Sets ["--origin", value] fun settings => settings.withPlace x y
  | offset {value : String} {x : Float} : IsNumber value x →
      Sets ["--offset", value] fun settings => settings.withOffset x
  | levelStep {value : String} {x : Float} : IsNumber value x →
      Sets ["--level-step", value] fun settings => settings.withLevelStep x

/-- The arguments are complete options, which together change the settings like this. -/
inductive Complete : List String → (Settings → Settings) → Prop
  | nil : Complete [] id
  | cons {option options : List String} {change changes : Settings → Settings} :
      Sets option change → Complete options changes →
      Complete (option ++ options) (changes ∘ change)

theorem interpret_sets {option : List String} {change : Settings → Settings}
    (h : Sets option change) (settings : Settings) (words rest : List String) :
    interpret settings words (option ++ rest) = interpret (change settings) words rest := by
  cases h with
  | json =>
      have hargument : Argument.of "--json" = .json := rfl
      rw [List.singleton_append, interpret.eq_def]
      simp only [hargument]
  | verbose =>
      have hargument : Argument.of "--verbose" = .verbose := rfl
      rw [List.singleton_append, interpret.eq_def]
      simp only [hargument]
  | origin hvalue =>
      have hargument : Argument.of "--origin" = .origin := rfl
      simp [interpret, hargument, placeValue_eq_ok_iff.mpr hvalue, bind, Except.bind]
  | offset hvalue =>
      have hargument : Argument.of "--offset" = .offset := rfl
      simp [interpret, hargument, numberValue_eq_ok_iff.mpr hvalue, bind, Except.bind]
  | levelStep hvalue =>
      have hargument : Argument.of "--level-step" = .levelStep := rfl
      simp [interpret, hargument, numberValue_eq_ok_iff.mpr hvalue, bind, Except.bind]

theorem interpret_complete {options : List String} {changes : Settings → Settings}
    (h : Complete options changes) : ∀ (settings : Settings) (words rest : List String),
      interpret settings words (options ++ rest) = interpret (changes settings) words rest := by
  induction h with
  | nil => intro settings words rest; rfl
  | cons hsets _ ih =>
      intro settings words rest
      rw [List.append_assoc, interpret_sets hsets, ih]
      rfl

theorem interpret_onlyWords (settings : Settings) (words rest : List String) :
    interpret settings words ("--" :: rest) =
      .ok (.compile settings (expressionOf (words ++ rest))) := by
  have hargument : Argument.of "--" = .onlyWords := rfl
  rw [interpret.eq_def]
  simp only [hargument]

end Display

namespace Check

theorem argument_of_expression {argument : String} (h : ¬ IsLong argument)
    (hv : argument ≠ "-v") (hh : argument ≠ "-h") (hf : argument ≠ "-f") :
    Argument.of argument = .expression := by
  have hne : ∀ option, IsLong option → argument ≠ option := fun _ hoption => hoption.ne h
  rw [Argument.of, if_neg (not_or.mpr ⟨hne "--version" (by decide), hv⟩),
    if_neg (not_or.mpr ⟨hne "--help" (by decide), hh⟩),
    if_neg (hne "--validate-only" (by decide)), if_neg (hne "--lex-only" (by decide)),
    if_neg (hne "--parse-only" (by decide)), if_neg (hne "--verbose" (by decide)),
    if_neg (not_or.mpr ⟨hne "--file" (by decide), hf⟩),
    if_neg (not_isPrefixOf_of_not_isLong h)]

/-! ## A level and a file -/

def Level.arguments : Level → List String
  | .validateOnly => ["--validate-only"]
  | .lexOnly => ["--lex-only"]
  | .parseOnly => ["--parse-only"]
  | .full => []

theorem interpret_level (level : Level) (rest : List String) :
    interpret {} none (level.arguments ++ rest) = interpret { level } none rest := by
  have hargument : ∀ argument, Argument.of argument = .level level →
      interpret {} none (argument :: rest) = interpret { level } none rest := by
    intro argument h
    rw [interpret.eq_def]
    simp only [h]
  cases level with
  | validateOnly => exact hargument _ rfl
  | lexOnly => exact hargument _ rfl
  | parseOnly => exact hargument _ rfl
  | full => rfl

theorem interpret_file (settings : Settings) (path : String) :
    interpret settings none ["-f", path] = .ok (.check settings (.file path)) := by
  have hargument : Argument.of "-f" = .file := rfl
  simp [interpret, hargument, onlySubject, bind, Except.bind]

end Check

end ArithTree.Cli
