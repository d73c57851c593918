/-
# Words among options

The words of an expression and the options of the command may stand in any
order: what counts is the order of the words among themselves and that of the
options among themselves (`interpret_interleaved`).  `Interleaves` says which
arguments have the same words and the same options.

Reading such arguments adds the words to those before them and changes the
settings as the options alone would (`interpret_interleaves`); no step of it
looks at both.  What a row of options comes to is said without a loop by
`Settings.after`: a switch is on if it stands anywhere in the row, and a number
is that of the last option with such a value.
-/
import ArithTree.Proofs.Cli.Arguments
import Mathlib.Data.List.Basic

namespace ArithTree.Cli.Display

/-! ## Words and options -/

/-- The argument is a word of an expression, wherever it stands before the marker. -/
structure IsWord (argument : String) : Prop where
  not_long : ¬ IsLong argument
  ne_version : argument ≠ "-v"
  ne_help : argument ≠ "-h"

theorem interpret_word {word : String} (h : IsWord word) (settings : Settings)
    (words rest : List String) :
    interpret settings words (word :: rest) = interpret settings (words ++ [word]) rest := by
  have hargument : Argument.of word = .word :=
    argument_of_word h.not_long h.ne_version h.ne_help
  rw [interpret.eq_def]
  simp only [hargument]

/-- An option with its value and what the value says, if it takes one. -/
inductive OptionGroup where
  | json
  | verbose
  | origin (value : String) (x y : Float)
  | offset (value : String) (x : Float)
  | levelStep (value : String) (x : Float)
  deriving DecidableEq

namespace OptionGroup

def arguments : OptionGroup → List String
  | json => ["--json"]
  | verbose => ["--verbose"]
  | origin value _ _ => ["--origin", value]
  | offset value _ => ["--offset", value]
  | levelStep value _ => ["--level-step", value]

/-- The value of the option says what the group has it say. -/
def WellFormed : OptionGroup → Prop
  | json | verbose => True
  | origin value x y => IsPlace value x y
  | offset value x | levelStep value x => IsNumber value x

@[simp] def place? : OptionGroup → Option (Float × Float)
  | origin _ x y => some (x, y)
  | _ => none

@[simp] def offset? : OptionGroup → Option Float
  | offset _ x => some x
  | _ => none

@[simp] def levelStep? : OptionGroup → Option Float
  | levelStep _ x => some x
  | _ => none

end OptionGroup

/-- The last value among those that the options give, or else the one from before. -/
def lastOf {α : Type} (value? : OptionGroup → Option α) (options : List OptionGroup)
    (before : α) : α :=
  (options.filterMap value?).getLast?.getD before

@[simp] theorem lastOf_nil {α : Type} (value? : OptionGroup → Option α) (before : α) :
    lastOf value? [] before = before := rfl

theorem lastOf_cons {α : Type} (value? : OptionGroup → Option α) (option : OptionGroup)
    (options : List OptionGroup) (before : α) :
    lastOf value? (option :: options) before =
      lastOf value? options ((value? option).getD before) := by
  unfold lastOf
  cases h : value? option with
  | none => rw [List.filterMap_cons_none h, Option.getD_none]
  | some x => simp [List.filterMap_cons_some h, List.getLast?_cons]

def Settings.after (settings : Settings) (options : List OptionGroup) : Settings where
  json := settings.json || decide (OptionGroup.json ∈ options)
  verbose := settings.verbose || decide (OptionGroup.verbose ∈ options)
  layout :=
    let place := lastOf OptionGroup.place? options (settings.layout.originX, settings.layout.originY)
    { originX := place.1
      originY := place.2
      offset := lastOf OptionGroup.offset? options settings.layout.offset
      levelStep := lastOf OptionGroup.levelStep? options settings.layout.levelStep }

theorem Settings.after_nil (settings : Settings) : settings.after [] = settings := by
  simp [Settings.after]

theorem Settings.after_cons (settings : Settings) (option : OptionGroup)
    (options : List OptionGroup) :
    settings.after (option :: options) = (settings.after [option]).after options := by
  simp [Settings.after, lastOf_cons, Bool.or_assoc]

theorem Sets.of_eq {option : List String} {change change' : Settings → Settings}
    (h : Sets option change) (heq : ∀ settings, change' settings = change settings) :
    Sets option change' := by
  rwa [funext heq]

theorem sets_of_wellFormed {option : OptionGroup} (h : option.WellFormed) :
    Sets option.arguments fun settings => settings.after [option] := by
  cases option with
  | json =>
      refine Sets.of_eq .json fun settings => ?_
      simp [Settings.after, lastOf_cons]
  | verbose =>
      refine Sets.of_eq .verbose fun settings => ?_
      simp [Settings.after, lastOf_cons]
  | origin value x y =>
      refine Sets.of_eq (.origin h) fun settings => ?_
      simp [Settings.after, lastOf_cons, Settings.withPlace]
  | offset value x =>
      refine Sets.of_eq (.offset h) fun settings => ?_
      simp [Settings.after, lastOf_cons, Settings.withOffset]
  | levelStep value x =>
      refine Sets.of_eq (.levelStep h) fun settings => ?_
      simp [Settings.after, lastOf_cons, Settings.withLevelStep]

/-- The arguments are these words and these options, each row in its order. -/
inductive Interleaves : List String → List OptionGroup → List String → Prop
  | nil : Interleaves [] [] []
  | word {word : String} {words : List String} {options : List OptionGroup}
      {arguments : List String} : IsWord word → Interleaves words options arguments →
      Interleaves (word :: words) options (word :: arguments)
  | option {option : OptionGroup} {words : List String} {options : List OptionGroup}
      {arguments : List String} : option.WellFormed → Interleaves words options arguments →
      Interleaves words (option :: options) (option.arguments ++ arguments)

theorem interpret_interleaves {words : List String} {options : List OptionGroup}
    {arguments : List String} (h : Interleaves words options arguments) :
    ∀ (settings : Settings) (before rest : List String),
      interpret settings before (arguments ++ rest) =
        interpret (settings.after options) (before ++ words) rest := by
  induction h with
  | nil =>
      intro settings before rest
      rw [settings.after_nil, List.append_nil, List.nil_append]
  | word hword _ ih =>
      intro settings before rest
      rw [List.cons_append, interpret_word hword, ih, List.append_assoc, List.singleton_append]
  | option hoption _ ih =>
      intro settings before rest
      rw [List.append_assoc, interpret_sets (sets_of_wellFormed hoption), ih, ← Settings.after_cons]

/-! ## Whole command lines -/

def marked : Option (List String) → List String
  | none => []
  | some tail => "--" :: tail

theorem interpret_marked (settings : Settings) (words : List String) (tail? : Option (List String)) :
    interpret settings words (marked tail?) =
      .ok (.compile settings (expressionOf (words ++ tail?.getD []))) := by
  cases tail? with
  | none => rw [Option.getD_none, List.append_nil]; rfl
  | some tail => exact interpret_onlyWords settings words tail

theorem expressionOf_eq (words : List String) :
    expressionOf words = if words = [] then none else some (" ".intercalate words) := by
  simp [expressionOf]

/-- Two command lines with the same words in order, the same options in order and
the same end mean the same and come to the same.  The expression is made of all
words and then those behind the marker, and is read from elsewhere if there are
none; a switch is on if it stands anywhere, and a number is that of the last
option that gives it, or the standard one. -/
theorem interpret_interleaved {words : List String} {options : List OptionGroup}
    {arguments arguments' : List String} (h : Interleaves words options arguments)
    (h' : Interleaves words options arguments') (tail? : Option (List String)) :
    let all := words ++ tail?.getD []
    let request : Request := .compile
      { json := decide (OptionGroup.json ∈ options)
        verbose := decide (OptionGroup.verbose ∈ options)
        layout :=
          { originX := (lastOf OptionGroup.place? options (300, 50)).1
            originY := (lastOf OptionGroup.place? options (300, 50)).2
            offset := lastOf OptionGroup.offset? options 150
            levelStep := lastOf OptionGroup.levelStep? options 150 } }
      (if all = [] then none else some (" ".intercalate all))
    interpret {} [] (arguments ++ marked tail?) = .ok request ∧
    interpret {} [] (arguments' ++ marked tail?) = .ok request ∧
    ∀ surroundings, run (arguments ++ marked tail?) surroundings =
      run (arguments' ++ marked tail?) surroundings := by
  intro all request
  have hread : ∀ {arguments : List String}, Interleaves words options arguments →
      interpret {} [] (arguments ++ marked tail?) = .ok request := by
    intro arguments h
    rw [interpret_interleaves h, interpret_marked, List.nil_append, expressionOf_eq]
    simp only [Settings.after, Bool.false_or]
    rfl
  refine ⟨hread h, hread h', ?_⟩
  intro surroundings
  rw [run, run, hread h, hread h']

/-- Words that look like options stand behind the marker, values that look like
words behind their options, and the distance is given twice: it is a hundred. -/
theorem interleaved_with_repeated_option :
    let words := ["-a", "", "*"]
    let options : List OptionGroup :=
      [.offset "-3" (-3), .json, .origin " 1,-2" 1 (-2), .offset "1e2" 100]
    let arguments :=
      ["-a", "--offset", "-3", "--json", "", "--origin", " 1,-2", "*", "--offset", "1e2"]
    let arguments' :=
      ["--offset", "-3", "--json", "--origin", " 1,-2", "--offset", "1e2", "-a", "", "*"]
    Interleaves words options arguments ∧ Interleaves words options arguments' ∧
    interpret {} [] (arguments ++ ["--", "--json"]) = .ok (.compile
      { json := true
        verbose := false
        layout := { originX := 1, originY := -2, offset := 100, levelStep := 150 } }
      (some "-a  * --json")) ∧
    ∀ surroundings, run (arguments ++ ["--", "--json"]) surroundings =
      run (arguments' ++ ["--", "--json"]) surroundings := by
  intro words options arguments arguments'
  have hminus : IsWord "-a" := ⟨by decide, by decide, by decide⟩
  have hempty : IsWord "" := ⟨by decide, by decide, by decide⟩
  have htimes : IsWord "*" := ⟨by decide, by decide, by decide⟩
  have hjson : OptionGroup.json.WellFormed := trivial
  have hfirst : (OptionGroup.offset "-3" (-3)).WellFormed :=
    read?_trim_eq_some_iff.mp (by decide +kernel)
  have hplace : (OptionGroup.origin " 1,-2" 1 (-2)).WellFormed :=
    ⟨" 1", "-2", rfl, by decide, read?_trim_eq_some_iff.mp (by decide +kernel),
      read?_trim_eq_some_iff.mp (by decide +kernel)⟩
  have hlast : (OptionGroup.offset "1e2" 100).WellFormed :=
    read?_trim_eq_some_iff.mp (by decide +kernel)
  have h : Interleaves words options arguments :=
    .word hminus (.option hfirst (.option hjson (.word hempty
      (.option hplace (.word htimes (.option hlast .nil))))))
  have h' : Interleaves words options arguments' :=
    .option hfirst (.option hjson (.option hplace (.option hlast
      (.word hminus (.word hempty (.word htimes .nil))))))
  obtain ⟨hread, _, hrun⟩ := interpret_interleaved h h' (some ["--json"])
  exact ⟨h, h', hread, hrun⟩

end ArithTree.Cli.Display
