/-
# The command `exprtree`

Compiles one expression, which its arguments or its standard input give, and
shows the visits of the tree or a document for a renderer.

`interpret` reads the arguments from left to right: an option changes the
settings, everything else is a word of the expression, and the first argument
that makes no sense ends the reading.
-/
import ArithTree.Cli.Outcome
import ArithTree.Decimal.Read
import ArithTree.Report
import ArithTree.Surroundings
import ArithTree.Text.Parts

namespace ArithTree.Cli.Display

/-! ## Texts about the command -/

def banner : String :=
  "exprtree v" ++ version

def usage : List String :=
  [banner,
   "Usage: exprtree [options] [expression...]",
   "",
   "未给出表达式时从标准输入读取。",
   "",
   "Options:",
   "  --json                输出 JSON（遍历结果 + 渲染用的节点/边列表）",
   "  --origin X,Y          根节点坐标 (默认: 300,50)",
   "  --offset N            根节点到子节点的水平偏移 (默认: 150)",
   "  --level-step N        每层的垂直间距 (默认: 150)",
   "  --verbose             输出调试日志",
   "  --version, -v         显示版本号",
   "  --help, -h            显示帮助信息",
   "",
   "Examples:",
   "  exprtree \"a+b*c\"",
   "  exprtree --json \"(a+b)*c\"",
   "  echo \"x/(y - 2)\" | exprtree"]

/-! ## Arguments -/

structure Settings where
  json : Bool := false
  verbose : Bool := false
  layout : Layout.Options Float := .standard

def Settings.withPlace (settings : Settings) (x y : Float) : Settings :=
  { settings with layout := { settings.layout with originX := x, originY := y } }

def Settings.withOffset (settings : Settings) (x : Float) : Settings :=
  { settings with layout := { settings.layout with offset := x } }

def Settings.withLevelStep (settings : Settings) (x : Float) : Settings :=
  { settings with layout := { settings.layout with levelStep := x } }

inductive UsageError where
  | missingValue (option : String)
  | notANumber (option value : String)
  | notAPlace (value : String)
  | unknownOption (argument : String)
  deriving DecidableEq, Repr

def UsageError.message : UsageError → String
  | .missingValue option => s!"{option} 需要一个参数"
  | .notANumber option value => s!"{option} 的参数不是数字: {value}"
  | .notAPlace value => s!"--origin 的格式应为 X,Y: {value}"
  | .unknownOption argument => s!"未知选项: {argument}"

inductive Request where
  | version
  | help
  /-- the expression is read from the standard input if there is none here -/
  | compile (settings : Settings) (expression : Option String)

inductive Argument where
  | version
  | help
  | json
  | verbose
  | origin
  | offset
  | levelStep
  /-- what follows are words, whatever they look like -/
  | onlyWords
  | unknown
  | word
  deriving DecidableEq, Repr

/-- What an argument is, by itself.  A single hyphen may begin a word, since an
expression may begin with a minus sign. -/
def Argument.of (argument : String) : Argument :=
  if argument = "--version" ∨ argument = "-v" then .version
  else if argument = "--help" ∨ argument = "-h" then .help
  else if argument = "--json" then .json
  else if argument = "--verbose" then .verbose
  else if argument = "--origin" then .origin
  else if argument = "--offset" then .offset
  else if argument = "--level-step" then .levelStep
  else if argument = "--" then .onlyWords
  else if "--".toList.isPrefixOf argument.toList then .unknown
  else .word

/-- The number that is the value of an option, blanks around it left out. -/
def numberValue (option value : String) : Except UsageError Float :=
  match Decimal.read? (Text.trim value) with
  | some x => .ok x
  | none => .error (.notANumber option value)

/-- The two numbers that are the value of the option for a place. -/
def placeValue (option value : String) : Except UsageError (Float × Float) :=
  match Text.cut? ',' value with
  | none => .error (.notAPlace value)
  | some (x, y) => do
    let x ← numberValue option x
    let y ← numberValue option y
    .ok (x, y)

/-- The words of an expression as one text, if there are any. -/
def expressionOf (words : List String) : Option String :=
  if words.isEmpty then none else some (" ".intercalate words)

/-- Reads the arguments, with the settings and the words of those before them. -/
def interpret (settings : Settings) (words : List String) :
    List String → Except UsageError Request
  | [] => .ok (.compile settings (expressionOf words))
  | argument :: rest =>
    match Argument.of argument with
    | .version => .ok .version
    | .help => .ok .help
    | .json => interpret { settings with json := true } words rest
    | .verbose => interpret { settings with verbose := true } words rest
    | .origin =>
      match rest with
      | [] => .error (.missingValue argument)
      | value :: rest => do
        let (x, y) ← placeValue argument value
        interpret (settings.withPlace x y) words rest
    | .offset =>
      match rest with
      | [] => .error (.missingValue argument)
      | value :: rest => do
        let x ← numberValue argument value
        interpret (settings.withOffset x) words rest
    | .levelStep =>
      match rest with
      | [] => .error (.missingValue argument)
      | value :: rest => do
        let x ← numberValue argument value
        interpret (settings.withLevelStep x) words rest
    | .onlyWords => .ok (.compile settings (expressionOf (words ++ rest)))
    | .unknown => .error (.unknownOption argument)
    | .word => interpret settings (words ++ [argument]) rest

/-! ## The work -/

def shown (settings : Settings) (source : String) (c : Compilation Float) : List Piece :=
  if settings.json then line ((c.document source).pretty 0) else lines c.visits.lines

/-- Compiles a text that came from `origin`. -/
def compileText (settings : Settings) (source origin : String) : Outcome :=
  let events := log settings.verbose (Event.ofCompile settings.layout source)
  match compile settings.layout source with
  | .ok c => ⟨success, shown settings source c, events⟩
  | .error e => ⟨failure, [], events ++ [.text (e.diagnostic source origin)]⟩

def withoutLineEnd (text : String) : String :=
  String.ofList (Text.stripEnd (fun c => c = '\r' ∨ c = '\n') text.toList)

/-- Compiles what the standard input holds. -/
def compileInput (settings : Settings) (surroundings : Surroundings) : Outcome :=
  match surroundings.inputText with
  | .ok text => compileText settings (withoutLineEnd text) "<stdin>"
  | .error e =>
    ⟨failure, [],
      line (complaint ("Failed to read expression from stdin: " ++ e.message))⟩

def run (arguments : List String) (surroundings : Surroundings) : Outcome :=
  match interpret {} [] arguments with
  | .error e => refusal e.message usage
  | .ok .version => information [banner]
  | .ok .help => information usage
  | .ok (.compile settings (some expression)) => compileText settings expression "<args>"
  | .ok (.compile settings none) => compileInput settings surroundings

end ArithTree.Cli.Display
