/-
# The command `exprtree-check`

Checks one expression, or every line of a file that is not blank, stage by
stage: a line for each stage that begins, what the stage found if it succeeds,
and the diagnostic of the first stage that fails.  How many stages are run is
the level of the check.
-/
import ArithTree.Cli.Outcome
import ArithTree.Surroundings
import ArithTree.Text.Parts

namespace ArithTree.Cli.Check

/-! ## Texts about the command -/

def banner : String :=
  "exprtree-check v" ++ version

def usage : List String :=
  [banner,
   "Usage: exprtree-check [options] <expression>",
   "       exprtree-check [options] --file <expressions.txt>",
   "",
   "Options:",
   "  --validate-only       只进行字符校验",
   "  --lex-only            进行校验和词法分析",
   "  --parse-only          进行校验、词法分析和建树（不计算遍历与布局）",
   "  --file, -f <path>     逐行检查文件中的表达式（忽略空行）",
   "  --verbose             输出调试日志",
   "  --version, -v         显示版本号",
   "  --help, -h            显示帮助信息",
   "",
   "Examples:",
   "  exprtree-check \"a+b*c\"",
   "  exprtree-check --lex-only \"(a+b\"",
   "  exprtree-check -f expressions.txt"]

/-! ## Stages -/

/-- The stages of a check, in the order in which they are run. -/
inductive Stage where
  | validation
  | lexing
  | parsing
  | drawing
  deriving DecidableEq, Repr

namespace Stage

def heading : Stage → String
  | .validation => "  [1] 字符校验..."
  | .lexing => "  [2] 词法分析..."
  | .parsing => "  [3] 语法分析..."
  | .drawing => "  [4] 遍历与布局..."

/-- The place of a stage in the order, counted from 1. -/
def number : Stage → Nat
  | .validation => 1
  | .lexing => 2
  | .parsing => 3
  | .drawing => 4

end Stage

/-- How far a check goes. -/
inductive Level where
  | validateOnly
  | lexOnly
  | parseOnly
  | full
  deriving DecidableEq, Repr

def Level.description : Level → String
  | .validateOnly => "字符校验"
  | .lexOnly => "词法分析"
  | .parseOnly => "语法分析"
  | .full => "完整检查（校验+词法+语法+遍历+布局）"

/-- The number of stages that a level runs. -/
def Level.depth : Level → Nat
  | .validateOnly => 1
  | .lexOnly => 2
  | .parseOnly => 3
  | .full => 4

/-- What a check of one expression has to say. -/
structure Inspection where
  lines : List String
  events : List Event
  error : Option CompileError
  deriving DecidableEq, Repr

def Inspection.nothing : Inspection := ⟨[], [], none⟩

/-- Runs a stage, the work of which has the given result and leaves the given
events behind.  A stage that fails ends the check; one that succeeds says what
it found and hands it on to the next stage, if the level goes any further. -/
def Stage.run {β : Type} (stage : Stage) (level : Level) (work : Except CompileError β)
    (events : List Event) (found : β → List String) (next : β → Inspection) : Inspection :=
  match work with
  | .error e => ⟨[stage.heading], events, some e⟩
  | .ok b =>
    let rest := if stage.number < level.depth then next b else .nothing
    { rest with
      lines := stage.heading :: (found b ++ rest.lines)
      events := events ++ rest.events }

def tokensFound (tokens : List Token) : List String :=
  [s!"      [+] 通过，发现 {tokens.length} 个 token"]

def treeFound (p : Parsed) : List String :=
  [s!"      [+] 通过，后缀式: {Token.join p.sequence}",
   s!"          {p.tree.operandCount} 个操作数，{p.tree.operatorCount} 个运算符，深度 {p.tree.depth}"]

def drawingFound (visits : Expr.Visits) (layout : Layout Float) : List String :=
  [s!"      [+] 前序: {visits.preorder}",
   s!"          中序: {visits.inorder}",
   s!"          后序: {visits.postorder}",
   s!"          {layout.nodes.length} 个节点，{layout.edges.length} 条边"]

def inspectTree (level : Level) (tree : Expr) : Inspection :=
  let layout := Layout.ofExpr Layout.Options.standard tree
  Stage.drawing.run level (.ok layout) [.drawn layout.nodes.length layout.edges.length]
    (drawingFound tree.visits) fun _ => .nothing

def inspectTokens (level : Level) (tokens : List Token) : Inspection :=
  Stage.parsing.run level (build tokens) (Event.ofBuild tokens) treeFound
    fun p => inspectTree level p.tree

def inspectText (level : Level) (source : String) : Inspection :=
  Stage.lexing.run level (lex source) (Event.ofLex source) tokensFound (inspectTokens level)

/-- Checks a text, stage by stage, as far as the level goes. -/
def inspect (level : Level) (source : String) : Inspection :=
  Stage.validation.run level (Source.check source) [] (fun _ => ["      [+] 通过"])
    fun _ => inspectText level source

/-! ## Arguments -/

structure Settings where
  level : Level := .full
  verbose : Bool := false
  deriving DecidableEq, Repr

inductive Subject where
  | expression (text : String)
  | file (path : String)
  deriving DecidableEq, Repr

inductive UsageError where
  | missingPath
  | extraArgument (argument : String)
  | unknownOption (argument : String)
  | nothingToCheck
  deriving DecidableEq, Repr

def UsageError.message : UsageError → String
  | .missingPath => "--file 需要一个路径"
  | .extraArgument argument => s!"多余参数: {argument}"
  | .unknownOption argument => s!"未知选项: {argument}"
  | .nothingToCheck => "需要指定表达式或 --file"

inductive Request where
  | version
  | help
  | check (settings : Settings) (subject : Subject)
  deriving DecidableEq, Repr

inductive Argument where
  | version
  | help
  | level (level : Level)
  | verbose
  | file
  | unknown
  | expression
  deriving DecidableEq, Repr

/-- What an argument is, by itself.  A single hyphen may begin an expression. -/
def Argument.of (argument : String) : Argument :=
  if argument = "--version" ∨ argument = "-v" then .version
  else if argument = "--help" ∨ argument = "-h" then .help
  else if argument = "--validate-only" then .level .validateOnly
  else if argument = "--lex-only" then .level .lexOnly
  else if argument = "--parse-only" then .level .parseOnly
  else if argument = "--verbose" then .verbose
  else if argument = "--file" ∨ argument = "-f" then .file
  else if "--".toList.isPrefixOf argument.toList then .unknown
  else .expression

/-- The subject of a check, if none was given before it. -/
def onlySubject (before : Option Subject) (argument : String) (subject : Subject) :
    Except UsageError Subject :=
  match before with
  | none => .ok subject
  | some _ => .error (.extraArgument argument)

/-- Reads the arguments, with the settings and the subject of those before them. -/
def interpret (settings : Settings) (subject : Option Subject) :
    List String → Except UsageError Request
  | [] =>
    match subject with
    | some subject => .ok (.check settings subject)
    | none => .error .nothingToCheck
  | argument :: rest =>
    match Argument.of argument with
    | .version => .ok .version
    | .help => .ok .help
    | .level level => interpret { settings with level } subject rest
    | .verbose => interpret { settings with verbose := true } subject rest
    | .file =>
      match rest with
      | [] => .error .missingPath
      | path :: rest => do
        let subject ← onlySubject subject path (.file path)
        interpret settings (some subject) rest
    | .unknown => .error (.unknownOption argument)
    | .expression => do
      let subject ← onlySubject subject argument (.expression argument)
      interpret settings (some subject) rest

/-! ## The work -/

/-- An expression and where it came from. -/
structure Entry where
  origin : String
  source : String
  deriving DecidableEq, Repr

/-- The lines of a file that are not blank, with their numbers. -/
def entriesOfFile (path content : String) : List Entry :=
  ((Text.numberedLines content).filter fun (_, source) => !Text.isBlankText source).map
    fun (n, source) => ⟨s!"{path}:{n}", source⟩

/-- What is put out about an entry, a check having said so much. -/
def Entry.output (entry : Entry) (found : Inspection) : List Piece :=
  line s!"{entry.origin}: {entry.source}" ++ lines found.lines ++ line ""

theorem Entry.output_eq (entry : Entry) (found : Inspection) : entry.output found =
    .text (entry.origin ++ ": " ++ entry.source ++ "\n") ::
      (found.lines.map fun said => .text (said ++ "\n")) ++ [.text "\n"] := by
  rw [Entry.output, lines_eq_map]
  rfl

/-- What is put out about the fault of an entry, if a check found one. -/
def Entry.errors (entry : Entry) (verbose : Bool) (found : Inspection) : List Piece :=
  log verbose found.events
    ++ match found.error with
      | some e => [.text (e.diagnostic entry.source entry.origin)]
      | none => []

/-- The last line: how many entries there were and how many had a fault. -/
def summary (failures total : Nat) : List Piece :=
  [.text (if failures = 0 then s!"[+] 检查完成! {total} 个表达式全部通过 (耗时: "
    else s!"[-] 检查完成: {failures}/{total} 个表达式未通过 (耗时: "),
   .elapsed, .text ")\n"]

theorem summary_eq (failures total : Nat) : summary failures total =
    [.text (if failures = 0 then "[+] 检查完成! " ++ toString total ++ " 个表达式全部通过 (耗时: "
      else "[-] 检查完成: " ++ toString failures ++ "/" ++ toString total ++
        " 个表达式未通过 (耗时: "),
     .elapsed, .text ")\n"] :=
  rfl

/-- The lines before the first entry. -/
def header (level : Level) : List Piece :=
  lines [banner, "检查级别: " ++ level.description, ""]

theorem header_eq (level : Level) : header level =
    [.text "exprtree-check v0.1.0\n", .text ("检查级别: " ++ level.description ++ "\n"),
     .text "\n"] :=
  rfl

/-- Checks the entries one after the other, so many faults having been found
before, and sums up at the end how many of all the entries had one. -/
def checkFrom (settings : Settings) (total failures : Nat) : List Entry → Outcome
  | [] =>
    { code := if failures = 0 then success else failure
      output := summary failures total
      errors := [] }
  | entry :: entries =>
    let found := inspect settings.level entry.source
    let rest := checkFrom settings total
      (if found.error.isSome then failures + 1 else failures) entries
    { rest with
      output := entry.output found ++ rest.output
      errors := entry.errors settings.verbose found ++ rest.errors }

def checkEntries (settings : Settings) (entries : List Entry) : Outcome :=
  let checked := checkFrom settings entries.length 0 entries
  { checked with output := header settings.level ++ checked.output }

def unreadable (settings : Settings) (path : String) (e : ReadError) : Outcome :=
  ⟨failure, header settings.level, line s!"错误读取文件 '{path}': {e.message}"⟩

def checkFile (settings : Settings) (path : String) (surroundings : Surroundings) : Outcome :=
  match surroundings.fileText path with
  | .ok content => checkEntries settings (entriesOfFile path content)
  | .error e => unreadable settings path e

def run (arguments : List String) (surroundings : Surroundings) : Outcome :=
  match interpret {} none arguments with
  | .error e => refusal e.message usage
  | .ok .version => information [banner]
  | .ok .help => information usage
  | .ok (.check settings (.expression source)) => checkEntries settings [⟨"<args>", source⟩]
  | .ok (.check settings (.file path)) => checkFile settings path surroundings

end ArithTree.Cli.Check
