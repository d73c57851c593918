/-
# Checking by stages against compiling

The check runs the steps of a compilation one by one, says what each of them
found, and stops where its level ends.  It is no other compiler for that: the
fault that it finds is the one of the compilation, if a stage of the level can
find it at all; a deeper level says the same and then more; and on one
expression the two commands end alike (`inspect_agrees`).

What a stage does with its result is said once, by `Stage.error_run_iff` for its
faults and by `Stage.run_extends` for its lines.  The rest is these two
along the chain of the four stages.
-/
import ArithTree.Proofs.Cli.Arguments
import ArithTree.Proofs.Compile

namespace ArithTree.Cli.Check

/-! ## One stage -/

section Stage
variable {β : Type} {stage : Stage} {level deeper : Level} {work : Except CompileError β}
  {events events' : List Event} {found : β → List String} {next next' : β → Inspection}

theorem Stage.error_run_iff {e : CompileError} :
    (stage.run level work events found next).error = some e ↔
      work = .error e ∨
        ∃ b, work = .ok b ∧ stage.number < level.depth ∧ (next b).error = some e := by
  cases work with
  | error e' => simp [Stage.run]
  | ok b =>
      by_cases hlevel : stage.number < level.depth
      · simp [Stage.run, hlevel]
      · simp [Stage.run, hlevel, Inspection.nothing]

/-- The second check says what the first one says: it goes on behind it if the
first one found no fault, and it ends with the same fault if it did. -/
def Inspection.Extends (checked further : Inspection) : Prop :=
  (checked.error = none → checked.lines <+: further.lines) ∧
  ∀ e, checked.error = some e → further.lines = checked.lines ∧ further.error = some e

theorem Inspection.nothing_extends (further : Inspection) : nothing.Extends further :=
  ⟨fun _ => List.nil_prefix, fun _ h => (nomatch h)⟩

theorem Stage.run_extends (hdepth : level.depth ≤ deeper.depth)
    (hnext : ∀ b, work = .ok b → (next b).Extends (next' b)) :
    (stage.run level work events found next).Extends
      (stage.run deeper work events' found next') := by
  cases work with
  | error e =>
      refine ⟨fun h => (nomatch h), ?_⟩
      intro e' h
      exact ⟨rfl, h⟩
  | ok b =>
      -- past the end of the level the deeper one goes on alone
      have hrest : Inspection.Extends
          (if stage.number < level.depth then next b else .nothing)
          (if stage.number < deeper.depth then next' b else .nothing) := by
        by_cases hlevel : stage.number < level.depth
        · have hdeeper := Nat.lt_of_lt_of_le hlevel hdepth
          simpa [hlevel, hdeeper] using hnext b rfl
        · simpa [hlevel] using Inspection.nothing_extends _
      refine ⟨?_, ?_⟩
      · intro h
        obtain ⟨more, hmore⟩ := hrest.1 h
        exact ⟨more, by simp [Stage.run, ← hmore]⟩
      · intro e h
        obtain ⟨hlines, herror⟩ := hrest.2 e h
        exact ⟨by simp [Stage.run, hlines], herror⟩

end Stage

/-! ## All stages -/

theorem inspect_extends {level deeper : Level} (h : level.depth ≤ deeper.depth)
    (source : String) : (inspect level source).Extends (inspect deeper source) := by
  refine Stage.run_extends h ?_
  intro _ _
  refine Stage.run_extends h ?_
  intro tokens _
  refine Stage.run_extends h ?_
  intro p _
  refine Stage.run_extends h ?_
  intro _ _
  exact Inspection.nothing_extends _

/-- The errors that the stages of a level can find. -/
def Level.Reports : Level → CompileError → Prop
  | .validateOnly, e => ∃ column v, e = .invalidExpression column v
  | .lexOnly, e => (∃ column v, e = .invalidExpression column v) ∨ e = .emptyExpression
  | .parseOnly, _ | .full, _ => True

theorem error_inspectTree (level : Level) (tree : Expr) : (inspectTree level tree).error = none := by
  simp [inspectTree, Stage.run, Inspection.nothing]

theorem error_inspectTokens_iff {level : Level} {tokens : List Token} {e : CompileError} :
    (inspectTokens level tokens).error = some e ↔ build tokens = .error e := by
  rw [inspectTokens, Stage.error_run_iff]
  simp [error_inspectTree]

theorem error_inspectText_iff {level : Level} {source : String} {e : CompileError} :
    (inspectText level source).error = some e ↔
      if level.depth ≤ 2 then lex source = .error e else parse source = .error e := by
  rw [inspectText, Stage.error_run_iff, parse_eq_error_iff]
  simp only [error_inspectTokens_iff, Stage.number]
  by_cases h : level.depth ≤ 2
  · simp [h, Nat.not_lt.mpr h]
  · simp [h, Nat.lt_of_not_le h]

theorem error_inspect_iff {level : Level} {source : String} {e : CompileError} :
    (inspect level source).error = some e ↔ parse source = .error e ∧ level.Reports e := by
  rw [inspect, Stage.error_run_iff]
  simp only [error_inspectText_iff, Stage.number]
  cases hcheck : Source.check source with
  | error e' =>
      have hlex : lex source = .error e' := lex_of_check_error hcheck
      obtain ⟨_, column, v, rfl⟩ := (fate_parse source).invalid_iff.mp hcheck
      rw [parse_of_lex_error hlex]
      have hreports : level.Reports (.invalidExpression column v) := by
        cases level <;> simp [Level.Reports]
      constructor
      · rintro (h | ⟨_, h, _⟩)
        · cases h
          exact ⟨rfl, hreports⟩
        · exact nomatch h
      · rintro ⟨h, _⟩
        cases h
        exact Or.inl rfl
  | ok _ =>
      have hinvalid := (fate_parse source).invalid_iff (e := e)
      cases level with
      | validateOnly => simpa [Level.Reports, Level.depth, hcheck] using hinvalid
      | lexOnly => simp [Level.Reports, Level.depth, lex_eq_error_iff]
      | parseOnly | full => simp [Level.Reports, Level.depth]

/-! ## One expression -/

theorem run_expression {argument : String} (hlong : ¬ IsLong argument) (hv : argument ≠ "-v")
    (hh : argument ≠ "-h") (hf : argument ≠ "-f") (surroundings : Surroundings) :
    Check.run [argument] surroundings = checkEntries {} [⟨"<args>", argument⟩] := by
  have hargument := argument_of_expression hlong hv hh hf
  simp [Check.run, interpret, hargument, onlySubject, bind, Except.bind]

theorem run_word {argument : String} (hlong : ¬ IsLong argument) (hv : argument ≠ "-v")
    (hh : argument ≠ "-h") (surroundings : Surroundings) :
    Display.run [argument] surroundings = Display.compileText {} argument "<args>" := by
  have hargument := Display.argument_of_word hlong hv hh
  have hjoined : " ".intercalate [argument] = argument := rfl
  simp [Display.run, Display.interpret, hargument, Display.expressionOf, hjoined]

theorem compileText_agrees (source origin : String) :
    (Display.compileText {} source origin).code = (checkEntries {} [⟨origin, source⟩]).code ∧
    (Display.compileText {} source origin).errors = (checkEntries {} [⟨origin, source⟩]).errors := by
  have hiff : ∀ e, (inspect .full source).error = some e ↔ parse source = .error e := by
    intro e
    rw [error_inspect_iff]
    simp [Level.Reports]
  cases hcompile : compile Layout.Options.standard source with
  | error e =>
      have hparse := (compile_eq_error_iff _ _).mp hcompile
      have herror := (hiff e).mpr hparse
      simp [Display.compileText, hcompile, checkEntries, checkFrom, herror, Entry.errors, log]
  | ok c =>
      obtain ⟨p, hparse, _⟩ := (compile_eq_ok_iff _ _).mp hcompile
      have herror : (inspect .full source).error = none := by
        cases herror : (inspect .full source).error with
        | none => rfl
        | some e => exact nomatch hparse.symm.trans ((hiff e).mp herror)
      simp [Display.compileText, hcompile, checkEntries, checkFrom, herror, Entry.errors, log]

/-- A level finds the fault of a compilation if one of its stages can find it; a
deeper level says the same and then more; and on one expression both commands
end with the same code and the same diagnostic. -/
theorem inspect_agrees {α : Type} [Coordinate α] (options : Layout.Options α) (source : String)
    (level : Level) :
    (∀ e, (inspect level source).error = some e ↔
      compile options source = .error e ∧ level.Reports e) ∧
    (∀ deeper : Level, level.depth ≤ deeper.depth →
      (inspect level source).Extends (inspect deeper source)) ∧
    (¬ IsLong source → source ≠ "-v" → source ≠ "-h" → source ≠ "-f" →
      ∀ here there : Surroundings,
        (Display.run [source] here).code = (Check.run [source] there).code ∧
        (Display.run [source] here).errors = (Check.run [source] there).errors) := by
  refine ⟨?_, ?_, ?_⟩
  · intro e
    rw [error_inspect_iff, compile_eq_error_iff]
  · intro deeper h
    exact inspect_extends h source
  · intro hlong hv hh hf here there
    rw [run_word hlong hv hh, run_expression hlong hv hh hf]
    exact compileText_agrees source "<args>"

/-- A single hyphen may begin an expression: both commands take `-a` for one, and
refuse it alike. -/
theorem agree_on_leading_minus :
    let alone : Surroundings := ⟨.empty, fun _ => .error .missing⟩
    ¬ IsLong "-a" ∧ "-a" ≠ "-v" ∧ "-a" ≠ "-h" ∧ "-a" ≠ "-f" ∧
      Level.lexOnly.depth ≤ Level.parseOnly.depth ∧
      (inspect .lexOnly "-a").Extends (inspect .parseOnly "-a") ∧
      (Display.run ["-a"] alone).code = (Check.run ["-a"] alone).code ∧
      (Display.run ["-a"] alone).errors = (Check.run ["-a"] alone).errors := by
  intro alone
  obtain ⟨_, hdeeper, hrun⟩ := inspect_agrees Layout.Options.standard "-a" .lexOnly
  have hlong : ¬ IsLong "-a" := by decide
  have hdepth : Level.lexOnly.depth ≤ Level.parseOnly.depth := by decide
  have hends := hrun hlong (by decide) (by decide) (by decide) alone alone
  exact ⟨hlong, by decide, by decide, by decide, hdepth, hdeeper .parseOnly hdepth, hends⟩

end ArithTree.Cli.Check
