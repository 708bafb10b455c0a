import HttpSuite.CommandLine.Arguments
import HttpSuite.Proofs.Acceptance
import HttpSuite.Proofs.FileSystem
import HttpSuite.Proofs.Layout

/-!
# Runs of the compiler are all or nothing

A run has five points of failure: the settings file cannot be read, it is malformed, or one of its
values will not do; the input cannot be read; its text does not compile; the output cannot be
written.  The run succeeds if it passes them all, and only then does it change anything, namely the
one file that is its output.  Otherwise it fails, prints nothing that looks like a success, and
leaves all files as they were.

All of this holds whatever the conventions are by which arguments and settings are written.

## Main definitions

* `Settings.Valid`, `Settings.Loads`: settings that pass their check, and the settings of a run.
* `Prevails`, `Job.Merges`: which of an argument, a setting and a default counts, and what a run has
  to do.
* `Job.Achieves`, `CommandLine.Accomplishes`: all that has to go well.

## Main results

* `Settings.check_eq_ok_iff`, `Settings.load_eq`: which settings a run has.
* `Job.merges_iff`: arguments and settings are merged field by field.
* `CommandLine.run_of_accomplishes`, `CommandLine.run_of_not_accomplishes`: the two ways in which a
  run ends.
* `CommandLine.run_all_or_nothing`: both in one.
-/

namespace HttpSuite

/-! ## Settings -/

namespace Settings

variable {format : Format}

/-- Every value that is set will do. -/
structure Valid (format : Format) (s : Settings) : Prop where
  className : ∀ name, s.className = some name → Text.isIdentifier name = true
  output : ∀ path, s.output = some path → path ≠ ""
  logLevel : ∀ filter, s.logLevel = some filter →
    Text.isBlank filter = false ∧ format.checkFilter filter = .ok ()

theorem checkClassName_eq_ok_iff {name : String} :
    checkClassName name = .ok () ↔ Text.isIdentifier name = true := by
  unfold checkClassName
  split <;> simp_all

theorem checkOutput_eq_ok_iff {path : String} : checkOutput path = .ok () ↔ path ≠ "" := by
  unfold checkOutput
  split <;> simp_all [String.isEmpty_iff]

theorem checkLogLevel_eq_ok_iff {filter : String} : checkLogLevel format filter = .ok () ↔
    Text.isBlank filter = false ∧ format.checkFilter filter = .ok () := by
  unfold checkLogLevel
  split
  · simp_all
  · next hblank =>
    cases format.checkFilter filter <;> simp_all [Except.mapError]

/-- Checking an optional value is checking it if it is there. -/
theorem forM_eq_ok_iff {α : Type} {value : Option α} {check : α → Except SettingsError Unit} :
    value.forM check = .ok () ↔ ∀ a, value = some a → check a = .ok () := by
  cases value with
  | none => simp [Option.forM, pure, Except.pure]
  | some a => simp [Option.forM]

theorem bind_eq_ok_iff {first second : Except SettingsError Unit} :
    (first >>= fun _ => second) = .ok () ↔ first = .ok () ∧ second = .ok () := by
  cases first <;> simp [bind, Except.bind]

/-- The check passes exactly the settings whose values will do. -/
theorem check_eq_ok_iff {s : Settings} : s.check format = .ok () ↔ s.Valid format := by
  unfold check
  rw [bind_eq_ok_iff, bind_eq_ok_iff, forM_eq_ok_iff, forM_eq_ok_iff, forM_eq_ok_iff]
  simp only [checkClassName_eq_ok_iff, checkOutput_eq_ok_iff, checkLogLevel_eq_ok_iff]
  exact ⟨fun ⟨hname, houtput, hlevel⟩ => ⟨hname, houtput, hlevel⟩,
    fun h => ⟨h.className, h.output, h.logLevel⟩⟩

/-- The settings of a run, from what can be read and the path of the settings file: the defaults if
there is no path, and otherwise those that the file sets, if they will do. -/
inductive Loads (format : Format) (read : String → Except FileFault String) :
    Option String → Settings → Prop
  | defaults : Loads format read none {}
  | file {path text : String} {s : Settings} : read path = .ok text → format.parse text = .ok s →
    s.Valid format → Loads format read (some path) s

theorem ofCheckedText_eq_ok_iff {text : String} {s : Settings} :
    ofCheckedText format text = .ok s ↔ format.parse text = .ok s ∧ s.Valid format := by
  unfold ofCheckedText ofText
  cases format.parse text with
  | error reason => simp [bind, Except.bind, Except.mapError]
  | ok found =>
    rw [Except.mapError, Except.ok.injEq]
    cases hcheck : found.check format with
    | error e =>
      have hinvalid : ¬ found.Valid format := by rw [← check_eq_ok_iff, hcheck]; simp
      simp only [bind, Except.bind, hcheck, reduceCtorEq, false_iff]
      rintro ⟨rfl, hvalid⟩
      exact hinvalid hvalid
    | ok u =>
      have hvalid : found.Valid format := check_eq_ok_iff.1 hcheck
      simp only [bind, Except.bind, hcheck, pure, Except.pure, Except.ok.injEq]
      exact ⟨fun h => ⟨h, h ▸ hvalid⟩, fun h => h.1⟩

/-- Loading settings changes no files, and gives the settings of the run if there are any. -/
theorem load_eq (format : Format) (fs : FileSystem) (path : Option String) (state : fs.State) :
    ∃ result, load format fs.access path state = (result, state) ∧
      ∀ s, result = .ok s ↔ Loads format (fs.read state) path s := by
  cases path with
  | none =>
    refine ⟨.ok {}, rfl, fun s => ⟨fun h => ?_, fun h => ?_⟩⟩
    · cases h
      exact .defaults
    · cases h
      rfl
  | some path =>
    cases hread : fs.read state path with
    | error fault =>
      have hload : load format fs.access (some path) state =
          (.error (.unreadable path fault), state) := by
        simp only [load, bind, StateT.bind, fs.access_read, hread]
        rfl
      refine ⟨_, hload, fun s => ⟨fun h => (by cases h), fun h => ?_⟩⟩
      cases h with
      | file hfile =>
        rw [hread] at hfile
        cases hfile
    | ok text =>
      have hload : load format fs.access (some path) state =
          (ofCheckedText format text, state) := by
        simp only [load, bind, StateT.bind, fs.access_read, hread]
        rfl
      refine ⟨_, hload, fun s => ?_⟩
      rw [ofCheckedText_eq_ok_iff]
      constructor
      · exact fun h => .file hread h.1 h.2
      · intro h
        cases h with
        | file hfile hparse hvalid =>
          rw [hread] at hfile
          cases hfile
          exact ⟨hparse, hvalid⟩

theorem Loads.unique {read : String → Except FileFault String} {path : Option String}
    {s s' : Settings} (h : Loads format read path s) (h' : Loads format read path s') :
    s = s' := by
  cases h with
  | defaults => cases h'; rfl
  | file hread hparse _ =>
    cases h' with
    | file hread' hparse' _ =>
      rw [hread] at hread'
      cases hread'
      rw [hparse] at hparse'
      exact Except.ok.inj hparse'

end Settings

/-! ## Jobs -/

/-- The value that counts: the argument if it is given, else the setting if it is given, else the
default. -/
inductive Prevails {α : Type} : Option α → Option α → α → α → Prop
  | argument (value : α) (setting : Option α) (default : α) :
    Prevails (some value) setting default value
  | setting (value default : α) : Prevails none (some value) default value
  | default (value : α) : Prevails none none value value

theorem prevails_iff {α : Type} {argument setting : Option α} {default value : α} :
    Prevails argument setting default value ↔ (argument <|> setting).getD default = value := by
  constructor
  · intro h
    cases h <;> rfl
  · rintro rfl
    cases argument with
    | some value => exact .argument value setting default
    | none =>
      cases setting with
      | some value => exact .setting value default
      | none => exact .default default

namespace Job

/-- The job that arguments and settings make: the input is an argument; target, class name and
output are taken from the arguments, else from the settings, else from the defaults, each for
itself. The default output depends on the other two. -/
structure Merges (asked : Arguments) (settings : Settings) (job : Job) : Prop where
  input : job.input = asked.input
  target : Prevails asked.target settings.target .junit job.options.target
  className : Prevails asked.className settings.className defaultClassName job.options.className
  output : Prevails asked.output settings.output job.options.outputFile job.output

theorem merges_iff {asked : Arguments} {settings : Settings} {job : Job} :
    job.Merges asked settings ↔ resolve asked settings = job := by
  constructor
  · rintro ⟨hinput, htarget, hname, houtput⟩
    rw [prevails_iff] at htarget hname houtput
    obtain ⟨input, output, target, className⟩ := job
    subst hinput htarget hname
    exact congrArg (fun path : String => Job.mk asked.input path _) houtput
  · rintro rfl
    exact ⟨rfl, prevails_iff.2 rfl, prevails_iff.2 rfl, prevails_iff.2 rfl⟩

/-- The input of the job compiles to this output, and its source can be written, which leads to the
state `after`. -/
structure Achieves (fs : FileSystem) (state : fs.State) (job : Job) (output : Output)
    (after : fs.State) : Prop where
  compiled : ∃ source, fs.read state job.input = .ok source ∧
    compile source job.options = .ok output
  written : fs.access.write job.output output.source state = (.ok (), after)

end Job

/-- A warning is one line, since the names of variables are words. -/
theorem oneLine_display_of_compile {source : String} {options : Options} {output : Output}
    (h : compile source options = .ok output) :
    ∀ d ∈ output.diagnostics, Text.OneLine d.display := by
  obtain ⟨-, p, diagnostics, hparse, hvalid, rfl⟩ := compile_eq_ok_iff.1 h
  obtain ⟨-, rfl⟩ := Program.validate_eq_ok_iff.1 hvalid
  have hp := Program.wellFormed_of_parse hparse
  simp only [Program.unusedVariables, List.forall_mem_map, List.mem_filter]
  rintro v ⟨hv, -⟩
  have hname : Text.OneLine v.name := Text.oneLine_of_isIdentifier (hp.variableName v hv).1
  exact Text.oneLine_append.2 ⟨by decide, Text.oneLine_append.2
    ⟨Text.oneLine_append.2 ⟨by decide, hname⟩, by decide⟩⟩

namespace CommandLine

variable {fs : FileSystem} {state after : fs.State} {job : Job} {output : Output}

/-- What a successful run prints. -/
def succeeded (job : Job) (output : Output) : Outcome where
  exitCode := 0
  stdout := "Successfully generated " ++ job.output ++ "\n"
  stderr := unlines (output.diagnostics.map Diagnostic.display)

private theorem warningLines_eq (diagnostics : List Diagnostic) :
    warningLines diagnostics = unlines (diagnostics.map Diagnostic.display) := by
  rw [warningLines, unlines, List.map_map]
  rfl

theorem compileFile_of_read_eq_ok {path source : String} (options : Options)
    (h : fs.read state path = .ok source) :
    compileFile fs.access path options state = (compile source options, state) := by
  simp only [compileFile, bind, StateT.bind, fs.access_read, h]
  rfl

theorem compileFile_of_read_eq_error {path : String} {fault : FileFault} (options : Options)
    (h : fs.read state path = .error fault) :
    compileFile fs.access path options state = (.error (.unreadable path fault), state) := by
  simp only [compileFile, bind, StateT.bind, fs.access_read, h]
  rfl

/-- A job whose input compiles ends as its write does. -/
theorem perform_of_compiled {source : String} (hread : fs.read state job.input = .ok source)
    (hcompile : compile source job.options = .ok output) :
    perform fs.access job state =
      match fs.access.write job.output output.source state with
      | (.ok (), after) => (succeeded job output, after)
      | (.error fault, after) =>
        ({ exitCode := 1
           stderr := warningLines output.diagnostics ++
            (Failure.unwritable job.output fault).report }, after) := by
  simp only [perform, bind, StateT.bind, compileFile_of_read_eq_ok job.options hread, hcompile]
  rw [succeeded, ← warningLines_eq]
  obtain ⟨written, after⟩ := fs.access.write job.output output.source state
  cases written <;> rfl

theorem perform_of_achieves (h : job.Achieves fs state output after) :
    perform fs.access job state = (succeeded job output, after) := by
  obtain ⟨source, hread, hcompile⟩ := h.compiled
  rw [perform_of_compiled hread hcompile, h.written]

/-- A job in which something goes wrong changes no files. -/
theorem perform_of_not_achieves (h : ∀ output after, ¬ job.Achieves fs state output after) :
    ∃ stderr, perform fs.access job state = ({ exitCode := 1, stderr }, state) := by
  have hfailed (e : CompileError) (he : compileFile fs.access job.input job.options state =
      (.error e, state)) : perform fs.access job state = (failed (.compile e), state) := by
    simp only [perform, bind, StateT.bind, he]
    rfl
  cases hread : fs.read state job.input with
  | error fault =>
    exact ⟨_, hfailed _ (compileFile_of_read_eq_error job.options hread)⟩
  | ok source =>
    cases hcompile : compile source job.options with
    | error e =>
      refine ⟨_, hfailed e ?_⟩
      rw [compileFile_of_read_eq_ok job.options hread, hcompile]
    | ok output =>
      rw [perform_of_compiled hread hcompile]
      cases hwrite : fs.access.write job.output output.source state with
      | mk written after =>
        cases written with
        | ok u => exact absurd ⟨⟨source, hread, hcompile⟩, hwrite⟩ (h output after)
        | error fault =>
          obtain rfl := fs.write_of_error hwrite
          exact ⟨_, rfl⟩

/-! ## Runs -/

/-- All that has to go well in a run: the settings load, from the file that the arguments name or
else from the one that the environment names; and the job that they make with the arguments is
achieved. -/
structure Accomplishes (conventions : Conventions) (fs : FileSystem) (state : fs.State)
    (settingsPath : Option String) (asked : Arguments) (job : Job) (output : Output)
    (after : fs.State) : Prop where
  merged : ∃ settings, Settings.Loads conventions.settings (fs.read state)
    (asked.config <|> settingsPath) settings ∧ job.Merges asked settings
  achieved : job.Achieves fs state output after

variable {conventions : Conventions} {settingsPath : Option String} {arguments : List String}
  {asked : Arguments}

/-- Arguments that ask for a compilation lead to the job that they make with the settings. -/
theorem run_of_load_eq_ok (h : conventions.parse arguments = .ok asked) {settings : Settings}
    (hload : Settings.load conventions.settings fs.access (asked.config <|> settingsPath) state =
      (.ok settings, state)) :
    run conventions fs.access settingsPath arguments state =
      perform fs.access (Job.resolve asked settings) state := by
  simp only [run, h, bind, StateT.bind, hload]

theorem run_of_load_eq_error (h : conventions.parse arguments = .ok asked) {e : SettingsError}
    (hload : Settings.load conventions.settings fs.access (asked.config <|> settingsPath) state =
      (.error e, state)) :
    run conventions fs.access settingsPath arguments state = (failed (.settings e), state) := by
  simp only [run, h, bind, StateT.bind, hload]
  rfl

theorem run_of_accomplishes (h : conventions.parse arguments = .ok asked)
    (hall : Accomplishes conventions fs state settingsPath asked job output after) :
    run conventions fs.access settingsPath arguments state = (succeeded job output, after) := by
  obtain ⟨settings, hloads, hmerges⟩ := hall.merged
  obtain ⟨result, hload, hresult⟩ :=
    Settings.load_eq conventions.settings fs (asked.config <|> settingsPath) state
  rw [(hresult settings).2 hloads] at hload
  rw [run_of_load_eq_ok h hload, Job.merges_iff.1 hmerges, perform_of_achieves hall.achieved]

theorem run_of_not_accomplishes (h : conventions.parse arguments = .ok asked)
    (hnot : ¬ ∃ job output after,
      Accomplishes conventions fs state settingsPath asked job output after) :
    ∃ stderr, run conventions fs.access settingsPath arguments state =
      ({ exitCode := 1, stderr }, state) := by
  obtain ⟨result, hload, hresult⟩ :=
    Settings.load_eq conventions.settings fs (asked.config <|> settingsPath) state
  cases result with
  | error e => exact ⟨_, run_of_load_eq_error h hload⟩
  | ok settings =>
    rw [run_of_load_eq_ok h hload]
    refine perform_of_not_achieves fun output after hachieves =>
      hnot ⟨Job.resolve asked settings, output, after, ?_⟩
    exact ⟨⟨settings, (hresult settings).1 rfl, Job.merges_iff.2 rfl⟩, hachieves⟩

theorem exitCode_eq_zero_iff (h : conventions.parse arguments = .ok asked) :
    (run conventions fs.access settingsPath arguments state).1.exitCode = 0 ↔
      ∃ job output after,
        Accomplishes conventions fs state settingsPath asked job output after := by
  constructor
  · intro hexit
    refine Classical.byContradiction fun hnot => ?_
    obtain ⟨stderr, hrun⟩ := run_of_not_accomplishes h hnot
    rw [hrun] at hexit
    cases hexit
  · rintro ⟨job, output, after, hall⟩
    rw [run_of_accomplishes h hall]
    rfl

/-- A run that was asked for a compilation exits with zero exactly if everything in it goes well.
Then it has printed one line, and the warnings with a line for each, and has written the source of
the suite to its output and nothing anywhere else. Otherwise it exits with one, without a line on
the standard output, and has changed nothing. -/
theorem run_all_or_nothing (conventions : Conventions) (fs : FileSystem) (state : fs.State)
    (settingsPath : Option String) {arguments : List String} {asked : Arguments}
    (h : conventions.parse arguments = .ok asked) :
    ((run conventions fs.access settingsPath arguments state).1.exitCode = 0 ↔
      ∃ job output after,
        Accomplishes conventions fs state settingsPath asked job output after) ∧
    (∀ job output after, Accomplishes conventions fs state settingsPath asked job output after →
      run conventions fs.access settingsPath arguments state =
        ({ exitCode := 0
           stdout := "Successfully generated " ++ job.output ++ "\n"
           stderr := unlines (output.diagnostics.map Diagnostic.display) }, after) ∧
      (∀ d ∈ output.diagnostics, Text.OneLine d.display) ∧
      ∃ place, fs.locate? state job.output = some place ∧
        Overwrites fs.content? state after place output.source) ∧
    ((¬ ∃ job output after,
        Accomplishes conventions fs state settingsPath asked job output after) →
      ∃ stderr, run conventions fs.access settingsPath arguments state =
        ({ exitCode := 1, stdout := "", stderr }, state)) := by
  refine ⟨exitCode_eq_zero_iff h, fun job output after hall => ?_, run_of_not_accomplishes h⟩
  obtain ⟨source, -, hcompile⟩ := hall.achieved.compiled
  exact ⟨run_of_accomplishes h hall, oneLine_display_of_compile hcompile,
    fs.write_of_ok hall.achieved.written⟩

/-- A suite with a variable that no request mentions. -/
def spareVariable : Program where
  config := none
  declarations := [⟨"x", .text "1"⟩]
  tests :=
    [⟨"a",
      [ .request { method := .get, url := "/" }, .assertion (.statusEquals 200)
      , .assertion (.bodyContains "b") ]⟩]

theorem wellFormed_spareVariable : spareVariable.WellFormed := by decide

/-- The source of the suite, and beside it a file of settings. -/
def spareTree : FileTree where
  entries :=
    [ (["a.test"], .file spareVariable.print.toUTF8)
    , (["s.toml"], .file "target = \"rust\"\nclass_name = \"B\"\n".toUTF8) ]

theorem read_spareTree : spareTree.read "a.test" = .ok spareVariable.print := by
  have hread : spareTree.read "a.test" = decodeText spareVariable.print.toUTF8 := rfl
  rw [hread, decodeText_toUTF8]

theorem loads_spareTree : Settings.Loads .toml spareTree.read (some "s.toml")
    { target := some .rust, className := some "B" } := by
  have hread : spareTree.read "s.toml" =
      decodeText "target = \"rust\"\nclass_name = \"B\"\n".toUTF8 := rfl
  rw [decodeText_toUTF8] at hread
  exact .file hread (by with_unfolding_all rfl) (Settings.check_eq_ok_iff.1 (by decide))

/-- The target is an argument, the class name a setting, and a warning does no harm; but nothing is
written where there is no directory. -/
theorem run_all_or_nothing_spareTree :
    run .standard FileTree.access (some "s.toml") ["a.test", "-tjunit"] spareTree =
      ({ exitCode := 0
         stdout := "Successfully generated B.java\n"
         stderr := "Warning: Variable 'x' is declared but never used\n" },
        spareTree.put ["B.java"] ((Dialect.junit "B").suite spareVariable)) ∧
    ∃ stderr, run .standard FileTree.access (some "s.toml") ["a.test", "no/B.java"] spareTree =
      ({ exitCode := 1, stdout := "", stderr }, spareTree) := by
  constructor
  · have hall : Accomplishes .standard FileTree.system spareTree (some "s.toml")
        { input := "a.test", target := some .junit }
        ⟨"a.test", "B.java", ⟨.junit, "B"⟩⟩
        ⟨(Dialect.junit "B").suite spareVariable, [.unusedVariable "x"]⟩
        (spareTree.put ["B.java"] ((Dialect.junit "B").suite spareVariable)) :=
      { merged := ⟨_, loads_spareTree, Job.merges_iff.2 rfl⟩
        achieved :=
          { compiled := ⟨_, read_spareTree,
              compile_print wellFormed_spareVariable _ (by decide) rfl⟩
            written := rfl } }
    exact ((run_all_or_nothing .standard FileTree.system spareTree _ rfl).2.1 _ _ _ hall).1
  · refine (run_all_or_nothing .standard FileTree.system spareTree _ rfl).2.2 ?_
    rintro ⟨job, output, after, ⟨settings, hloads, hmerges⟩, -, hwritten⟩
    obtain rfl := hloads.unique loads_spareTree
    obtain rfl := Job.merges_iff.1 hmerges
    cases hwritten

end CommandLine

end HttpSuite
