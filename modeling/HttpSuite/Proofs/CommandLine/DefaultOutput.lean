import HttpSuite.Proofs.CommandLine
import HttpSuite.Proofs.Layout.Frames

/-!
# The output of a run that is given none

The file that a run writes when it is not told which one is named before anything is checked, after
a class name that may be any text.  It is written only if the input compiles, and nothing compiles
under a class name that is no word.  So the file is one plain name, it stands in the directory of
the run, and its name is that of the class that stands in it.

## Main definitions

* `Text.isFileName`: a plain file name, which leads nowhere else.
* `Text.ledBy`: the lines that start with a text.
* `CommandLine.DefaultOutput`: what is written, and to which file, if no file is named.

## Main results

* `FileTree.target_of_isFileName`: a plain name is written in the directory of the run.
* `Dialect.Junit.classLines_suite`: a suite declares one class, of the name that it was given.
* `CommandLine.run_default_output`: where a run without a path has written.
-/

namespace HttpSuite

open Text

/-! ## File names -/

namespace Text

/-- A letter or underscore, then letters, digits, underscores and dots. -/
def isFileName (path : String) : Bool :=
  match path.toList with
  | [] => false
  | c :: cs => isWordStart c && cs.all fun d => isWordPart d || d == '.'

private theorem isFileName_append {name ending : String} (hname : isIdentifier name = true)
    (hending : ending.toList.all (fun d => isWordPart d || d == '.') = true) :
    isFileName (name ++ ending) = true := by
  obtain ⟨c, cs, hcons, hstart, hparts⟩ := isIdentifier_iff.1 hname
  have hword : cs.all (fun d => isWordPart d || d == '.') = true :=
    List.all_eq_true.2 fun d hd => by rw [hparts d hd, Bool.true_or]
  rw [isFileName, String.toList_append, hcons]
  simp only [List.cons_append, List.all_append, hstart, hword, hending, Bool.and_self]

/-- No separator stands in a file name. -/
private theorem slash_not_mem_of_isFileName {path : String} (h : isFileName path = true) :
    '/' ∉ path.toList := by
  unfold isFileName at h
  split at h
  · cases h
  · next c cs hcons =>
    rw [Bool.and_eq_true, List.all_eq_true] at h
    rw [hcons, List.mem_cons, not_or]
    constructor
    · rintro rfl
      exact absurd h.1 (by decide)
    · intro hmem
      exact absurd (h.2 '/' hmem) (by decide)

private theorem ne_empty_of_isFileName {path : String} (h : isFileName path = true) :
    path ≠ "" := by
  rintro rfl
  cases h

end Text

/-- A plain name is written in the directory of the run. -/
theorem FileTree.target_of_isFileName {tree : FileTree} {path : String} {place : Location}
    (h : isFileName path = true) (htarget : tree.target path = .ok place) : place = [path] := by
  obtain ⟨name, directory, hname, hfollow, rfl, -⟩ := target_eq_ok htarget
  have hslash := slash_not_mem_of_isFileName h
  have hnames : (namesOf path).filter (· ≠ "") = [path] := by
    rw [namesOf, List.splitOn_eq_singleton hslash, List.map_singleton, String.ofList_toList]
    exact List.filter_cons_of_pos (by simpa using ne_empty_of_isFileName h)
  have horigin : origin path = [] :=
    if_neg fun hhead => hslash (List.mem_of_mem_head? hhead)
  -- The directory of the run is always there, so the way to the file is empty.
  have hstay : tree.follow [] ["."] = .ok [] := rfl
  rw [hnames] at hname hfollow
  rw [horigin, List.dropLast_singleton, List.nil_append, hstay] at hfollow
  cases hname
  cases hfollow
  rfl

/-! ## The class of a suite -/

namespace Text

/-- The lines that start with a text. -/
def ledBy (lead : String) (these : List String) : List String :=
  these.filter fun line => lead.toList <+: line.toList

private theorem ledBy_singleton {lead line : String} {before behind : List String}
    (hbefore : ∀ other ∈ before, ¬ lead.toList <+: other.toList) (hline : Led lead line)
    (hbehind : ∀ other ∈ behind, ¬ lead.toList <+: other.toList) :
    ledBy lead (before ++ line :: behind) = [line] := by
  have hlead : lead.toList <+: line.toList := by
    obtain ⟨rest, -, rfl⟩ := hline
    rw [String.toList_append]
    exact List.prefix_append _ _
  rw [ledBy, List.filter_append, List.filter_eq_nil_iff.2 (by simpa using hbefore),
    List.filter_cons_of_pos (by simpa using hlead),
    List.filter_eq_nil_iff.2 (by simpa using hbehind), List.nil_append]

end Text

namespace Dialect.Junit

/-- How the line that declares the class starts. -/
def classLead : String := "public class "

/-- The line declares no class. -/
def Classless (line : String) : Prop := ¬ classLead.toList <+: line.toList

theorem classless_of_indented {line : String} (h : Led indent line) : Classless line :=
  h.not_starts (by decide)

/-- Fixed lines that declare no class, one by one. -/
theorem classless_cons {chars : List Char} {these : List String}
    (h : ¬ classLead.toList <+: chars) (hthese : ∀ line ∈ these, Classless line) :
    ∀ line ∈ String.ofList chars :: these, Classless line :=
  List.forall_mem_cons.2 ⟨by rwa [Classless, String.toList_ofList], hthese⟩

theorem classless_fixed :
    ∀ line ∈ imports ++ fields ++ setupStart ++ methodEnd, Classless line := by
  simp only [imports, fields, setupStart, methodEnd, List.cons_append, List.nil_append]
  repeat refine classless_cons (by decide) ?_
  exact List.forall_mem_nil _

/-- The lines behind that of the class, up to the setup, declare no other. -/
private theorem classless_behind (p : Program) : ∀ line ∈ "" ::
    ("    static String BASE = \"" ++ p.shared.baseUrl ++ "\";") :: fields, Classless line := by
  have hfixed := classless_fixed
  simp only [List.forall_mem_append] at hfixed
  obtain ⟨⟨⟨-, hfields⟩, -⟩, -⟩ := hfixed
  exact classless_cons (by decide)
    (List.forall_mem_cons.2 ⟨(led_base p).not_starts (by decide), hfields⟩)

theorem classless_setup (p : Program) : ∀ line ∈ setup p.shared, Classless line := by
  have hfixed := classless_fixed
  simp only [List.forall_mem_append] at hfixed
  obtain ⟨⟨-, hstart⟩, hend⟩ := hfixed
  simp only [setup, Program.shared, List.forall_mem_append, List.forall_mem_singleton,
    List.forall_mem_map]
  exact ⟨⟨⟨hstart, classless_of_indented led_client⟩,
    fun h _ => classless_of_indented (led_sharedHeader h)⟩, hend⟩

theorem classless_testLines (className : String) (s : Substitution) {t : Test}
    (hname : OneLine t.name) :
    ∀ line ∈ (Dialect.junit className).testLines s t, Classless line := by
  have hopening : Led "    void " ("    void " ++ (testNameStart ++ t.name)
      ++ "() throws Exception \x7b") :=
    (led_append (Framed.oneLine_name hname)).append (by decide)
  have hbody : ∀ line ∈ (Dialect.junit className).bodyLines s t, Classless line := by
    refine forall_mem_statementLines _ s (fun first r => ?_)
      (fun a => classless_of_indented (led_assertion s a)) true t.statements
    obtain ⟨front, hrequest, hfront⟩ := led_request first s r
    show ∀ line ∈ request first (r.resolve s), _
    rw [hrequest]
    refine List.forall_mem_append.2 ⟨fun line hline => ?_, ?_⟩
    · exact classless_of_indented (hfront line hline)
    · exact classless_cons (by decide) (List.forall_mem_nil _)
  simp only [testLines, List.forall_mem_append]
  refine ⟨⟨classless_cons (by decide) ?_, hbody⟩, ?_⟩
  · exact List.forall_mem_singleton.2 (hopening.not_starts (by decide))
  · exact (List.forall_mem_append.1 classless_fixed).2

/-- A suite declares one class, of the name that it was given. -/
theorem classLines_suite {className : String} (hname : OneLine className) {p : Program}
    (htests : p.tests ≠ []) (hnames : ∀ t ∈ p.tests, OneLine t.name) :
    ledBy classLead (lines ((Dialect.junit className).suite p)) =
      ["public class " ++ className ++ " \x7b"] := by
  have hfixed := classless_fixed
  simp only [List.forall_mem_append] at hfixed
  obtain ⟨⟨⟨himports, -⟩, -⟩, -⟩ := hfixed
  have htestLines : ∀ line ∈ (Dialect.junit className).testsLines p, Classless line := by
    intro line hline
    obtain ⟨t, ht, hline⟩ := List.mem_flatMap.1 hline
    exact classless_testLines className _ (hnames t ht) line hline
  have hclosing : ∀ line ∈ frame.closing, Classless line :=
    classless_cons (by decide) (classless_cons (by decide) (List.forall_mem_nil _))
  have hlines : lines ((Dialect.junit className).suite p) =
      imports ++ ("public class " ++ className ++ " \x7b") ::
        ("" :: ("    static String BASE = \"" ++ p.shared.baseUrl ++ "\";") :: fields
          ++ setup p.shared ++ (Dialect.junit className).testsLines p ++ frame.closing) := by
    rw [(framed hname).lines_suite htests hnames]
    show preamble className p.shared ++ setup p.shared ++ _ ++ _ = _
    simp only [preamble, List.append_assoc, List.cons_append, List.nil_append]
  rw [hlines]
  refine ledBy_singleton himports (led_class hname) ?_
  rw [List.forall_mem_append, List.forall_mem_append, List.forall_mem_append]
  exact ⟨⟨⟨classless_behind p, classless_setup p⟩, htestLines⟩, hclosing⟩

end Dialect.Junit

/-! ## Runs without a path -/

namespace CommandLine

/-- What is written, and to which file, if neither the arguments nor the settings name one. -/
structure DefaultOutput (asked : Arguments) (settings : Settings) (options : Options)
    (output : Output) (path : String) : Prop where
  target : Prevails asked.target settings.target .junit options.target
  className : Prevails asked.className settings.className "GeneratedTests" options.className
  isIdentifier : isIdentifier options.className = true
  junit : options.target = .junit → path = options.className ++ ".java" ∧
    ledBy "public class " (lines output.source) = ["public class " ++ options.className ++ " \x7b"]
  rust : options.target = .rust → path = "generated_tests.rs"
  isFileName : isFileName path = true

/-- The file is named after what is written to it. -/
private theorem defaultOutput_of_compile {asked : Arguments} {settings : Settings} {job : Job}
    (hmerges : job.Merges asked settings) (hasked : asked.output = none)
    (hsettings : settings.output = none) {source : String} {output : Output}
    (hcompile : compile source job.options = .ok output) :
    DefaultOutput asked settings job.options output job.output := by
  obtain ⟨hname, p, diagnostics, hparse, -, rfl⟩ := compile_eq_ok_iff.1 hcompile
  have hp := Program.wellFormed_of_parse hparse
  have houtput : job.output = job.options.outputFile := by
    have hprevails := hmerges.output
    rw [hasked, hsettings, prevails_iff] at hprevails
    exact hprevails.symm
  have hjunit (htarget : job.options.target = .junit) :
      job.output = job.options.className ++ ".java" := by
    rw [houtput, Options.outputFile, htarget]
  have hrust (htarget : job.options.target = .rust) : job.output = "generated_tests.rs" := by
    rw [houtput, Options.outputFile, htarget]
    rfl
  refine ⟨hmerges.target, hmerges.className, hname, fun htarget => ⟨hjunit htarget, ?_⟩, hrust, ?_⟩
  · rw [htarget]
    exact Dialect.Junit.classLines_suite (oneLine_of_isIdentifier hname) hp.hasTest
      fun t ht => oneLine_of_isIdentifier (hp.testName t ht).1
  · cases htarget : job.options.target with
    | junit =>
      rw [hjunit htarget]
      exact isFileName_append hname (by decide)
    | rust =>
      rw [hrust htarget]
      decide

/-- A run that succeeds without a path has written one plain file, in the directory of the run. For
JUnit it is the file of the class that it declares, whose name is a word and comes from the
arguments, else from the settings, and else is fixed; for Rust it is a file of a fixed name. -/
theorem run_default_output (conventions : Conventions) (fs : FileSystem) (state : fs.State)
    (settingsPath : Option String) {arguments : List String} {asked : Arguments}
    {settings : Settings} (h : conventions.parse arguments = .ok asked)
    (hloads : Settings.Loads conventions.settings (fs.read state) (asked.config <|> settingsPath)
      settings)
    (hasked : asked.output = none) (hsettings : settings.output = none)
    (hexit : (run conventions fs.access settingsPath arguments state).1.exitCode = 0) :
    ∃ options output path after, DefaultOutput asked settings options output path ∧
      (∃ source, fs.read state asked.input = .ok source ∧ compile source options = .ok output) ∧
      run conventions fs.access settingsPath arguments state =
        ({ exitCode := 0
           stdout := "Successfully generated " ++ path ++ "\n"
           stderr := unlines (output.diagnostics.map Diagnostic.display) }, after) ∧
      (∃ place, fs.locate? state path = some place ∧
        Overwrites fs.content? state after place output.source) ∧
      ∀ (tree : FileTree) (place : Location), tree.target path = .ok place → place = [path] := by
  obtain ⟨job, output, after, hall⟩ := (exitCode_eq_zero_iff h).1 hexit
  obtain ⟨settings', hloads', hmerges⟩ := hall.merged
  obtain rfl := hloads.unique hloads'
  obtain ⟨source, hread, hcompile⟩ := hall.achieved.compiled
  have hdefault := defaultOutput_of_compile hmerges hasked hsettings hcompile
  rw [hmerges.input] at hread
  exact ⟨job.options, output, job.output, after, hdefault, ⟨source, hread, hcompile⟩,
    run_of_accomplishes h hall, fs.write_of_ok hall.achieved.written,
    fun _ _ => FileTree.target_of_isFileName hdefault.isFileName⟩

/-- The class name is an argument, although the settings have another. -/
theorem run_default_output_spareTree :
    ∃ source after, run .standard FileTree.access (some "s.toml")
        ["a.test", "--class-name=C_1", "-tjunit"] spareTree =
        ({ exitCode := 0
           stdout := "Successfully generated C_1.java\n"
           stderr := "Warning: Variable 'x' is declared but never used\n" }, after) ∧
      ledBy "public class " (lines source) = ["public class C_1 \x7b"] ∧
      Overwrites FileTree.entry? spareTree after ["C_1.java"] source := by
  have hparse : Conventions.standard.parse ["a.test", "--class-name=C_1", "-tjunit"] =
      .ok { input := "a.test", target := some .junit, className := some "C_1" } := rfl
  have hall : Accomplishes .standard FileTree.system spareTree (some "s.toml")
      { input := "a.test", target := some .junit, className := some "C_1" }
      ⟨"a.test", "C_1.java", ⟨.junit, "C_1"⟩⟩
      ⟨(Dialect.junit "C_1").suite spareVariable, [.unusedVariable "x"]⟩
      (spareTree.put ["C_1.java"] ((Dialect.junit "C_1").suite spareVariable)) :=
    { merged := ⟨_, loads_spareTree, Job.merges_iff.2 rfl⟩
      achieved :=
        { compiled := ⟨_, read_spareTree,
            compile_print wellFormed_spareVariable _ (by decide) rfl⟩
          written := rfl } }
  have hrun := run_of_accomplishes hparse hall
  obtain ⟨⟨target, className⟩, output, path, after, hdefault, -, hrun', ⟨place, hlocate, hover⟩,
      -⟩ :=
    run_default_output .standard FileTree.system spareTree (some "s.toml") hparse loads_spareTree
      rfl rfl ((exitCode_eq_zero_iff hparse).2 ⟨_, _, _, hall⟩)
  obtain rfl : Target.junit = target := prevails_iff.1 hdefault.target
  obtain rfl : "C_1" = className := prevails_iff.1 hdefault.className
  obtain ⟨rfl, hclass⟩ := hdefault.junit rfl
  obtain rfl : ["C_1.java"] = place := Option.some.inj hlocate
  obtain rfl := congrArg Prod.snd (hrun'.symm.trans hrun)
  exact ⟨output.source, _, hrun, hclass, hover⟩

end CommandLine

end HttpSuite
