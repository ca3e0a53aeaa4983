/-
**The order of the files on a command line.**

A run comes to its end if its batch has no errors and if nothing is wrong with the files that the
command line names, once their bodies are parsed and their members are checked.  The latter depends
on each file by itself, and the former does not depend on the order of the files where the batch is
straight.

Main definitions:

* `ReadsAs` — a command line is read as some options;
* `Request.ofOptions` — what a command line with some options asks for;
* `Request.PlacesAlike` — the files that are named are parsed alike at all places.

Main results:

* `check_isBroken_iff` — when a unit is in order;
* `findsNoErrors_iff` — when a run finds no errors in a batch with every file once;
* `Request.findsNoErrors_perm` — **a run finds no errors in one order of the files if it finds none in
  another**;
* `run_permuted` — **the order of the files does not decide whether a run comes to its end**;
* `not_permuted_companion` — in a batch that is not straight it does.
-/

import JavaOutline.Proofs.RepeatedArgument
import JavaOutline.Proofs.StraightBatch

set_option autoImplicit false

namespace JavaOutline

open SourceFrontEnd

/-! ### Units in order -/

/-- The problems of members are errors. -/
theorem repeatedFrom_errors (typeName : String) (fields methods : List String)
    (members : List Member) :
    ∀ problem ∈ repeatedFrom typeName fields methods members, problem.isError = true := by
  induction members generalizing fields methods with
  | nil => exact fun _ h => nomatch h
  | cons first members ih =>
      cases first with
      | field decl =>
          refine List.forall_mem_append.2 ⟨fun problem hproblem => ?_, ih _ _⟩
          obtain ⟨repeated, -, rfl⟩ := List.mem_map.1 hproblem
          rfl
      | method decl =>
          refine List.forall_mem_append.2 ⟨fun problem hproblem => ?_, ih _ _⟩
          split at hproblem
          · rw [List.mem_singleton.1 hproblem]
            rfl
          · cases hproblem
      | initializer decl => exact ih _ _
      | type decl => exact ih _ _
      | enumConstant decl => exact ih _ _

theorem memberProblems_errors (outline : Outline) (stem : String) :
    ∀ problem ∈ outline.memberProblems stem, problem.isError = true := by
  refine List.forall_mem_append.2 ⟨fun problem hproblem => ?_, fun problem hproblem => ?_⟩
  · obtain ⟨t, -, rfl⟩ := List.mem_map.1 hproblem
    rfl
  · obtain ⟨t, -, hfound⟩ := List.mem_flatMap.1 hproblem
    exact repeatedFrom_errors t.name [] [] t.members problem hfound

/-- **When a unit is in order**: its bodies are parsed without errors and its members are in order. -/
theorem check_isBroken_iff {unit : CompilationUnit} {text : String} {outline : Outline}
    (hsound : unit.isBroken = false) (hsource : unit.source = some text)
    (houtline : unit.outline = some outline) :
    (check (completeBodies unit)).isBroken = false ↔
      (outline.complete text).2 = [] ∧
        (outline.complete text).1.memberProblems (Path.fileStem unit.file) = [] := by
  let completed : CompilationUnit :=
    { unit with
      outline := some (outline.complete text).1
      report := recordSyntaxErrors unit.report (outline.complete text).2 }
  have hbodies : completeBodies unit = completed := by
    simp only [completeBodies, houtline, hsource, completed]
  have hcheck : check (completeBodies unit) = completed.recordAll
      ((outline.complete text).1.memberProblems (Path.fileStem unit.file)) := by
    rw [hbodies]
    rfl
  rw [hcheck]
  constructor
  · intro hchecked
    constructor
    · cases herrors : (outline.complete text).2 with
      | nil => rfl
      | cons e errors =>
          have hbroken : completed.isBroken = true := by
            simp only [CompilationUnit.isBroken, CompilationUnit.hasSyntaxError, completed, herrors,
              hasSyntaxError_recordSyntaxErrors, Bool.true_or]
          rw [CompilationUnit.isBroken_recordAll _ hbroken] at hchecked
          cases hchecked
    · refine Decidable.byContradiction fun hproblems => ?_
      rw [completed.isBroken_recordAll_error (memberProblems_errors _ _) hproblems] at hchecked
      cases hchecked
  · rintro ⟨herrors, hproblems⟩
    rw [hproblems, ← hsound]
    simp only [completed, herrors]
    rfl

/-! ### Batches in which every file is there once -/

/-- **When a run finds no errors in a batch with every file once**, if none of them was handled
before: the batch has no errors, and the units that are asked for are in order. -/
theorem findsNoErrors_iff {state : Completion} {options : Options} {session : Session}
    (hdistinct : state.registry.files.Nodup) (hnew : ∀ file, session.isProcessed file = false) :
    FindsNoErrors session (state.batch options) ↔
      state.Clean ∧ ∀ unit ∈ state.registry.units, unit.file ∈ options.files →
        (check (completeBodies unit)).isBroken = false := by
  have hfiles : state.registry.unplaced.filterMap (Option.map CompilationUnit.file) =
      state.registry.files := by
    rw [Registry.unplaced, Registry.files, Registry.units, List.filterMap_map, List.map_filterMap]
    refine congrArg (state.registry.slots.filterMap ·) (funext fun slot => ?_)
    cases slot <;> rfl
  -- No unit counts as handled because of one ahead of it, so each is seen by itself.
  have hviews : batchSights session (state.batch options) =
      state.registry.unplaced.map
        (Option.map (sight session (state.batch options).isRequested [])) :=
    sights_distinct (hfiles.symm ▸ hdistinct) fun _ _ => List.not_mem_nil
  have hmem (unit : CompilationUnit) : unit ∈ state.registry.units ↔
      some unit ∈ state.registry.slots := by
    simp [Registry.units]
  have hwanted (unit : CompilationUnit) :
      (state.batch options).isRequested unit.file = true ↔ unit.file ∈ options.files := by
    simp [Batch.isRequested, Completion.batch]
  have hsight (unit : CompilationUnit) (hfile : unit.file ∈ options.files) :
      (sight session (state.batch options).isRequested [] unit.unplaced).1 =
        (check (completeBodies unit)).unplaced := by
    have hrequested : (state.batch options).isRequested unit.unplaced.file = true :=
      (hwanted unit).2 hfile
    simp [sight, hnew, hrequested, unplaced_check]
  constructor
  · intro h
    refine ⟨h.clean, fun unit hunit hfile => ?_⟩
    have hview : some (sight session (state.batch options).isRequested [] unit.unplaced) ∈
        batchSights session (state.batch options) := by
      rw [hviews]
      refine List.mem_map.2 ⟨some unit.unplaced, ?_, rfl⟩
      exact List.mem_map.2 ⟨some unit, (hmem unit).1 hunit, rfl⟩
    have hsound := h.sound _ hview
    rw [hsight unit hfile] at hsound
    exact hsound
  · rintro ⟨hclean, hchecked⟩
    refine ⟨hclean.errors, fun view hview => ?_⟩
    rw [hviews] at hview
    obtain ⟨moved, hmoved, hsome⟩ := List.mem_map.1 hview
    obtain ⟨found, rfl, rfl⟩ := Option.map_eq_some_iff.1 hsome
    obtain ⟨slot, hslot, hfound⟩ := List.mem_map.1 hmoved
    obtain ⟨unit, rfl, rfl⟩ := Option.map_eq_some_iff.1 hfound
    have hunit := (hmem unit).2 hslot
    by_cases hfile : unit.file ∈ options.files
    · rw [hsight unit hfile]
      exact hchecked unit hunit hfile
    · have hrequested : (state.batch options).isRequested unit.unplaced.file = false :=
        Bool.eq_false_iff.2 fun htrue => hfile ((hwanted unit).1 htrue)
      have hsound := (Completion.clean_iff.1 hclean).2 unit hunit
      simp only [sight, hnew, hrequested, List.contains_nil, Bool.or_self, Bool.false_eq_true,
        if_false]
      exact hsound

/-! ### Two orders -/

namespace Request

variable {request : Request}

/-- The files that are named are parsed alike at all places. -/
def PlacesAlike (request : Request) : Prop :=
  ∀ file ∈ request.files, ∀ text, request.textOf file = some text →
    ParsedAlike request.reading.parseThreshold request.files.length text

section

variable (hfresh : request.Fresh) {names : List String} (hperm : names.Perm request.files)
  (hclean : (request.compiled names).Clean)

include hfresh hperm hclean

/-- A batch without errors is tidy. -/
theorem tidy_compiled : request.Tidy (request.compiled names) ∧
    ∀ file ∈ request.files, file ∈ (request.compiled names).registry.files := by
  have hextends : (request.entered names).Extends (request.compiled names) :=
    completeFrom_extends _ 0 _
  have hentered := hextends.clean hclean
  have hnamed := contains_entered hfresh hperm hentered
  refine ⟨tidy_completeFrom hnamed (fun _ => (tidy_entered hfresh hperm hentered).1) _ hclean,
    fun file hfile => ?_⟩
  exact Registry.contains_iff_mem.1 (hextends.contains (hnamed file hfile))

/-- If the units that are asked for are in order, the files are sound wherever they stand. -/
theorem sound_of_checked (halike : request.PlacesAlike)
    (hchecked : ∀ unit ∈ (request.compiled names).registry.units, unit.file ∈ request.files →
      (check (completeBodies unit)).isBroken = false) : request.Sound := by
  obtain ⟨htidy, hnamed⟩ := tidy_compiled hfresh hperm hclean
  intro file hfile
  obtain ⟨unit, hunit, rfl⟩ := List.mem_map.1 (hnamed file hfile)
  obtain ⟨text, place, htext, hplace, herrors, hsource, houtline⟩ := htidy.shows unit hunit
  have hsound := (Completion.clean_iff.1 htidy.clean).2 unit hunit
  obtain ⟨hbodies, hmembers⟩ :=
    (check_isBroken_iff hsound hsource houtline).1 (hchecked unit hunit hfile)
  have hfirst : SourceSound unit.file text (request.dietAt unit.file place) :=
    ⟨herrors, hbodies, hmembers⟩
  rw [dietAt_named hfile] at hfirst
  -- The unit stands at one place; what is true there carries over to all others.
  have hmoved (other : Nat) (hother : other < request.files.length) :=
    hfirst.moved (halike unit.file hfile text htext) (hplace hfile) hother
  refine ⟨text, htext, fun other hother => ?_⟩
  rw [dietAt_named hfile, dietAt_named hfile]
  obtain ⟨hthere, hdeclared, hreferences⟩ := hmoved other hother
  obtain ⟨-, hdeclared', hreferences'⟩ := hmoved 0 (List.length_pos_of_mem hfile)
  exact ⟨hthere, hdeclared.trans hdeclared'.symm, hreferences.trans hreferences'.symm⟩

end

/-- The unit of a sound file is in order. -/
theorem Sound.checked (hsound : request.Sound) {state : Completion} (htidy : request.Tidy state)
    {unit : CompilationUnit} (hunit : unit ∈ state.registry.units)
    (hfile : unit.file ∈ request.files) : (check (completeBodies unit)).isBroken = false := by
  obtain ⟨text, place, htext, hplace, -, hsource, houtline⟩ := htidy.shows unit hunit
  obtain ⟨found, hfound, hplaces⟩ := hsound unit.file hfile
  obtain rfl : found = text := Option.some.inj (hfound.symm.trans htext)
  obtain ⟨hthere, -⟩ := hplaces place (hplace hfile)
  have hclean := (Completion.clean_iff.1 htidy.clean).2 unit hunit
  exact (check_isBroken_iff hclean hsource houtline).2 ⟨hthere.bodies, hthere.members⟩

/-- A file is added only if it is not there, so a batch has every file once if the command line has. -/
theorem nodup_files {names : List String} (hdistinct : names.Nodup) :
    (request.compiled names).registry.files.Nodup := by
  have hentered : (request.entered names).registry.files = names :=
    (entered_holds ..).files_eq.trans (List.append_nil _)
  have hkept : KeptByLoading request.tree (request.entered names)
      fun state => state.registry.files.Nodup := by
    intro state path hstart h _ hnew
    have hcollecting := hstart.collecting.trans collecting_entered
    simp only [files_loadClosure hcollecting hnew]
    exact Registry.nodup_append h hnew
  refine completeFrom_kept hkept (fun state index problems h => ?_) (.refl _)
    (hentered.symm ▸ hdistinct) _ 0
  exact (Registry.files_record ..).symm ▸ h

/-- **A run finds no errors in one order of the files if it finds none in another.** -/
theorem findsNoErrors_perm (hfresh : request.Fresh) (halike : request.PlacesAlike)
    (hstraight : request.Straight) (hdistinct : request.files.Nodup) {names others : List String}
    (hnames : names.Perm request.files) (hothers : others.Perm request.files)
    {options options' : Options} (hfiles : options.files = names) (hfiles' : options'.files = others)
    {session session' : Session} (hnew : ∀ file, session.isProcessed file = false)
    (hnew' : ∀ file, session'.isProcessed file = false)
    (h : FindsNoErrors session ((request.compiled names).batch options)) :
    FindsNoErrors session' ((request.compiled others).batch options') := by
  have hnodup : (request.compiled names).registry.files.Nodup :=
    nodup_files (hnames.nodup_iff.2 hdistinct)
  obtain ⟨hclean, hchecked⟩ := (findsNoErrors_iff hnodup hnew).1 h
  have hsound := sound_of_checked hfresh hnames hclean halike fun unit hunit hfile =>
    hchecked unit hunit (hfiles ▸ hnames.mem_iff.2 hfile)
  have hbelow := compiled_perm hfresh hsound hstraight hdistinct hnames hothers hclean
  refine (findsNoErrors_iff hbelow.distinct hnew').2 ⟨hbelow.tidy.clean, fun unit hunit hfile => ?_⟩
  exact hsound.checked hbelow.tidy hunit (hothers.mem_iff.1 (hfiles' ▸ hfile))

end Request

/-! ### Runs -/

/-- A command line is read as some options. -/
def ReadsAs (session : Session) (style : FlagStyle) (arguments : List String) (options : Options) :
    Prop :=
  ∃ remaining, (session.filterArguments style arguments).value.1 = .ok remaining ∧
    Options.parse remaining = .ok options

/-- What a command line with some options asks for. -/
def Request.ofOptions (tree : FileTree) (reading : ReadingPreferences) (front : SourceFrontEnd)
    (options : Options) : Request where
  tree
  reading
  files := options.files
  front := front.configured options

section

variable (tree : FileTree) (settings : RunSettings) {state : RunState SourceFrontEnd TreeBuilder}
  (hnew : state.session.processed = []) (hpending : state.builder.pending = [])
  {arguments others : List String} {options : Options}
  (hread : ReadsAs state.session settings.flag arguments options)

include hnew hpending hread

/-- A run that handled nothing before comes to its end exactly if it finds no errors in its batch. -/
theorem run_ok_iff :
    ∃ session : Session, (∀ file, session.isProcessed file = false) ∧
      ((∃ outcome, (run (sourceFrontEnd tree) treeBuilder tree settings arguments
          state).value.1 = .ok outcome) ↔
        FindsNoErrors session
          ((compiledFor tree settings.reading state.front options).batch options)) := by
  obtain ⟨remaining, hfilter, hoptions⟩ := hread
  obtain ⟨⟨level, hlevel⟩, -⟩ := filterArguments_session settings.flag state.session arguments
  have hline : commandLine (sourceFrontEnd tree) tree settings arguments state = _ :=
    commandLine_compiledFor (Prod.ext hfilter hlevel) hoptions
  let last := compiledFor tree settings.reading state.front options
  let session : Session := { state.session with verbosity := level }
  obtain ⟨added, hholds⟩ : ∃ added, Holds options.files added (last.batch options).registry
      (last.batch options).globalErrors :=
    compiledFor_holds tree settings.reading state.front options
  refine ⟨session, fun file => ?_, ?_⟩
  · simp [session, Session.isProcessed, hnew]
  · rw [value_run, hline]
    exact (runBatch_sights tree { state with front := last.front, session } hholds hpending).1

/-- **The order of the files on a command line does not decide whether a run comes to its end**, if the
batch is straight and the files are parsed alike at all places. -/
theorem run_permuted {files : List String}
    (hothers : ReadsAs state.session settings.flag others { options with files })
    (hperm : files.Perm options.files) (hdistinct : options.files.Nodup)
    (hstraight : (Request.ofOptions tree settings.reading state.front options).Straight)
    (halike : (Request.ofOptions tree settings.reading state.front options).PlacesAlike) :
    (∃ outcome, (run (sourceFrontEnd tree) treeBuilder tree settings others state).value.1 =
        .ok outcome) ↔
      ∃ outcome, (run (sourceFrontEnd tree) treeBuilder tree settings arguments state).value.1 =
        .ok outcome := by
  have hfresh : (Request.ofOptions tree settings.reading state.front options).Fresh := ⟨rfl, rfl⟩
  obtain ⟨session, hfirst, hends⟩ := run_ok_iff tree settings hnew hpending hread
  obtain ⟨session', hfirst', hends'⟩ := run_ok_iff tree settings hnew hpending hothers
  rw [hends, hends']
  constructor
  · exact Request.findsNoErrors_perm hfresh halike hstraight hdistinct hperm (.refl _) rfl rfl
      hfirst' hfirst
  · exact Request.findsNoErrors_perm hfresh halike hstraight hdistinct (.refl _) hperm rfl rfl
      hfirst hfirst'

end

/-- Two files, and what they import in a file of its own each. -/
def importingTree : FileTree where
  entries := [(["A.java"], .file "import lib.M; class A \x7b \x7d".toUTF8),
    (["B.java"], .file "import lib.L; class B \x7b \x7d".toUTF8),
    (["sp"], .directory), (["sp", "lib"], .directory),
    (["sp", "lib", "L.java"], .file "package lib; class L \x7b \x7d".toUTF8),
    (["sp", "lib", "M.java"], .file "package lib; class M \x7b \x7d".toUTF8)]

/-- The same with both types in one file. -/
def companionTree : FileTree where
  entries := [(["A.java"], .file "import lib.M; class A \x7b \x7d".toUTF8),
    (["B.java"], .file "import lib.L; class B \x7b \x7d".toUTF8),
    (["sp"], .directory), (["sp", "lib"], .directory),
    (["sp", "lib", "L.java"], .file "package lib; class L \x7b \x7d class M \x7b \x7d".toUTF8)]

/-- The options of the command lines below. -/
def onSourcepath (files : List String) : Options := { files, sourcepath := ["sp"] }

theorem readsAs_onSourcepath :
    ReadsAs {} {} ["-sourcepath", "sp", "A.java", "B.java"] (onSourcepath ["A.java", "B.java"]) ∧
      ReadsAs {} {} ["-sourcepath", "sp", "B.java", "A.java"]
        (onSourcepath ["B.java", "A.java"]) := by
  constructor
  · exact ⟨["-sourcepath", "sp", "A.java", "B.java"], eq_ok_of_toOption (by decide +kernel),
      eq_ok_of_toOption (by decide +kernel)⟩
  · exact ⟨["-sourcepath", "sp", "B.java", "A.java"], eq_ok_of_toOption (by decide +kernel),
      eq_ok_of_toOption (by decide +kernel)⟩

/-- Two files that import from the sourcepath can be named in either order. -/
theorem run_permuted_importing :
    (Request.ofOptions importingTree {} {} (onSourcepath ["A.java", "B.java"])).Straight ∧
      (∃ outcome, (run (sourceFrontEnd importingTree) treeBuilder importingTree {}
        ["-sourcepath", "sp", "A.java", "B.java"] freshState).value.1 = .ok outcome) ∧
      ∃ outcome, (run (sourceFrontEnd importingTree) treeBuilder importingTree {}
        ["-sourcepath", "sp", "B.java", "A.java"] freshState).value.1 = .ok outcome := by
  obtain ⟨hread, hothers⟩ := readsAs_onSourcepath
  have hstraight :
      (Request.ofOptions importingTree {} {} (onSourcepath ["A.java", "B.java"])).Straight :=
    Request.straight_within ["A.java", "B.java", "sp/lib/L.java", "sp/lib/M.java"]
      (by decide +kernel) (by decide +kernel) (by decide +kernel)
  have halike :
      (Request.ofOptions importingTree {} {} (onSourcepath ["A.java", "B.java"])).PlacesAlike :=
    fun _ _ _ _ => .inr (.inl (by decide))
  have hperm : ["B.java", "A.java"].Perm (onSourcepath ["A.java", "B.java"]).files := .swap _ _ _
  have hsame := run_permuted importingTree {} (rfl : freshState.session.processed = []) rfl hread
    hothers hperm (by decide) hstraight halike
  have hends : (run (sourceFrontEnd importingTree) treeBuilder importingTree {}
      ["-sourcepath", "sp", "A.java", "B.java"] freshState).value.1.toOption.isSome = true := by
    decide +kernel
  obtain ⟨outcome, houtcome⟩ := Option.isSome_iff_exists.1 hends
  have hfirst := eq_ok_of_toOption houtcome
  exact ⟨hstraight, ⟨outcome, hfirst⟩, hsame.2 ⟨outcome, hfirst⟩⟩

/-- A type that stands in the file of another one is found only behind that one: the file that imports
it must not be named first. -/
theorem not_permuted_companion :
    ReadsAs {} {} ["-sourcepath", "sp", "A.java", "B.java"] (onSourcepath ["A.java", "B.java"]) ∧
      ReadsAs {} {} ["-sourcepath", "sp", "B.java", "A.java"]
        (onSourcepath ["B.java", "A.java"]) ∧
      ["A.java", "B.java"].Nodup ∧ ["B.java", "A.java"].Perm ["A.java", "B.java"] ∧
      ¬ ((∃ outcome, (run (sourceFrontEnd companionTree) treeBuilder companionTree {}
          ["-sourcepath", "sp", "B.java", "A.java"] freshState).value.1 = .ok outcome) ↔
        ∃ outcome, (run (sourceFrontEnd companionTree) treeBuilder companionTree {}
          ["-sourcepath", "sp", "A.java", "B.java"] freshState).value.1 = .ok outcome) := by
  refine ⟨readsAs_onSourcepath.1, readsAs_onSourcepath.2, by decide, .swap _ _ _, fun h => ?_⟩
  have hfails : (run (sourceFrontEnd companionTree) treeBuilder companionTree {}
      ["-sourcepath", "sp", "A.java", "B.java"] freshState).value.1.toOption.isSome = false := by
    decide +kernel
  have hends : (run (sourceFrontEnd companionTree) treeBuilder companionTree {}
      ["-sourcepath", "sp", "B.java", "A.java"] freshState).value.1.toOption.isSome = true := by
    decide +kernel
  obtain ⟨outcome, houtcome⟩ := Option.isSome_iff_exists.1 hends
  obtain ⟨other, hother⟩ := h.1 ⟨outcome, eq_ok_of_toOption houtcome⟩
  rw [hother] at hfails
  cases hfails

end JavaOutline
