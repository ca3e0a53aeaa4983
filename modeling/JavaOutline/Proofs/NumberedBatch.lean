/-
**The places of a batch.**

The units of a batch that a command line asks for stand in line: first the files that the command line
names, in its order, and then the files of the sourcepath that units refer to, each of which stands
nowhere else.  Every unit knows its place, and so does the report on it.  A source that cannot be read
still has its place, and such sources are what the errors of the batch count.

Main definitions:

* `Completion.Numbered` — every unit knows its place, and the units without an outline are counted;
* `Completion.Distinct` — no file is added twice;
* `Registry.InLine` — the units of a registry stand in line behind the files of a command line.

Main results:

* `Completion.Numbered.add` — entering one more source keeps the numbers and the count;
* `compiled_numbered`, `compiled_distinct` — so does compiling a batch;
* `compile_inLine` — **the batch of a command line stands in line**.
-/

import JavaOutline.Proofs.RepeatedArgument
import JavaOutline.Proofs.TidyBatch

set_option autoImplicit false

namespace JavaOutline

open SourceFrontEnd

/-! ### Reports keep their place -/

/-- Noting a problem changes nothing about a report but what it holds of problems. -/
theorem UnitReport.record_eq (report : UnitReport) (problem : Problem) :
    ∃ problems suppressed, report.record problem = { report with problems, suppressed } := by
  unfold record
  split
  · exact ⟨_, _, rfl⟩
  · split
    · exact ⟨_, _, rfl⟩
    · exact ⟨_, _, rfl⟩

@[simp] theorem UnitReport.index_recordAll (report : UnitReport) (problems : List Problem) :
    (report.recordAll problems).index = report.index := by
  induction problems generalizing report with
  | nil => rfl
  | cons problem problems ih =>
      obtain ⟨kept, suppressed, hrecord⟩ := report.record_eq problem
      refine (ih (report.record problem)).trans ?_
      rw [hrecord]

@[simp] theorem index_recordSyntaxErrors (report : UnitReport) (errors : List SyntaxError) :
    (recordSyntaxErrors report errors).index = report.index := by
  induction errors generalizing report with
  | nil => rfl
  | cons e errors ih =>
      refine (ih (report.recordSyntaxError e.message (some e.span))).trans ?_
      obtain ⟨kept, suppressed, hrecord⟩ :=
        UnitReport.record_eq { report with hasSyntaxError := true }
          { code := .syntaxError, message := e.message, span := some e.span }
      rw [UnitReport.recordSyntaxError, hrecord]

/-- A unit without an outline: its source could not be read. -/
def CompilationUnit.lacksOutline (unit : CompilationUnit) : Bool := unit.outline.isNone

section

variable (tree : FileTree) (source : SourceFile) (report : UnitReport) (diet : Bool)
  (front : SourceFrontEnd)

/-- A unit is entered with the place that its report was begun with. -/
theorem index_enteredUnit :
    (enteredUnit tree source report diet front).1.report.index = report.index := by
  have hparsed : (SourceFrontEnd.parse tree source report diet front).value.1.report.index =
      report.index := by
    unfold SourceFrontEnd.parse
    split
    · rfl
    · show (reportParse report (Outline.parse _ diet)).index = report.index
      unfold reportParse
      simp only
      split
      · exact index_recordSyntaxErrors _ _
      · exact index_recordSyntaxErrors _ _
  unfold enteredUnit SourceFrontEnd.bind
  simp only
  split
  · exact hparsed
  · exact (UnitReport.index_recordAll _ _).trans hparsed

/-- An error is counted exactly if the unit has no outline. -/
theorem globalErrors_enteredUnit :
    (enteredUnit tree source report diet front).2.globalErrors =
      front.globalErrors +
        [(enteredUnit tree source report diet front).1].countP CompilationUnit.lacksOutline := by
  have hparse : (SourceFrontEnd.parse tree source report diet front).value.2.globalErrors =
      front.globalErrors +
        [(SourceFrontEnd.parse tree source report diet front).value.1].countP
          CompilationUnit.lacksOutline := by
    unfold SourceFrontEnd.parse
    split <;> rfl
  unfold enteredUnit SourceFrontEnd.bind
  simp only
  split
  · exact hparse
  · rename_i outline houtline
    rw [hparse]
    simp [CompilationUnit.lacksOutline, CompilationUnit.recordAll, houtline]

end

/-! ### Numbers and counts -/

namespace SourceFrontEnd

/-- Every unit knows its place, and so does the report on it; the errors of the batch are as many as
the units that have no outline. -/
structure Completion.Numbered (state : Completion) : Prop where
  places : ∀ place unit, state.registry.get? place = some unit →
    unit.ordinal = place ∧ unit.report.index = place
  errors : state.front.globalErrors = state.registry.units.countP CompilationUnit.lacksOutline

/-- The files that were added to a batch behind those of the command line are all different. -/
def Completion.Distinct (files : List String) (state : Completion) : Prop :=
  ∃ added, Holds files added state.registry state.front.globalErrors ∧ added.Nodup

variable {tree : FileTree} {state : Completion}

/-- **One more source keeps the numbers and the count**, if its report is begun with the next place.
The unit may be changed before it is added, but not in these. -/
theorem Completion.Numbered.add (h : state.Numbered)
    (hcollecting : state.registry.collecting = true) {source : SourceFile} {report : UnitReport}
    (hindex : report.index = state.registry.size) (diet : Bool)
    {change : CompilationUnit → CompilationUnit}
    (hchange : ∀ unit, (change unit).report.index = unit.report.index ∧
      (change unit).outline = unit.outline) :
    Completion.Numbered
      { front := (enteredUnit tree source report diet state.front).2
        registry := (state.registry.add
          (change (enteredUnit tree source report diet state.front).1)).2 } where
  places place unit hunit := by
    obtain ⟨hreport, -⟩ := hchange (enteredUnit tree source report diet state.front).1
    rcases Nat.lt_trichotomy place state.registry.size with hlt | rfl | hgt
    · exact h.places place unit ((Registry.get?_add_old hlt _).symm.trans hunit)
    · have hnew := Option.some.inj (hunit.symm.trans (Registry.get?_add_new hcollecting _))
      subst hnew
      exact ⟨rfl, hreport.trans ((index_enteredUnit ..).trans hindex)⟩
    · have hnone : (state.registry.add
          (change (enteredUnit tree source report diet state.front).1)).2.slots[place]? = none :=
        List.getElem?_eq_none_iff.2 (Nat.le_trans (Nat.le_of_eq (size_add hcollecting _)) hgt)
      simp [Registry.get?, hnone] at hunit
  errors := by
    obtain ⟨-, houtline⟩ := hchange (enteredUnit tree source report diet state.front).1
    have hsame : [(enteredUnit tree source report diet state.front).1].countP
          CompilationUnit.lacksOutline =
        [{ change (enteredUnit tree source report diet state.front).1 with
            ordinal := state.registry.size }].countP CompilationUnit.lacksOutline := by
      simp [CompilationUnit.lacksOutline, houtline]
    rw [globalErrors_enteredUnit, Registry.units_add hcollecting, List.countP_append, ← hsame,
      h.errors]

/-- Noting the package of a unit changes neither its place nor its outline. -/
theorem notePackage_index (unit : CompilationUnit) :
    (Batch.notePackage unit).report.index = unit.report.index ∧
      (Batch.notePackage unit).outline = unit.outline := by
  unfold Batch.notePackage
  split
  · exact ⟨rfl, rfl⟩
  · exact ⟨rfl, rfl⟩

/-- The sources of a command line are entered one place behind another. -/
theorem enterAll_numbered (threshold total : Nat) {index : Nat} (sources : List SourceFile)
    (h : state.Numbered) (hcollecting : state.registry.collecting = true)
    (hindex : index = state.registry.size) :
    (enterAll tree threshold total index sources state).Numbered := by
  induction sources generalizing index state with
  | nil => exact h
  | cons source sources ih =>
      have hcollects : (enterSource tree threshold total index source state).registry.collecting =
          true := (enterSource_extends index source state).collecting.trans hcollecting
      have hsize : (enterSource tree threshold total index source state).registry.size =
          state.registry.size + 1 := size_add hcollecting _
      exact ih (h.add hcollecting hindex _ notePackage_index) hcollects (by rw [hsize, hindex])

/-- Noting problems changes neither the places nor the count. -/
theorem Completion.Numbered.record (h : state.Numbered) (index : Nat) (problems : List Problem) :
    Completion.Numbered
      { state with registry := state.registry.modify index (·.recordAll problems) } where
  places place unit hunit := by
    obtain ⟨old, hold, rfl | rfl⟩ := get?_record hunit
    · exact h.places place _ hold
    · obtain ⟨hordinal, hreport⟩ := h.places place old hold
      exact ⟨hordinal, (UnitReport.index_recordAll _ _).trans hreport⟩
  errors := by
    have hunits := state.registry.map_units_record index problems
      (fun unit => (rfl : (unit.recordAll problems).lacksOutline = unit.lacksOutline))
    have hcount := congrArg (List.countP id) hunits
    rw [List.countP_map, List.countP_map] at hcount
    exact h.errors.trans hcount.symm

/-! ### Files that are added -/

/-- A file that is not there is different from those that were added. -/
theorem Completion.Distinct.loadClosure {files : List String} {path : String}
    (h : state.Distinct files) (hnew : state.registry.contains path = false) :
    (loadClosure tree path state).value.Distinct files := by
  obtain ⟨added, hholds, hdistinct⟩ := h
  let report : UnitReport :=
    { file := path, index := state.registry.size, knownUnits := state.registry.size + 1
      maxProblems := state.front.options.maxProblems }
  have hidentity := enteredUnit_identity tree { file := path, origin := .closure } report true
    state.front
  have hfile : (enteredUnit tree { file := path, origin := .closure } report true
      state.front).1.file = path := congrArg Prod.fst hidentity
  have hother : path ∉ added := by
    intro hmem
    have hthere : path ∈ state.registry.files := by
      rw [hholds.files_eq]
      exact List.mem_append_right _ hmem
    rw [← Registry.contains_iff_mem, hnew] at hthere
    cases hthere
  rw [loadClosure_new hnew]
  refine ⟨added ++ [path], ?_, ?_⟩
  · have hadd := hholds.add_closure (by rw [hfile]; exact hnew) (congrArg Prod.snd hidentity)
      (enteredUnit_read tree { file := path, origin := .closure } report true state.front)
    rw [hfile] at hadd
    exact hadd
  · exact hdistinct.append (List.nodup_singleton path) (List.disjoint_singleton.2 hother)

theorem Completion.Distinct.record {files : List String} (h : state.Distinct files) (index : Nat)
    (problems : List Problem) :
    Completion.Distinct files
      { state with registry := state.registry.modify index (·.recordAll problems) } := by
  obtain ⟨added, hholds, hdistinct⟩ := h
  have hmodify := hholds.modify
    (fun unit => (rfl : (unit.recordAll problems).identity = unit.identity))
    (fun _ hread => hread) index
  exact ⟨added, hmodify, hdistinct⟩

end SourceFrontEnd

/-! ### Compiling a batch -/

section

variable (tree : FileTree) (reading : ReadingPreferences) (files : List String)
  {front : SourceFrontEnd}

/-- The units of a batch know their places, and those without an outline are counted. -/
theorem compiled_numbered (hfront : front.globalErrors = 0) :
    (compiled tree reading files front).Numbered := by
  have hstart : (entered tree reading files front).Numbered :=
    enterAll_numbered _ _ _ ⟨fun _ _ hunit => (by cases hunit), hfront⟩ rfl rfl
  have hkept : KeptByLoading tree (entered tree reading files front) Completion.Numbered := by
    intro state path hextends h _ hnew
    rw [loadClosure_new hnew]
    have hsame : ∀ unit : CompilationUnit, (id unit).report.index = unit.report.index ∧
        (id unit).outline = unit.outline := fun _ => ⟨rfl, rfl⟩
    exact h.add (hextends.collecting.trans collecting_entered) rfl true hsame
  exact completeFrom_kept hkept (fun _ index problems h => h.record index problems) (.refl _) hstart
    _ 0

variable (front) in
/-- No file is added twice to a batch. -/
theorem compiled_distinct : (compiled tree reading files front).Distinct files := by
  have hstart : (entered tree reading files front).Distinct files :=
    ⟨[], entered_holds tree reading files front, List.nodup_nil⟩
  have hkept : KeptByLoading tree (entered tree reading files front)
      (Completion.Distinct files) := fun _ _ _ h _ hnew => h.loadClosure hnew
  exact completeFrom_kept hkept (fun _ index problems h => h.record index problems) (.refl _) hstart
    _ 0

end

/-! ### Units in line -/

/-- The units of a registry stand in line: no slot is empty, the first of them are the files of a
command line, each further one has a file of its own and is there because another unit refers to it,
and every unit and every report has the number of its slot. -/
structure Registry.InLine (files : List String) (registry : Registry) : Prop where
  full : ∀ place < registry.size, ∃ unit, registry.get? place = some unit
  named : ∀ place file, files[place]? = some file →
    ∃ unit, registry.get? place = some unit ∧ unit.file = file ∧ unit.origin = .requested
  further : ∀ place unit, files.length ≤ place → registry.get? place = some unit →
    unit.origin = .closure ∧ ∀ other found, registry.get? other = some found →
      found.file = unit.file → other = place
  numbered : ∀ place unit, registry.get? place = some unit →
    unit.ordinal = place ∧ unit.report.index = place

section

variable {files added : List String} {registry : Registry} {errors : Nat}

/-- The unit in a slot has the file that stands there among all files of the batch. -/
theorem Holds.identity_get? (h : Holds files added registry errors) {place : Nat}
    {unit : CompilationUnit} (hunit : registry.get? place = some unit) :
    (files.map (·, SourceOrigin.requested) ++ added.map (·, SourceOrigin.closure))[place]? =
      some unit.identity := by
  have hidentity := congrArg (·[place]?) h.identities
  simp only [Registry.get?, Option.join_eq_some_iff] at hunit
  simp only [List.getElem?_map, hunit, Option.map_some] at hidentity
  have hall : files.map (fun file => some (file, SourceOrigin.requested)) ++
        added.map (fun file => some (file, SourceOrigin.closure)) =
      (files.map (·, SourceOrigin.requested) ++ added.map (·, SourceOrigin.closure)).map some := by
    simp [Function.comp_def]
  rw [hall, List.getElem?_map] at hidentity
  obtain ⟨found, hfound, hsame⟩ := Option.map_eq_some_iff.1 hidentity.symm
  rw [hfound, Option.some.inj hsame]

/-- A unit behind those of the command line stands for a file that was added. -/
theorem Holds.identity_further (h : Holds files added registry errors) {place : Nat}
    {unit : CompilationUnit} (hunit : registry.get? place = some unit)
    (hplace : files.length ≤ place) :
    added[place - files.length]? = some unit.file ∧ unit.origin = .closure := by
  have hidentity := h.identity_get? hunit
  rw [List.getElem?_append_right (by simpa using hplace), List.getElem?_map,
    List.length_map] at hidentity
  obtain ⟨file, hfile, hsame⟩ := Option.map_eq_some_iff.1 hidentity
  obtain ⟨rfl, horigin⟩ := Prod.mk.inj hsame
  exact ⟨hfile, horigin.symm⟩

/-- A unit of the command line stands for its file. -/
theorem Holds.identity_named (h : Holds files added registry errors) {place : Nat}
    {unit : CompilationUnit} (hunit : registry.get? place = some unit)
    (hplace : place < files.length) :
    files[place]? = some unit.file ∧ unit.origin = .requested := by
  have hidentity := h.identity_get? hunit
  rw [List.getElem?_append_left (by simpa using hplace), List.getElem?_map] at hidentity
  obtain ⟨file, hfile, hsame⟩ := Option.map_eq_some_iff.1 hidentity
  obtain ⟨rfl, horigin⟩ := Prod.mk.inj hsame
  exact ⟨hfile, horigin.symm⟩

/-- There are as many slots as files. -/
theorem Holds.size_eq (h : Holds files added registry errors) :
    registry.size = files.length + added.length := by
  have hlength := congrArg List.length h.identities
  simpa [Registry.size] using hlength

/-- The place of a file that was added is its own. -/
theorem Holds.further_unique (h : Holds files added registry errors) (hdistinct : added.Nodup)
    {place other : Nat} {unit found : CompilationUnit} (hplace : files.length ≤ place)
    (hunit : registry.get? place = some unit) (hfound : registry.get? other = some found)
    (hfile : found.file = unit.file) : other = place := by
  obtain ⟨hadded, -⟩ := h.identity_further hunit hplace
  rcases Nat.lt_or_ge other files.length with hlt | hge
  · obtain ⟨hnamed, -⟩ := h.identity_named hfound hlt
    rw [hfile] at hnamed
    exact absurd (List.mem_of_getElem? hnamed) (h.other _ (List.mem_of_getElem? hadded))
  · obtain ⟨hother, -⟩ := h.identity_further hfound hge
    rw [hfile, ← hadded] at hother
    have hlt : other - files.length < added.length := by
      rw [hadded] at hother
      exact (List.getElem?_eq_some_iff.1 hother).1
    have hsame := (List.getElem?_inj hlt hdistinct).1 hother
    omega

end

/-- The batch of some files stands in line, if the units know their places. -/
theorem SourceFrontEnd.Completion.Numbered.inLine {files : List String} {state : Completion}
    (hnumbered : state.Numbered) (hdistinct : state.Distinct files) :
    state.registry.InLine files := by
  obtain ⟨added, hholds, hnodup⟩ := hdistinct
  have hfull (place : Nat) (hplace : place < state.registry.size) :
      ∃ unit, state.registry.get? place = some unit :=
    Completion.Sound.get? ⟨added, hholds⟩ hplace
  refine ⟨hfull, ?_, ?_, hnumbered.places⟩
  · intro place file hfile
    have hplace : place < files.length := (List.getElem?_eq_some_iff.1 hfile).1
    obtain ⟨unit, hunit⟩ := hfull place (by rw [hholds.size_eq]; omega)
    obtain ⟨hnamed, horigin⟩ := hholds.identity_named hunit hplace
    exact ⟨unit, hunit, Option.some.inj (hnamed.symm.trans hfile), horigin⟩
  · intro place unit hplace hunit
    exact ⟨(hholds.identity_further hunit hplace).2, fun other found hfound hfile =>
      hholds.further_unique hnodup hplace hunit hfound hfile⟩

/-- **The batch of a command line stands in line**: whatever the files, the preferences and the state
of the front end, a command line that is accepted gives a batch in which the files that it names come
first, in its order, every further unit has a file of its own, all units know their places, and the
errors of the batch are as many as the units without an outline. -/
theorem compile_inLine (tree : FileTree) (reading : ReadingPreferences) (front : SourceFrontEnd)
    {arguments : List String} {options : Options}
    (h : Options.parse arguments = .ok options) :
    ∃ batch next,
      (Batch.compile (sourceFrontEnd tree) tree reading arguments front).value = (.ok batch, next) ∧
      options.files.Sublist arguments ∧ batch.requested = options.files ∧
      batch.registry.InLine options.files ∧
      batch.globalErrors = batch.registry.units.countP CompilationUnit.lacksOutline := by
  have hnumbered : (compiledFor tree reading front options).Numbered :=
    compiled_numbered tree reading options.files rfl
  have hdistinct : (compiledFor tree reading front options).Distinct options.files :=
    compiled_distinct tree reading options.files _
  exact ⟨_, _, compile_compiledFor h, Options.parse_files h, rfl, hnumbered.inLine hdistinct,
    hnumbered.errors⟩

/-- A file, the file that it imports, and the file that this one refers to, which holds no text. -/
def unreadableTree : FileTree where
  entries := [(["A.java"], .file "import lib.L; class A \x7b \x7d".toUTF8),
    (["sp"], .directory), (["sp", "lib"], .directory),
    (["sp", "lib", "L.java"], .file "package lib; class L extends M \x7b \x7d".toUTF8),
    (["sp", "lib", "M.java"], .file (ByteArray.mk #[255]))]

/-- A file that is named twice, one that is not there, and one on the sourcepath that cannot be read:
they all have their places, and two errors are counted. -/
theorem compile_inLine_unreadable :
    let arguments := ["-sourcepath", "sp", "A.java", "A.java", "Gone.java"]
    ∃ options batch next, Options.parse arguments = .ok options ∧
      options.files = ["A.java", "A.java", "Gone.java"] ∧
      (Batch.compile (sourceFrontEnd unreadableTree) unreadableTree {} arguments {}).value =
        (.ok batch, next) ∧
      batch.registry.files =
        ["A.java", "A.java", "Gone.java", "sp/lib/L.java", "sp/lib/M.java"] ∧
      batch.globalErrors = 2 ∧ batch.registry.InLine options.files := by
  intro arguments
  have hfiles : (Options.parse arguments).toOption.map Options.files =
      some ["A.java", "A.java", "Gone.java"] := by decide +kernel
  have hbatch : (Batch.compile (sourceFrontEnd unreadableTree) unreadableTree {} arguments
      {}).value.1.toOption.map (fun batch => (batch.registry.files, batch.globalErrors)) =
      some (["A.java", "A.java", "Gone.java", "sp/lib/L.java", "sp/lib/M.java"], 2) := by
    decide +kernel
  obtain ⟨options, hoptions, hnamed⟩ := Option.map_eq_some_iff.1 hfiles
  have hparse : Options.parse arguments = .ok options := eq_ok_of_toOption hoptions
  obtain ⟨batch, next, hcompile, -, -, hline, -⟩ := compile_inLine unreadableTree {} {} hparse
  rw [hcompile] at hbatch
  obtain ⟨hheld, herrors⟩ := Prod.mk.inj (Option.some.inj hbatch)
  exact ⟨options, batch, next, hparse, hnamed, hcompile, hheld, herrors, hline⟩

end JavaOutline
