/-
**What a batch over source files holds.**

The front end over source files puts the files of the command line first, in order, and then the
files of the sourcepath that units refer to; such a file is added only if it is not there.  A source
that cannot be read is counted, so that a batch without errors of that sort has a text and an outline
for every unit.  Both are kept by every step that the front end makes on a batch.

Main definitions:

* `Holds` — the shape of a batch, with the errors counted so far.

Main results:

* `Holds.add`, `Holds.modify` — adding a unit and changing one keep the shape;
* `parseAll_holds`, `SourceFrontEnd.completeFrom_sound` — so do the stages of the front end;
* `compile_holds` — what a batch holds that a command line asks for;
* `Options.parse_files` — the files are among the arguments, in their order.
-/

import JavaOutline.Batch
import JavaOutline.FrontEnd.Sources
import JavaOutline.Proofs.Stages

set_option autoImplicit false

namespace JavaOutline

/-! ### The shape of a batch -/

/-- What does not change about a unit: its file and why it belongs to the batch. -/
def CompilationUnit.identity (unit : CompilationUnit) : String × SourceOrigin :=
  (unit.file, unit.origin)

/-- A unit whose source was read. -/
def CompilationUnit.IsRead (unit : CompilationUnit) : Prop :=
  unit.outline.isSome = true ∧ unit.source.isSome = true

/-- A registry holds the files of a command line and, behind them, other files; where no errors were
counted, all sources were read. -/
structure Holds (files added : List String) (registry : Registry) (errors : Nat) : Prop where
  collecting : registry.collecting = true
  identities : registry.slots.map (Option.map CompilationUnit.identity) =
    files.map (fun file => some (file, .requested)) ++ added.map fun file => some (file, .closure)
  other : ∀ file ∈ added, file ∉ files
  read : errors = 0 → ∀ unit, some unit ∈ registry.slots → unit.IsRead

namespace Holds

variable {files added : List String} {registry : Registry} {errors total : Nat}
  {unit : CompilationUnit}

/-- An empty registry holds the files of an empty command line. -/
theorem ofCapacity (capacity errors : Nat) : Holds [] [] (Registry.ofCapacity capacity) errors where
  collecting := rfl
  identities := rfl
  other := by simp
  read := by
    intro _ unit h
    cases h

theorem slots_add (h : Holds files added registry errors) (unit : CompilationUnit) :
    (registry.add unit).2.slots =
      registry.slots ++ [some { unit with ordinal := registry.size }] := by
  simp [Registry.add, h.collecting]

theorem collecting_add (h : Holds files added registry errors) (unit : CompilationUnit) :
    (registry.add unit).2.collecting = true := by
  simp [Registry.add, h.collecting]

/-- All sources are still read with one more unit, if its source was read. -/
theorem read_add (h : Holds files added registry errors)
    (hunit : total = 0 → errors = 0 ∧ unit.IsRead) (htotal : total = 0) :
    ∀ other, some other ∈ (registry.add unit).2.slots → other.IsRead := by
  intro other hother
  obtain ⟨hzero, hread⟩ := hunit htotal
  rw [h.slots_add] at hother
  rcases List.mem_append.1 hother with hold | hnew
  · exact h.read hzero other hold
  · cases List.mem_singleton.1 hnew
    exact hread

/-- A unit of the command line is added while there are no others. -/
theorem add_requested (h : Holds files [] registry errors) (horigin : unit.origin = .requested)
    (hunit : total = 0 → errors = 0 ∧ unit.IsRead) :
    Holds (files ++ [unit.file]) [] (registry.add unit).2 total where
  collecting := h.collecting_add unit
  identities := by
    rw [h.slots_add, List.map_append, h.identities]
    simp [CompilationUnit.identity, horigin]
  other := by simp
  read := h.read_add hunit

/-- The registry contains the files of the command line. -/
theorem contains_file (h : Holds files added registry errors) {file : String} (hfile : file ∈ files) :
    registry.contains file = true := by
  have hidentity : some (file, SourceOrigin.requested) ∈
      registry.slots.map (Option.map CompilationUnit.identity) := by
    rw [h.identities]
    exact List.mem_append_left _ (List.mem_map.2 ⟨file, hfile, rfl⟩)
  obtain ⟨slot, hslot, hmap⟩ := List.mem_map.1 hidentity
  obtain ⟨unit, rfl, hunit⟩ := Option.map_eq_some_iff.1 hmap
  exact List.any_eq_true.2 ⟨unit, List.mem_filterMap.2 ⟨some unit, hslot, rfl⟩,
    beq_iff_eq.2 (congrArg Prod.fst hunit)⟩

/-- A unit that others refer to is added if its file is not there. -/
theorem add_closure (h : Holds files added registry errors)
    (hnew : registry.contains unit.file = false) (horigin : unit.origin = .closure)
    (hunit : total = 0 → errors = 0 ∧ unit.IsRead) :
    Holds files (added ++ [unit.file]) (registry.add unit).2 total where
  collecting := h.collecting_add unit
  identities := by
    rw [h.slots_add, List.map_append, h.identities]
    simp [CompilationUnit.identity, horigin]
  other := by
    intro file hfile
    rcases List.mem_append.1 hfile with hold | hlast
    · exact h.other file hold
    · rw [List.mem_singleton.1 hlast]
      intro hmem
      rw [h.contains_file hmem] at hnew
      cases hnew
  read := h.read_add hunit

/-- Changing a unit keeps the shape, if the unit stays what it is. -/
theorem modify (h : Holds files added registry errors)
    {change : CompilationUnit → CompilationUnit}
    (hidentity : ∀ unit, (change unit).identity = unit.identity)
    (hread : ∀ unit, unit.IsRead → (change unit).IsRead) (index : Nat) :
    Holds files added (registry.modify index change) errors where
  collecting := h.collecting
  identities := by
    rw [← h.identities]
    refine List.ext_getElem? fun place => ?_
    simp only [Registry.modify, List.getElem?_map, List.getElem?_modify]
    split
    · cases registry.slots[place]? with
      | none => rfl
      | some slot =>
          cases slot with
          | none => rfl
          | some unit => simp [hidentity]
    · simp
  other := h.other
  read := by
    intro hzero unit hunit
    obtain ⟨place, hplace⟩ := List.mem_iff_getElem?.1 hunit
    simp only [Registry.modify, List.getElem?_modify] at hplace
    split at hplace
    · obtain ⟨slot, hslot, hchange⟩ := Option.map_eq_some_iff.1 hplace
      obtain ⟨old, rfl, rfl⟩ := Option.map_eq_some_iff.1 hchange
      exact hread old (h.read hzero old (List.mem_of_getElem? hslot))
    · have hsame : registry.slots[place]? = some (some unit) := by simpa using hplace
      exact h.read hzero unit (List.mem_of_getElem? hsame)

end Holds

/-! ### One unit -/

/-- A source that is parsed and whose types are entered. -/
def enteredUnit (tree : FileTree) (source : SourceFile) (report : UnitReport) (diet : Bool)
    (front : SourceFrontEnd) : CompilationUnit × SourceFrontEnd :=
  let parsed := (SourceFrontEnd.parse tree source report diet front).value
  SourceFrontEnd.bind parsed.1 parsed.2

section

variable (tree : FileTree) (source : SourceFile) (report : UnitReport) (diet : Bool)
  (front : SourceFrontEnd)

/-- The unit stands for its source. -/
theorem enteredUnit_identity :
    (enteredUnit tree source report diet front).1.identity = (source.file, source.origin) := by
  have hparse : (SourceFrontEnd.parse tree source report diet front).value.1.identity =
      (source.file, source.origin) := by
    unfold SourceFrontEnd.parse
    split <;> rfl
  rw [← hparse]
  unfold enteredUnit SourceFrontEnd.bind
  simp only
  split <;> rfl

/-- The source was read unless an error was counted. -/
theorem enteredUnit_read (h : (enteredUnit tree source report diet front).2.globalErrors = 0) :
    front.globalErrors = 0 ∧ (enteredUnit tree source report diet front).1.IsRead := by
  unfold enteredUnit SourceFrontEnd.parse SourceFrontEnd.bind at h ⊢
  cases hcontents : source.contents tree front.sizeLimit with
  | error e => simp [hcontents, CompilationUnit.make] at h
  | ok text =>
      simp only [hcontents, CompilationUnit.make, Logged.value_pure] at h ⊢
      exact ⟨h, rfl, rfl⟩

end

/-- Noting the package leaves a unit what it is. -/
theorem notePackage_keeps (unit : CompilationUnit) :
    (Batch.notePackage unit).identity = unit.identity ∧
      (unit.IsRead → (Batch.notePackage unit).IsRead) := by
  unfold Batch.notePackage
  split
  · exact ⟨rfl, fun h => h⟩
  · exact ⟨rfl, fun h => h⟩

/-! ### The sources of the command line -/

/-- Parsing sources of the command line adds their files. -/
theorem parseAll_holds (tree : FileTree) (threshold total index : Nat) (sources : List SourceFile)
    {files : List String} {registry : Registry} {front : SourceFrontEnd}
    (h : Holds files [] registry front.globalErrors)
    (horigin : ∀ source ∈ sources, source.origin = .requested) :
    Holds (files ++ sources.map SourceFile.file) []
      (Batch.parseAll (sourceFrontEnd tree) threshold total index sources registry front).value.1
      (Batch.parseAll (sourceFrontEnd tree) threshold total index sources registry
        front).value.2.globalErrors := by
  induction sources generalizing index files registry front with
  | nil => simpa [Batch.parseAll] using h
  | cons source sources ih =>
      let report : UnitReport :=
        { file := source.file, index, knownUnits := total
          maxProblems := front.options.maxProblems }
      let entered := enteredUnit tree source report (decide (threshold ≤ registry.size)) front
      have hidentity : (Batch.notePackage entered.1).identity = (source.file, .requested) := by
        rw [(notePackage_keeps entered.1).1, ← horigin source List.mem_cons_self]
        exact enteredUnit_identity tree source report _ front
      have hadd := h.add_requested (congrArg Prod.snd hidentity)
        fun hzero : entered.2.globalErrors = 0 =>
          let hread := enteredUnit_read tree source report _ front hzero
          ⟨hread.1, (notePackage_keeps entered.1).2 hread.2⟩
      have hfile : (Batch.notePackage entered.1).file = source.file := congrArg Prod.fst hidentity
      have hlater := ih (index + 1) hadd fun other hother =>
        horigin other (List.mem_cons_of_mem _ hother)
      rw [List.append_assoc, hfile] at hlater
      exact hlater

/-! ### The sources that units refer to -/

namespace SourceFrontEnd

/-- The batch that is being completed still has its shape. -/
def Completion.Sound (files : List String) (state : Completion) : Prop :=
  ∃ added, Holds files added state.registry state.front.globalErrors

variable {tree : FileTree} {files : List String} {state : Completion}

theorem loadClosure_sound (h : state.Sound files) (path : String) :
    (loadClosure tree path state).value.Sound files := by
  unfold loadClosure
  cases hcontains : state.registry.contains path with
  | true => exact h
  | false =>
      obtain ⟨added, hadded⟩ := h
      let report : UnitReport :=
        { file := path, index := state.registry.size, knownUnits := state.registry.size + 1
          maxProblems := state.front.options.maxProblems }
      have hidentity := enteredUnit_identity tree { file := path, origin := .closure } report true
        state.front
      have hread := enteredUnit_read tree { file := path, origin := .closure } report true
        state.front
      have hfile : (enteredUnit tree { file := path, origin := .closure } report true
          state.front).1.file = path := congrArg Prod.fst hidentity
      have hnew := hcontains
      rw [← hfile] at hnew
      exact ⟨_, hadded.add_closure hnew (congrArg Prod.snd hidentity) hread⟩

theorem searchSourcepath_sound (h : state.Sound files) (candidates : List String) :
    (searchSourcepath tree candidates state).value.2.Sound files := by
  induction candidates generalizing state with
  | nil => exact h
  | cons candidate candidates ih =>
      unfold searchSourcepath
      cases state.front.findOnSourcepath tree candidate with
      | none => exact ih h
      | some path =>
          have hnext : (loadClosure tree path state).value.Sound files := loadClosure_sound h path
          simp only [Logged.value_bind]
          split
          · exact hnext
          · exact ih hnext

theorem resolve_sound (tree : FileTree) (h : state.Sound files) (reference : Reference) :
    (resolve tree reference state).value.2.Sound files := by
  unfold resolve
  split
  · exact h
  · exact searchSourcepath_sound h reference.candidates

theorem resolveAll_sound (tree : FileTree) (h : state.Sound files)
    (references : List Reference) :
    (resolveAll tree references state).value.2.Sound files := by
  induction references generalizing state with
  | nil => exact h
  | cons reference references ih =>
      have hlast := ih (resolve_sound tree h reference)
      simp only [resolveAll, Logged.value_bind]
      split
      · exact hlast
      · exact hlast

theorem completeUnit_sound (h : state.Sound files) (index : Nat) :
    (completeUnit tree index state).value.Sound files := by
  unfold completeUnit
  cases (state.registry.get? index).bind CompilationUnit.outline with
  | none => exact h
  | some outline =>
      obtain ⟨added, hadded⟩ := resolveAll_sound tree h outline.references
      let record (unit : CompilationUnit) : CompilationUnit :=
        unit.recordAll (resolveAll tree outline.references state).value.1
      have hrecord := hadded.modify (fun unit => (rfl : (record unit).identity = unit.identity))
        (fun _ hread => hread) index
      exact ⟨added, hrecord⟩

/-- Completing a batch keeps its shape. -/
theorem completeFrom_sound (h : state.Sound files) (fuel index : Nat) :
    (completeFrom tree fuel index state).value.Sound files := by
  induction fuel generalizing index state with
  | zero => exact h
  | succ fuel ih =>
      unfold completeFrom
      split
      · exact ih (completeUnit_sound h index) (index + 1)
      · exact h

end SourceFrontEnd

/-! ### The batch of a command line -/

/-- Reading ahead leaves the sources what they are. -/
theorem readAhead_keeps (tree : FileTree) (reading : ReadingPreferences)
    (sources : List SourceFile) :
    ∃ load : SourceFile → SourceFile, (∀ source, (load source).file = source.file ∧
        (load source).origin = source.origin) ∧
      (Batch.readAhead tree reading sources).value = sources.map load := by
  unfold Batch.readAhead
  split
  · refine ⟨SourceFile.load tree standardSizeLimit, fun _ => ⟨rfl, rfl⟩, ?_⟩
    simp only [Logged.value_bind]
    rw [← prefetch_sources tree standardSizeLimit reading.effectiveThreads sources]
    split <;> rfl
  · exact ⟨id, fun _ => ⟨rfl, rfl⟩, by simp⟩

/-- The batch of some files holds these files. -/
theorem ofSources_holds (tree : FileTree) (reading : ReadingPreferences) (files : List String)
    (front : SourceFrontEnd) :
    let compiled := (Batch.ofSources (sourceFrontEnd tree) tree reading
      (files.map fun file => { file, origin := .requested }) front).value
    ∃ added, Holds files added compiled.1 compiled.2.globalErrors := by
  obtain ⟨load, hload, hread⟩ := readAhead_keeps tree reading
    (files.map fun file => { file, origin := .requested })
  have hparsed := parseAll_holds tree reading.parseThreshold files.length 0
    ((files.map fun file => ({ file, origin := .requested } : SourceFile)).map load)
    (Holds.ofCapacity files.length front.globalErrors) (by
      intro source hsource
      obtain ⟨plain, hplain, rfl⟩ := List.mem_map.1 hsource
      obtain ⟨file, -, rfl⟩ := List.mem_map.1 hplain
      exact (hload _).2)
  have hfiles : ((files.map fun file => ({ file, origin := .requested } : SourceFile)).map
      load).map SourceFile.file = files := by
    rw [List.map_map, List.map_map]
    refine (List.map_congr_left fun file _ => ?_).trans (List.map_id files)
    exact (hload _).1
  rw [List.nil_append, hfiles] at hparsed
  simp only [Batch.ofSources, Logged.value_bind, hread, List.length_map, Logged.value_pure]
  exact SourceFrontEnd.completeFrom_sound ⟨[], hparsed⟩ _ 0

/-- The batch that a command line asks for holds the files that the command line names. -/
theorem compile_holds {tree : FileTree} {reading : ReadingPreferences} {arguments : List String}
    {front next : SourceFrontEnd} {batch : Batch}
    (h : (Batch.compile (sourceFrontEnd tree) tree reading arguments front).value =
      (.ok batch, next)) :
    ∃ options added, Options.parse arguments = .ok options ∧ batch.requested = options.files ∧
      Holds options.files added batch.registry batch.globalErrors := by
  cases hparse : Options.parse arguments with
  | error e =>
      have hconfigure : ((sourceFrontEnd tree).configure arguments front).value =
          (.error e, front) := by
        simp [sourceFrontEnd, SourceFrontEnd.configure, hparse]
      rw [compile_rejected hconfigure] at h
      simp at h
  | ok options =>
      have hconfigure : ((sourceFrontEnd tree).configure arguments front).value =
          (.ok (options.files.map fun file => { file, origin := .requested }),
            { front with options, types := {}, globalErrors := 0 }) := by
        simp [sourceFrontEnd, SourceFrontEnd.configure, hparse]
      rw [compile_configured hconfigure] at h
      simp only [Prod.mk.injEq, Except.ok.injEq] at h
      obtain ⟨rfl, rfl⟩ := h
      obtain ⟨added, hadded⟩ := ofSources_holds tree reading options.files _
      refine ⟨options, added, rfl, ?_, hadded⟩
      simp [List.filter_map, Function.comp_def]

/-! ### The files of a command line -/

namespace Options

variable {options next : Options} {option value argument : String}

theorem withLevel_files (h : options.withLevel option value = .ok next) :
    next.files = options.files := by
  unfold withLevel at h
  split at h
  · cases h; rfl
  · cases h

theorem withEncoding_files (h : options.withEncoding value = .ok next) :
    next.files = options.files := by
  unfold withEncoding at h
  split at h
  · cases h; rfl
  · cases h

theorem withProblemLimit_files (h : options.withProblemLimit option value = .ok next) :
    next.files = options.files := by
  unfold withProblemLimit at h
  split at h
  · cases h; rfl
  · cases h

/-- An option with a value names no file. -/
theorem valued?_files {effect : String → Except ConfigError Options}
    (h : options.valued? option = some effect) (heffect : effect value = .ok next) :
    next.files = options.files := by
  unfold valued? at h
  split at h
  all_goals cases h
  · exact withLevel_files heffect
  · cases heffect; rfl
  · cases heffect; rfl
  · cases heffect; rfl
  · cases heffect; rfl
  · exact withEncoding_files heffect
  · cases heffect; rfl
  · exact withProblemLimit_files heffect

/-- An argument that stands by itself names at most one file, which is the argument. -/
theorem plain_files (h : options.plain argument = .ok next) :
    ∃ named, named.Sublist [argument] ∧ next.files = options.files ++ named := by
  have hnone : next.files = options.files →
      ∃ named, named.Sublist [argument] ∧ next.files = options.files ++ named := fun hfiles =>
    ⟨[], List.nil_sublist _, by rw [hfiles, List.append_nil]⟩
  unfold plain at h
  split at h
  · exact hnone (by cases h; rfl)
  · split at h
    · exact hnone (by cases h; rfl)
    · split at h
      · exact hnone (by cases h; rfl)
      · split at h
        · exact hnone (by cases h; rfl)
        · split at h
          · exact hnone (by cases h; rfl)
          · split at h
            · exact hnone (withLevel_files h)
            · split at h
              · exact ⟨[argument], List.Sublist.refl _, by cases h; rfl⟩
              · cases h

/-- The files that a command line adds are among its arguments, in their order. -/
theorem parseFrom_files {arguments : List String} (h : options.parseFrom arguments = .ok next) :
    ∃ named, named.Sublist arguments ∧ next.files = options.files ++ named := by
  fun_induction parseFrom options arguments with
  | case1 options =>
      cases h
      exact ⟨[], List.Sublist.slnil, by simp⟩
  | case2 options argument rest _ middle hplain ih =>
      obtain ⟨own, hown, hmiddle⟩ := plain_files hplain
      obtain ⟨later, hlater, hnext⟩ := ih h
      refine ⟨own ++ later, hown.append hlater, ?_⟩
      rw [hnext, hmiddle, List.append_assoc]
  | case3 => cases h
  | case4 => cases h
  | case5 options argument effect heffect value rest middle hvalue ih =>
      obtain ⟨later, hlater, hnext⟩ := ih h
      refine ⟨later, (hlater.cons value).cons argument, ?_⟩
      rw [hnext, valued?_files heffect hvalue]
  | case6 => cases h

/-- The files of a command line are among its arguments, in their order. -/
theorem parse_files {arguments : List String} (h : Options.parse arguments = .ok options) :
    options.files.Sublist arguments := by
  obtain ⟨named, hnamed, hfiles⟩ := parseFrom_files h
  rw [hfiles]
  exact hnamed

end Options

end JavaOutline
