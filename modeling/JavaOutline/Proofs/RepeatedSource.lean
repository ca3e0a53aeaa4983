/-
**A file that a command line names twice.**

Every source of a command line is parsed and its types are entered, also where the file was named
before.  So the second time a file is named its types are known already, and the unit is broken.  Only
a file that declares no type can be named again: the batch is then the same as before, with one more
unit in it.

Main definitions:

* `DeclaresNothing` — a text in which nothing is wrong and that declares no type;
* `entered`, `compiled` — the batch of some files, when they were entered and when it is complete;
* `KeptByCompiling` — something that is true of every unit, whatever is done to it on the way;
* `ReadsAlike` — one more source does not change how sources are read;
* `Completion.Clean` — a batch without errors.

Main results:

* `enteredUnit_clean` — what is wrong with a text or known already breaks its unit;
* `KeptByCompiling.compiled` — what is kept on the way is true of all units in the end;
* `compiled_repeats` — **naming a file again that declares nothing adds a unit and changes no other**;
* `declaresNothing_of_clean` — **in a batch without errors a file that is named again declares
  nothing**.
-/

import JavaOutline.Proofs.CompletionSteps
import JavaOutline.Proofs.ParallelBatches
import JavaOutline.Proofs.TypeHeads

set_option autoImplicit false

namespace JavaOutline

namespace SourceFrontEnd

variable {tree : FileTree}

/-! ### Entering a unit -/

/-- Nothing is wrong with a text, and it declares no type. -/
def DeclaresNothing (text : String) : Prop :=
  (Outline.parse text true).errors = [] ∧ (Outline.parse text true).outline.types = []

/-- Such a text reads the same in full. -/
theorem DeclaresNothing.parse_eq {text : String} (h : DeclaresNothing text) (diet : Bool) :
    Outline.parse text diet = Outline.parse text true :=
  Outline.parse_without_types h.1 h.2 diet

/-- The problems of types that are declared already are errors. -/
theorem defineAll_errors (file : String) (declared : List (String × Span)) (types : TypeIndex) :
    ∀ problem ∈ (defineAll file declared types).1, problem.isError = true := by
  induction declared generalizing types with
  | nil => exact fun _ h => nomatch h
  | cons first declared ih =>
      obtain ⟨name, span⟩ := first
      unfold defineAll
      cases types.define { name, file, span } with
      | ok next => exact ih next
      | error earlier => exact List.forall_mem_cons.2 ⟨rfl, ih types⟩

/-- If there is no problem, the first type was not known. -/
theorem knowsType_of_defineAll {file name : String} {span : Span}
    {declared : List (String × Span)} {types : TypeIndex}
    (h : (defineAll file ((name, span) :: declared) types).1 = []) :
    types.knowsType name = false := by
  cases hfind : types.find? name with
  | none => simp [TypeIndex.knowsType, hfind]
  | some earlier => simp [defineAll, TypeIndex.define, hfind] at h

/-- In any case it is known afterwards. -/
theorem knowsType_defineAll (file name : String) (span : Span) (declared : List (String × Span))
    (types : TypeIndex) :
    (defineAll file ((name, span) :: declared) types).2.knowsType name = true := by
  have hkept (before : TypeIndex) (h : before.knowsType name = true) :
      (defineAll file declared before).2.knowsType name = true := by
    obtain ⟨more, hmore⟩ := defineAll_adds file declared before
    simp only [TypeIndex.knowsType, TypeIndex.find?, hmore, List.find?_append] at h ⊢
    obtain ⟨found, hfound⟩ := Option.isSome_iff_exists.1 h
    simp [hfound]
  unfold defineAll
  cases hdefine : types.define { name, file, span } with
  | ok next =>
      refine hkept next ?_
      simp [TypeIndex.knowsType, TypeIndex.find?_define hdefine name]
  | error earlier =>
      refine hkept types ?_
      unfold TypeIndex.define at hdefine
      split at hdefine
      next hfind => simp [TypeIndex.knowsType, hfind]
      next => cases hdefine

section

variable {source : SourceFile} {report : UnitReport} {diet : Bool} {front : SourceFrontEnd}
  {text : String}

/-- The unit of a text before its types are entered. -/
def parsedUnit (source : SourceFile) (report : UnitReport) (text : String) (diet : Bool) :
    CompilationUnit :=
  .make source.file source.origin (reportParse report (Outline.parse text diet)) (some text)
    (some (Outline.parse text diet).outline)

/-- What becomes of a source that can be read. -/
theorem enteredUnit_text (h : source.contents tree front.sizeLimit = .ok text) :
    enteredUnit tree source report diet front =
      let defined := defineAll source.file (Outline.parse text diet).outline.declaredTypes front.types
      ({ (parsedUnit source report text diet).recordAll defined.1 with state := .bound },
        { front with types := defined.2 }) := by
  unfold enteredUnit parse bind
  simp only [h, Logged.value_pure]
  rfl

/-- Nothing is wrong with the text of a unit that is not broken, and its types were not known. -/
theorem enteredUnit_clean (htext : source.contents tree front.sizeLimit = .ok text)
    (h : (enteredUnit tree source report diet front).1.isBroken = false) :
    (Outline.parse text diet).errors = [] ∧
      (defineAll source.file (Outline.parse text diet).outline.declaredTypes front.types).1 = [] := by
  have hunit : ((parsedUnit source report text diet).recordAll
      (defineAll source.file (Outline.parse text diet).outline.declaredTypes
        front.types).1).isBroken = false := by
    rw [enteredUnit_text htext] at h
    simp only [CompilationUnit.isBroken, CompilationUnit.hasSyntaxError,
      CompilationUnit.hasErrors] at h ⊢
    exact h
  constructor
  · cases herrors : (Outline.parse text diet).errors with
    | nil => rfl
    | cons e errors =>
        have hsyntax : (reportParse report (Outline.parse text diet)).hasSyntaxError = true := by
          unfold reportParse
          rw [herrors]
          split
          · exact hasSyntaxError_recordSyntaxErrors _ e errors
          · exact hasSyntaxError_recordSyntaxErrors _ e errors
        have hbroken : (parsedUnit source report text diet).isBroken = true := by
          simp only [CompilationUnit.isBroken, CompilationUnit.hasSyntaxError, parsedUnit,
            CompilationUnit.make, hsyntax, Bool.true_or]
        rw [CompilationUnit.isBroken_recordAll _ hbroken] at hunit
        cases hunit
  · refine Decidable.byContradiction fun hproblems => ?_
    rw [CompilationUnit.isBroken_recordAll_error _ (defineAll_errors _ _ _) hproblems] at hunit
    cases hunit

/-- A text that declares nothing changes nothing for the batch. -/
theorem enteredUnit_nothing (htext : source.contents tree front.sizeLimit = .ok text)
    (h : DeclaresNothing text) :
    (enteredUnit tree source report diet front).1.outline =
        some (Outline.parse text true).outline ∧
      (enteredUnit tree source report diet front).1.isBroken =
        (report.hasSyntaxError || report.hasErrors) ∧
      (enteredUnit tree source report diet front).2 = front := by
  have hdeclared : (Outline.parse text true).outline.declaredTypes = [] := by
    simp only [Outline.declaredTypes, h.2, List.flatMap_nil]
  rw [enteredUnit_text htext]
  simp only [parsedUnit, h.parse_eq diet, hdeclared, defineAll]
  refine ⟨rfl, ?_, trivial⟩
  simp only [CompilationUnit.isBroken, CompilationUnit.hasSyntaxError, CompilationUnit.hasErrors,
    CompilationUnit.make, CompilationUnit.recordAll, UnitReport.recordAll, reportParse, h.1,
    recordSyntaxErrors, List.foldl_nil, UnitReport.hasErrors]
  split <;> rfl

end

/-! ### Batches without errors -/

/-- A batch without errors. -/
structure Completion.Clean (state : Completion) : Prop where
  errors : state.front.globalErrors = 0
  units : ∀ place unit, state.registry.get? place = some unit → unit.isBroken = false

/-- If a batch has no errors, it had none before. -/
theorem Completion.Extends.clean {before after : Completion} (h : before.Extends after)
    (hclean : after.Clean) : before.Clean where
  errors := Nat.eq_zero_of_le_zero (hclean.errors ▸ h.globalErrors)
  units place unit hunit := by
    obtain ⟨later, hlater, -, -, hbroken⟩ := h.units place unit hunit
    have hsound := hclean.units place later hlater
    exact Bool.eq_false_iff.2 fun htrue => by simp [hbroken htrue] at hsound

theorem notePackage_isBroken (unit : CompilationUnit) :
    (Batch.notePackage unit).isBroken = unit.isBroken ∧
      (Batch.notePackage unit).outline = unit.outline := by
  unfold Batch.notePackage
  split <;> exact ⟨rfl, rfl⟩

section

variable {threshold total index : Nat} {source : SourceFile} {state : Completion}

/-- A source that is entered without errors can be read, nothing is wrong with it, and its types were
not known. -/
theorem enterSource_clean (hcollecting : state.registry.collecting = true)
    (h : (enterSource tree threshold total index source state).Clean) :
    ∃ text, source.contents tree state.front.sizeLimit = .ok text ∧
      let parsed := Outline.parse text (decide (threshold ≤ state.registry.size))
      let defined := defineAll source.file parsed.outline.declaredTypes state.front.types
      parsed.errors = [] ∧ defined.1 = [] ∧
        (enterSource tree threshold total index source state).front.types = defined.2 := by
  have herrors := h.errors
  have hunit := h.units _ _ (Registry.get?_add_new hcollecting _)
  have hbroken : (enteredSource tree threshold total index source state).1.isBroken = false := by
    rw [← (notePackage_isBroken _).1]
    exact hunit
  unfold enterSource enteredSource at *
  cases hcontents : source.contents tree state.front.sizeLimit with
  | error e =>
      simp [enteredUnit, parse, bind, hcontents, CompilationUnit.make] at herrors
  | ok text =>
      obtain ⟨hparse, hdefine⟩ := enteredUnit_clean hcontents hbroken
      refine ⟨text, rfl, hparse, hdefine, ?_⟩
      simp only [enteredUnit_text hcontents]

/-- A source that declares nothing changes nothing for the batch, and its unit is not broken. -/
theorem enterSource_nothing {text : String}
    (htext : source.contents tree state.front.sizeLimit = .ok text) (h : DeclaresNothing text)
    (threshold total index : Nat) :
    let unit := Batch.notePackage (enteredSource tree threshold total index source state).1
    unit.file = source.file ∧ unit.outline = some (Outline.parse text true).outline ∧
      unit.isBroken = false ∧
      (enterSource tree threshold total index source state).front = state.front := by
  intro unit
  obtain ⟨hbroken, houtline⟩ :=
    notePackage_isBroken (enteredSource tree threshold total index source state).1
  have hidentity :=
    (notePackage_keeps (enteredSource tree threshold total index source state).1).1.trans
      (enteredUnit_identity tree source _ _ state.front)
  obtain ⟨houtline', hbroken', hfront⟩ := enteredUnit_nothing htext h
  exact ⟨congrArg Prod.fst hidentity, houtline.trans houtline', hbroken.trans hbroken', hfront⟩

/-- A source that is entered twice without errors declares nothing: what it declares is known the
second time. -/
theorem declaresNothing_of_enterSource {place : Nat} {later : Completion}
    (hcollecting : state.registry.collecting = true)
    (hlater : (enterSource tree threshold total index source state).Extends later)
    (h : (enterSource tree threshold total place source later).Clean) :
    ∃ text, source.contents tree state.front.sizeLimit = .ok text ∧ DeclaresNothing text := by
  have hfirst := (hlater.trans (enterSource_extends place source later)).clean h
  have hstate : state.Extends later := (enterSource_extends index source state).trans hlater
  obtain ⟨text, htext, herrors, -, htypes⟩ := enterSource_clean hcollecting hfirst
  obtain ⟨again, hagain, herrors', hnew, -⟩ :=
    enterSource_clean (hstate.collecting.trans hcollecting) h
  rw [hstate.sizeLimit, htext] at hagain
  cases hagain
  refine ⟨text, htext, ?_⟩
  generalize decide (threshold ≤ state.registry.size) = diet at herrors htypes
  generalize decide (threshold ≤ later.registry.size) = diet' at herrors' hnew
  have hnone : (Outline.parse text diet').outline.types = [] := by
    refine Decidable.byContradiction fun hsome => ?_
    obtain ⟨hpackage, hname⟩ := Outline.parse_first_type herrors herrors'
    -- Both times the first type is entered under the same name.
    have hhead := Outline.head?_declaredTypes (Outline.parse text diet).outline
    have hhead' := Outline.head?_declaredTypes (Outline.parse text diet').outline
    obtain ⟨t, types, ht⟩ := List.exists_cons_of_ne_nil hsome
    rw [← hname, ht, Outline.packageName, ← hpackage] at hhead
    rw [ht] at hhead'
    obtain ⟨⟨name, span⟩, hfound, hnamed⟩ := Option.map_eq_some_iff.1 hhead
    obtain ⟨⟨name', span'⟩, hfound', hnamed'⟩ := Option.map_eq_some_iff.1 hhead'
    obtain rfl : name' = name := hnamed'.trans hnamed.symm
    obtain ⟨rest, hrest⟩ := List.head?_eq_some_iff.1 hfound
    obtain ⟨rest', hrest'⟩ := List.head?_eq_some_iff.1 hfound'
    rw [hrest'] at hnew
    have hunknown := knowsType_of_defineAll hnew
    rw [hrest] at htypes
    have hknown := hlater.knowsType
      (htypes ▸ knowsType_defineAll source.file name' span rest state.front.types)
    rw [hunknown] at hknown
    cases hknown
  have hsame := Outline.parse_without_types herrors' hnone true
  exact ⟨by rw [hsame]; exact herrors', by rw [hsame]; exact hnone⟩

end

/-! ### How sources are read -/

/-- A source of the command line; of many sources each is read ahead, if that is wanted. -/
def sourceAmong (tree : FileTree) (reading : ReadingPreferences) (total : Nat) (file : String) :
    SourceFile :=
  let source : SourceFile := { file, origin := .requested }
  if !reading.singleThread && decide (readAheadThreshold ≤ total) then
    source.load tree standardSizeLimit
  else source

theorem value_readAhead (tree : FileTree) (reading : ReadingPreferences) (files : List String) :
    (Batch.readAhead tree reading (files.map fun file => { file, origin := .requested })).value =
      files.map (sourceAmong tree reading files.length) := by
  unfold Batch.readAhead sourceAmong
  rw [List.length_map]
  split
  next =>
    simp only [Logged.value_bind]
    have hread := prefetch_sources tree standardSizeLimit reading.effectiveThreads
      (files.map fun file => { file, origin := .requested })
    rw [List.map_map] at hread
    split <;> exact hread
  next => rfl

theorem sourceAmong_identity (tree : FileTree) (reading : ReadingPreferences) (total : Nat)
    (file : String) :
    (sourceAmong tree reading total file).file = file ∧
      (sourceAmong tree reading total file).origin = .requested := by
  unfold sourceAmong
  simp only
  split <;> exact ⟨rfl, rfl⟩

/-- One more source does not change how sources are read: the limit for their sizes is the standard
one, or nothing is read ahead, or the number of sources does not come to the threshold. -/
def ReadsAlike (reading : ReadingPreferences) (limit total : Nat) : Prop :=
  limit = standardSizeLimit ∨ reading.singleThread = true ∨ total + 1 ≠ readAheadThreshold

theorem contents_sourceAmong (tree : FileTree) (reading : ReadingPreferences)
    (total limit : Nat) (file : String) :
    (sourceAmong tree reading total file).contents tree limit =
      tree.readSource file
        (if !reading.singleThread && decide (readAheadThreshold ≤ total) then standardSizeLimit
          else limit) := by
  unfold sourceAmong
  simp only
  split <;> rfl

/-- With one more source, every source is still what it was. -/
theorem ReadsAlike.sourceAmong {reading : ReadingPreferences} {limit total : Nat}
    (h : ReadsAlike reading limit total) (tree : FileTree) (file : String) :
    (sourceAmong tree reading (total + 1) file).file = (sourceAmong tree reading total file).file ∧
      (sourceAmong tree reading (total + 1) file).origin =
        (sourceAmong tree reading total file).origin ∧
      (sourceAmong tree reading (total + 1) file).contents tree limit =
        (sourceAmong tree reading total file).contents tree limit := by
  obtain ⟨hfile, horigin⟩ := sourceAmong_identity tree reading total file
  obtain ⟨hfile', horigin'⟩ := sourceAmong_identity tree reading (total + 1) file
  refine ⟨hfile'.trans hfile.symm, horigin'.trans horigin.symm, ?_⟩
  rw [contents_sourceAmong, contents_sourceAmong]
  rcases h with hlimit | hsingle | hcount
  · simp [hlimit]
  · simp [hsingle]
  · have hsame : (readAheadThreshold ≤ total + 1) ↔ readAheadThreshold ≤ total := by omega
    simp only [hsame]

/-! ### The batch of some files -/

section

variable (tree : FileTree) (reading : ReadingPreferences) (files : List String)
  (front : SourceFrontEnd)

/-- The batch of some files when they were entered. -/
def entered : Completion :=
  enterAll tree reading.parseThreshold files.length 0
    (files.map (sourceAmong tree reading files.length))
    { front, registry := Registry.ofCapacity files.length }

/-- The batch of some files when it is complete. -/
def compiled : Completion :=
  (completeFrom tree (unitBound tree (entered tree reading files front)) 0
    (entered tree reading files front)).value

theorem value_ofSources :
    (Batch.ofSources (sourceFrontEnd tree) tree reading
      (files.map fun file => { file, origin := .requested }) front).value =
        ((compiled tree reading files front).registry, (compiled tree reading files front).front) := by
  have hparse : (Batch.parseAll (sourceFrontEnd tree) reading.parseThreshold files.length 0
      (files.map (sourceAmong tree reading files.length)) (Registry.ofCapacity files.length)
      front).value =
        ((entered tree reading files front).registry, (entered tree reading files front).front) :=
    value_parseAll 0 _ { front, registry := Registry.ofCapacity files.length }
  simp only [Batch.ofSources, Logged.value_bind, value_readAhead, List.length_map, hparse]
  rfl

end

variable {reading : ReadingPreferences} {files : List String} {front : SourceFrontEnd} {f : String}

theorem compiled_extends :
    (entered tree reading files front).Extends (compiled tree reading files front) :=
  completeFrom_extends _ _ _

theorem size_entered : (entered tree reading files front).registry.size = files.length := by
  refine (size_enterAll 0 _ (rfl : (Registry.ofCapacity files.length).collecting = true)).trans ?_
  rw [List.length_map]
  exact Nat.zero_add _

theorem collecting_entered : (entered tree reading files front).registry.collecting = true :=
  (enterAll_extends 0 _ _).collecting

/-! ### All units of a batch -/

/-- Something is true of every unit that is entered, and stays true whatever compiling a batch does to
the unit. -/
structure KeptByCompiling (tree : FileTree) (holds : CompilationUnit → Prop) : Prop where
  entered : ∀ source index knownUnits maxProblems diet front,
    holds (enteredUnit tree source { file := source.file, index, knownUnits, maxProblems } diet
      front).1
  package : ∀ unit, holds unit → holds (Batch.notePackage unit)
  ordinal : ∀ (unit : CompilationUnit) ordinal, holds unit → holds { unit with ordinal }
  record : ∀ unit problems, holds unit → holds (unit.recordAll problems)

namespace KeptByCompiling

variable {holds : CompilationUnit → Prop} (h : KeptByCompiling tree holds)

include h

theorem add {registry : Registry} (hcollecting : registry.collecting = true)
    (hunits : ∀ place unit, registry.get? place = some unit → holds unit) {unit : CompilationUnit}
    (hunit : holds unit) :
    ∀ place found, (registry.add unit).2.get? place = some found → holds found := by
  intro place found hfound
  rcases get?_add hcollecting hfound with hold | rfl
  · exact hunits place found hold
  · exact h.ordinal unit _ hunit

theorem enterAll (threshold total index : Nat) (sources : List SourceFile) {state : Completion}
    (hcollecting : state.registry.collecting = true)
    (hunits : ∀ place unit, state.registry.get? place = some unit → holds unit) :
    ∀ place unit, (enterAll tree threshold total index sources state).registry.get? place =
      some unit → holds unit := by
  induction sources generalizing index state with
  | nil => exact hunits
  | cons source sources ih =>
      exact ih (index + 1) ((enterSource_extends index source state).collecting.trans hcollecting)
        (h.add hcollecting hunits (h.package _ (h.entered source index total _ _ _)))

/-- **It is true of all units when the batch is complete.** -/
theorem compiled (reading : ReadingPreferences) (files : List String) (front : SourceFrontEnd) :
    ∀ place unit, (compiled tree reading files front).registry.get? place = some unit →
      holds unit := by
  have hloading : KeptByLoading tree (SourceFrontEnd.entered tree reading files front) fun state =>
      ∀ place unit, state.registry.get? place = some unit → holds unit := by
    intro state path hextends hunits _ hnew
    rw [loadClosure_new hnew]
    exact h.add (hextends.collecting.trans collecting_entered) hunits
      (h.entered { file := path, origin := .closure } _ _ _ true state.front)
  refine completeFrom_kept hloading (fun state index problems hunits place unit hunit => ?_)
    (.refl _) ?_ _ 0
  · obtain ⟨old, hold, rfl | rfl⟩ := get?_record hunit
    · exact hunits place _ hold
    · exact h.record old problems (hunits place old hold)
  · exact h.enterAll _ _ 0 _ rfl fun place unit hunit => by cases hunit

end KeptByCompiling

/-- The batch of some files holds these files and no others when they were entered. -/
theorem entered_holds (tree : FileTree) (reading : ReadingPreferences) (files : List String)
    (front : SourceFrontEnd) :
    Holds files [] (entered tree reading files front).registry
      (entered tree reading files front).front.globalErrors := by
  let sources := files.map (sourceAmong tree reading files.length)
  let start : Completion := { front, registry := Registry.ofCapacity files.length }
  have hholds := parseAll_holds tree reading.parseThreshold files.length 0 sources
    (Holds.ofCapacity files.length front.globalErrors) (by
      intro source hsource
      obtain ⟨file, -, rfl⟩ := List.mem_map.1 hsource
      exact (sourceAmong_identity tree reading files.length file).2)
  have hfiles : sources.map SourceFile.file = files := by
    rw [List.map_map]
    refine (List.map_congr_left fun file _ => ?_).trans (List.map_id files)
    exact (sourceAmong_identity tree reading files.length file).1
  rw [List.nil_append, hfiles, value_parseAll 0 sources start] at hholds
  exact hholds

/-- The batch of some files, when the file at some place among them was entered and later. -/
theorem entered_cut (tree : FileTree) (reading : ReadingPreferences) (ahead behind : List String)
    (front : SourceFrontEnd) (f : String) :
    ∃ before : Completion, before.registry.size = ahead.length ∧
      before.registry.collecting = true ∧ before.front.sizeLimit = front.sizeLimit ∧
      (enterSource tree reading.parseThreshold (ahead ++ f :: behind).length ahead.length
        (sourceAmong tree reading (ahead ++ f :: behind).length f) before).Extends
          (entered tree reading (ahead ++ f :: behind) front) := by
  unfold entered
  generalize (ahead ++ f :: behind).length = total
  let start : Completion := { front, registry := Registry.ofCapacity total }
  let sources := ahead.map (sourceAmong tree reading total)
  have hbefore : start.Extends (enterAll tree reading.parseThreshold total 0 sources start) :=
    enterAll_extends 0 _ start
  have hsources : 0 + sources.length = ahead.length := by simp [sources]
  refine ⟨enterAll tree reading.parseThreshold total 0 sources start,
    (size_enterAll 0 _ rfl).trans hsources, hbefore.collecting, hbefore.sizeLimit, ?_⟩
  rw [List.map_append, List.map_cons, enterAll_append, ← hsources]
  exact enterAll_extends _ _ _

/-- In a batch without errors every file that is named can be read. -/
theorem contents_of_clean (hfile : f ∈ files) (h : (compiled tree reading files front).Clean) :
    ∃ text, (sourceAmong tree reading files.length f).contents tree front.sizeLimit = .ok text := by
  obtain ⟨ahead, behind, rfl⟩ := List.append_of_mem hfile
  obtain ⟨before, -, hcollecting, hlimit, hlater⟩ := entered_cut tree reading ahead behind front f
  obtain ⟨text, htext, -⟩ :=
    enterSource_clean hcollecting ((hlater.trans compiled_extends).clean h)
  rw [hlimit] at htext
  exact ⟨text, htext⟩

/-- **In a batch without errors a file that is named again declares nothing.** -/
theorem declaresNothing_of_clean (hfile : f ∈ files)
    (h : (compiled tree reading (files ++ [f]) front).Clean) :
    ∃ text, (sourceAmong tree reading (files.length + 1) f).contents tree front.sizeLimit =
        .ok text ∧ DeclaresNothing text := by
  obtain ⟨ahead, behind, rfl⟩ := List.append_of_mem hfile
  have hentered := compiled_extends.clean h
  unfold entered at hentered
  rw [List.length_append, List.length_singleton, List.map_append, List.map_append, List.map_cons,
    enterAll_append, enterAll_append] at hentered
  generalize (ahead ++ f :: behind).length + 1 = total at hentered ⊢
  let start : Completion := { front, registry := Registry.ofCapacity total }
  have hfirst : start.Extends (enterAll tree reading.parseThreshold total 0
      (ahead.map (sourceAmong tree reading total)) start) := enterAll_extends 0 _ start
  obtain ⟨text, htext, hnothing⟩ :=
    declaresNothing_of_enterSource hfirst.collecting (enterAll_extends _ _ _) hentered
  rw [hfirst.sizeLimit] at htext
  exact ⟨text, htext, hnothing⟩

section

variable {text : String} (hfile : f ∈ files)
  (htext : (sourceAmong tree reading files.length f).contents tree front.sizeLimit = .ok text)
  (hnothing : DeclaresNothing text)

include hfile htext hnothing

/-- Where a file that declares nothing is named, its unit has the outline of its text. -/
theorem entered_get? :
    ∃ place unit, (entered tree reading files front).registry.get? place = some unit ∧
      place < files.length ∧ unit.file = f ∧
      unit.outline = some (Outline.parse text true).outline := by
  obtain ⟨ahead, behind, rfl⟩ := List.append_of_mem hfile
  obtain ⟨before, hsize, hcollecting, hlimit, hlater⟩ := entered_cut tree reading ahead behind front f
  rw [← hlimit] at htext
  obtain ⟨hsame, houtline, -⟩ := enterSource_nothing htext hnothing reading.parseThreshold
    (ahead ++ f :: behind).length ahead.length
  obtain ⟨later, hget, hfile', houtline', -⟩ :=
    hlater.units _ _ (Registry.get?_add_new hcollecting _)
  refine ⟨before.registry.size, later, hget, by simp [hsize], ?_, houtline'.trans houtline⟩
  exact hfile'.trans (hsame.trans (sourceAmong_identity tree reading _ f).1)

/-- Naming a file again that declares nothing adds a unit behind the others. -/
theorem entered_repeats (hreading : ReadsAlike reading front.sizeLimit files.length) :
    ∃ extra place unit,
      (entered tree reading files front).Repeats (files ++ [f]) files.length extra
        (entered tree reading (files ++ [f]) (front.listing (files ++ [f]))) ∧
      extra.file = f ∧ extra.isBroken = false ∧
      (entered tree reading files front).registry.get? place = some unit ∧
      place < files.length ∧ unit.outline = extra.outline := by
  obtain ⟨place, unit, hget, hplace, hname, houtline⟩ := entered_get? hfile htext hnothing
  let start : Completion :=
    { front := front.listing (files ++ [f]), registry := Registry.ofCapacity (files.length + 1) }
  let moved := enterAll tree reading.parseThreshold (files.length + 1) 0
    (files.map (sourceAmong tree reading (files.length + 1))) start
  have hstart : Completion.Moved (files ++ [f])
      { front, registry := Registry.ofCapacity files.length } start := ⟨rfl, rfl, rfl, rfl⟩
  have hmoved : (entered tree reading files front).Moved (files ++ [f]) moved :=
    enterAll_moved hstart rfl (hreading.sourceAmong tree) _ _ _ 0 files
  have hlimit : moved.front.sizeLimit = front.sizeLimit := (enterAll_extends 0 _ start).sizeLimit
  have htext' : (sourceAmong tree reading (files.length + 1) f).contents tree
      moved.front.sizeLimit = .ok text := by
    rw [hlimit, (hreading.sourceAmong tree f).2.2, htext]
  obtain ⟨hname', houtline', hbroken, hfront⟩ := enterSource_nothing htext' hnothing
    reading.parseThreshold (files.length + 1) files.length
  have hagain : entered tree reading (files ++ [f]) (front.listing (files ++ [f])) =
      enterSource tree reading.parseThreshold (files.length + 1) files.length
        (sourceAmong tree reading (files.length + 1) f) moved := by
    unfold entered
    rw [List.length_append, List.length_singleton, List.map_append, enterAll_append, List.length_map,
      Nat.zero_add]
    rfl
  have hnamed := hname'.trans (sourceAmong_identity tree reading _ f).1
  let extra := Batch.notePackage (enteredSource tree reading.parseThreshold (files.length + 1)
    files.length (sourceAmong tree reading (files.length + 1) f) moved).1
  rw [hagain]
  refine ⟨extra.unplaced, place, unit,
    ⟨hfront.trans hmoved.front, ⟨_, [], ?_, (List.append_nil _).symm, ?_⟩, hmoved.collecting,
      Registry.collecting_add hmoved.collecting' _,
      Registry.contains_iff.2 ⟨place, unit, hget, hname.trans hnamed.symm⟩⟩,
    hnamed, hbroken, hget, hplace, houtline.trans houtline'.symm⟩
  · rw [Registry.length_unplaced, size_entered]
  · rw [← hmoved.slots]
    exact Registry.unplaced_add hmoved.collecting' _

/-- **Naming a file again that declares nothing adds a unit and changes no other.**  If the unit is
broken, so is the one that it repeats. -/
theorem compiled_repeats (hreading : ReadsAlike reading front.sizeLimit files.length) :
    ∃ extra,
      (compiled tree reading files front).Repeats (files ++ [f]) files.length extra
        (compiled tree reading (files ++ [f]) (front.listing (files ++ [f]))) ∧
      extra.file = f ∧
      (extra.isBroken = true → ¬ (compiled tree reading files front).Clean) := by
  obtain ⟨extra, place, unit, hrepeats, hname, hsound, hget, hplace, houtline⟩ :=
    entered_repeats hfile htext hnothing hreading
  let once := entered tree reading files front
  let twice := entered tree reading (files ++ [f]) (front.listing (files ++ [f]))
  -- Room for the units of both batches.
  let more := unitBound tree once + unitBound tree twice
  obtain ⟨problems, later, hlast, hlater, hproblems⟩ :=
    hrepeats.completeFrom hget hplace houtline more
  have hroom : unitBound tree once ≤ files.length + more := by omega
  have hroom' : unitBound tree twice ≤ files.length + 1 + more := by omega
  have honce : compiled tree reading files front =
      (completeFrom tree (files.length + more) 0 once).value :=
    (completeFrom_enough hroom).symm
  have htwice : compiled tree reading (files ++ [f]) (front.listing (files ++ [f])) =
      (completeFrom tree (files.length + 1 + more) 0 twice).value :=
    (completeFrom_enough hroom').symm
  rw [honce, htwice]
  refine ⟨extra.recordAll problems, hlast, hname, fun hbroken hclean => ?_⟩
  rw [hproblems (hclean.units place later hlater)] at hbroken
  have hkept : (extra.recordAll []).isBroken = extra.isBroken := rfl
  rw [hkept, hsound] at hbroken
  cases hbroken

end

end SourceFrontEnd

end JavaOutline
