/-
**Two batches side by side.**

A batch is compared with the same batch with one more unit in it: the unit of a file that is there
already.  The units of the command line stand in front, then comes the repeated unit, and the units
that others refer to come behind.  So the same units stand in other slots and their reports name other
places, but apart from that the two batches are completed alike.

Main definitions:

* `CompilationUnit.unplaced`, `Registry.unplaced` — units without their places in a batch;
* `Completion.Moved` — two batches with the same units;
* `Completion.Repeats` — a batch beside the same batch with one more unit.

Main results:

* `enterAll_moved` — sources are entered alike in two batches with the same units;
* `Repeats.resolveAll`, `Repeats.completeUnit` — references are resolved alike in both batches;
* `Repeats.completeFrom` — **a batch with a unit repeated is completed like the batch without**.
-/

import JavaOutline.Proofs.BatchGrowth

set_option autoImplicit false

namespace JavaOutline

/-! ### Units without their places -/

/-- The report without the place of its unit in the batch. -/
def UnitReport.unplaced (report : UnitReport) : UnitReport :=
  { report with index := 0, knownUnits := 0 }

/-- The unit without its place in the batch. -/
def CompilationUnit.unplaced (unit : CompilationUnit) : CompilationUnit :=
  { unit with ordinal := 0, report := unit.report.unplaced }

theorem UnitReport.unplaced_record (report : UnitReport) (problem : Problem) :
    (report.record problem).unplaced = report.unplaced.record problem := by
  unfold record
  simp only [show report.unplaced.hasErrors = report.hasErrors from rfl,
    show report.unplaced.problems = report.problems from rfl,
    show report.unplaced.maxProblems = report.maxProblems from rfl]
  split
  · rfl
  · split <;> rfl

theorem UnitReport.unplaced_recordAll (report : UnitReport) (problems : List Problem) :
    (report.recordAll problems).unplaced = report.unplaced.recordAll problems := by
  unfold recordAll
  induction problems generalizing report with
  | nil => rfl
  | cons problem problems ih =>
      rw [List.foldl_cons, List.foldl_cons, ih, unplaced_record]

theorem CompilationUnit.unplaced_recordAll (unit : CompilationUnit) (problems : List Problem) :
    (unit.recordAll problems).unplaced = unit.unplaced.recordAll problems := by
  simp only [recordAll, unplaced, UnitReport.unplaced_recordAll]

namespace SourceFrontEnd

theorem unplaced_recordSyntaxErrors (report : UnitReport) (errors : List SyntaxError) :
    (recordSyntaxErrors report errors).unplaced = recordSyntaxErrors report.unplaced errors := by
  unfold recordSyntaxErrors
  induction errors generalizing report with
  | nil => rfl
  | cons e errors ih =>
      rw [List.foldl_cons, List.foldl_cons, ih]
      congr 1
      exact UnitReport.unplaced_record _ _

theorem unplaced_reportParse (report : UnitReport) (parsed : Parse) :
    (reportParse report parsed).unplaced = reportParse report.unplaced parsed := by
  have hfound := unplaced_recordSyntaxErrors { report with separators := parsed.separators }
    parsed.errors
  have hplace : ({ report with separators := parsed.separators } : UnitReport).unplaced =
      { report.unplaced with separators := parsed.separators } := rfl
  rw [hplace] at hfound
  unfold reportParse
  simp only [← hfound]
  split <;> rfl

/-- A unit is checked the same wherever it stands. -/
theorem unplaced_check (unit : CompilationUnit) :
    (check (completeBodies unit)).unplaced = check (completeBodies unit.unplaced) := by
  have hbodies : (completeBodies unit).unplaced = completeBodies unit.unplaced := by
    unfold completeBodies
    simp only [show unit.unplaced.outline = unit.outline from rfl,
      show unit.unplaced.source = unit.source from rfl]
    split
    · simp only [CompilationUnit.unplaced, unplaced_recordSyntaxErrors]
    · rfl
  rw [← hbodies]
  generalize completeBodies unit = completed
  unfold check
  simp only [show completed.unplaced.outline = completed.outline from rfl,
    show completed.unplaced.file = completed.file from rfl]
  split
  · exact completed.unplaced_recordAll _
  · rfl

/-! ### The same front end with other files -/

/-- The front end with other files on its command line. -/
def listing (files : List String) (front : SourceFrontEnd) : SourceFrontEnd :=
  { front with options := { front.options with files } }

/-- A unit is entered the same wherever it stands, and whatever files are listed. -/
theorem enteredUnit_moved (tree : FileTree) {source moved : SourceFile} {report other : UnitReport}
    (diet : Bool) (front : SourceFrontEnd) (files : List String)
    (hfile : moved.file = source.file) (horigin : moved.origin = source.origin)
    (hcontents : moved.contents tree front.sizeLimit = source.contents tree front.sizeLimit)
    (hreport : other.unplaced = report.unplaced) :
    (enteredUnit tree moved other diet (front.listing files)).1.unplaced =
        (enteredUnit tree source report diet front).1.unplaced ∧
      (enteredUnit tree moved other diet (front.listing files)).2 =
        (enteredUnit tree source report diet front).2.listing files := by
  unfold enteredUnit parse
  simp only [show (front.listing files).sizeLimit = front.sizeLimit from rfl, hcontents]
  cases source.contents tree front.sizeLimit with
  | error e =>
      simp [CompilationUnit.make, CompilationUnit.unplaced, bind, hfile, horigin, hreport, listing]
  | ok text =>
      simp only [Logged.value_pure, bind, CompilationUnit.make, hfile, horigin]
      refine ⟨?_, rfl⟩
      simp only [CompilationUnit.unplaced, CompilationUnit.recordAll, UnitReport.unplaced_recordAll,
        unplaced_reportParse, hreport]
      rfl

end SourceFrontEnd

theorem unplaced_notePackage (unit : CompilationUnit) :
    (Batch.notePackage unit).unplaced = Batch.notePackage unit.unplaced := by
  have houtline : unit.unplaced.outline = unit.outline := rfl
  unfold Batch.notePackage
  rw [houtline]
  cases unit.outline.bind Outline.package with
  | none => rfl
  | some package => rfl

/-! ### Registries without places -/

theorem modify_append_left {α : Type} (change : α → α) {ahead : List α} (behind : List α)
    {index : Nat} (h : index < ahead.length) :
    (ahead ++ behind).modify index change = ahead.modify index change ++ behind := by
  induction ahead generalizing index with
  | nil => cases h
  | cons first ahead ih =>
      cases index with
      | zero => rfl
      | succ index => exact congrArg (first :: ·) (ih (Nat.lt_of_succ_lt_succ h))

theorem modify_append_right {α : Type} (change : α → α) {ahead : List α} (behind : List α)
    {index : Nat} (h : ahead.length ≤ index) :
    (ahead ++ behind).modify index change =
      ahead ++ behind.modify (index - ahead.length) change := by
  induction ahead generalizing index with
  | nil => rfl
  | cons first ahead ih =>
      cases index with
      | zero => cases h
      | succ index =>
          rw [List.length_cons, Nat.add_sub_add_right]
          exact congrArg (first :: ·) (ih (Nat.le_of_succ_le_succ h))

namespace Registry

/-- The slots of a registry, without the places of the units. -/
def unplaced (registry : Registry) : List (Option CompilationUnit) :=
  registry.slots.map (Option.map CompilationUnit.unplaced)

theorem length_unplaced (registry : Registry) : registry.unplaced.length = registry.size :=
  List.length_map _

theorem unplaced_add {registry : Registry} (h : registry.collecting = true)
    (unit : CompilationUnit) :
    (registry.add unit).2.unplaced = registry.unplaced ++ [some unit.unplaced] := by
  simp [add, h, unplaced, CompilationUnit.unplaced]

theorem collecting_add {registry : Registry} (h : registry.collecting = true)
    (unit : CompilationUnit) : (registry.add unit).2.collecting = true := by
  simp [add, h]

theorem unplaced_modify (registry : Registry) (index : Nat) (problems : List Problem) :
    (registry.modify index (·.recordAll problems)).unplaced =
      registry.unplaced.modify index (Option.map (·.recordAll problems)) := by
  refine List.ext_getElem? fun place => ?_
  simp only [unplaced, modify, List.getElem?_map, List.getElem?_modify]
  cases registry.slots[place]? with
  | none => rfl
  | some slot =>
      cases slot with
      | none => by_cases h : index = place <;> simp [h]
      | some unit => by_cases h : index = place <;> simp [h, unit.unplaced_recordAll]

/-- The unit in a slot, without its place. -/
theorem unplaced_get? (registry : Registry) (index : Nat) :
    (registry.get? index).map CompilationUnit.unplaced = (registry.unplaced[index]?).join := by
  simp only [get?, unplaced, List.getElem?_map]
  cases registry.slots[index]? with
  | none => rfl
  | some slot => cases slot <;> rfl

theorem outline_get? (registry : Registry) (index : Nat) :
    (registry.get? index).bind CompilationUnit.outline =
      (registry.unplaced[index]?).join.bind CompilationUnit.outline := by
  rw [← unplaced_get?, Option.bind_map]
  rfl

theorem contains_eq (registry : Registry) (file : String) :
    registry.contains file = registry.unplaced.any (Option.any (·.file == file)) := by
  simp only [contains, units, unplaced]
  induction registry.slots with
  | nil => rfl
  | cons slot slots ih =>
      cases slot with
      | none => simpa using ih
      | some unit => simpa [CompilationUnit.unplaced] using congrArg _ ih

end Registry

/-! ### Entering sources in two batches -/

namespace SourceFrontEnd

/-- Two batches with the same units in other places, and other files on the command line. -/
structure Completion.Moved (files : List String) (state moved : Completion) : Prop where
  front : moved.front = state.front.listing files
  slots : moved.registry.unplaced = state.registry.unplaced
  collecting : state.registry.collecting = true
  collecting' : moved.registry.collecting = true

variable {tree : FileTree} {files : List String} {state moved : Completion}

section

variable (h : state.Moved files moved) {source other : SourceFile}
  (hfile : other.file = source.file) (horigin : other.origin = source.origin)
  (hcontents : other.contents tree state.front.sizeLimit =
    source.contents tree state.front.sizeLimit) (threshold total total' index : Nat)

include h hfile horigin hcontents

theorem enteredSource_moved :
    (enteredSource tree threshold total' index other moved).1.unplaced =
        (enteredSource tree threshold total index source state).1.unplaced ∧
      (enteredSource tree threshold total' index other moved).2 =
        (enteredSource tree threshold total index source state).2.listing files := by
  have hsize : moved.registry.size = state.registry.size := by
    rw [← Registry.length_unplaced, h.slots, Registry.length_unplaced]
  let report (known : Nat) : UnitReport :=
    { file := source.file, index, knownUnits := known
      maxProblems := state.front.options.maxProblems }
  have hreport : (report total').unplaced = (report total).unplaced := rfl
  unfold enteredSource
  rw [h.front, hsize, hfile]
  exact enteredUnit_moved tree (decide (threshold ≤ state.registry.size)) state.front files hfile
    horigin hcontents hreport

theorem enterSource_moved :
    (enterSource tree threshold total index source state).Moved files
      (enterSource tree threshold total' index other moved) := by
  obtain ⟨hunit, hfront⟩ :=
    enteredSource_moved h hfile horigin hcontents threshold total total' index
  unfold enterSource
  refine ⟨hfront, ?_, Registry.collecting_add h.collecting _,
    Registry.collecting_add h.collecting' _⟩
  rw [Registry.unplaced_add h.collecting, Registry.unplaced_add h.collecting', h.slots,
    unplaced_notePackage, unplaced_notePackage, hunit]

end

/-- Sources are entered alike in two batches, if reading them gives the same. -/
theorem enterAll_moved (h : state.Moved files moved) {source other : String → SourceFile}
    {limit : Nat} (hlimit : state.front.sizeLimit = limit)
    (hsources : ∀ file, (other file).file = (source file).file ∧
      (other file).origin = (source file).origin ∧
      (other file).contents tree limit = (source file).contents tree limit)
    (threshold total total' index : Nat) (names : List String) :
    (enterAll tree threshold total index (names.map source) state).Moved files
      (enterAll tree threshold total' index (names.map other) moved) := by
  induction names generalizing index state moved with
  | nil => exact h
  | cons name names ih =>
      obtain ⟨hfile, horigin, hcontents⟩ := hsources name
      rw [← hlimit] at hcontents
      exact ih (enterSource_moved h hfile horigin hcontents threshold total total' index)
        ((enterSource_extends index (source name) state).sizeLimit.trans hlimit) (index + 1)

/-! ### Completing two batches -/

/-- A batch, and the same batch with one more unit behind the first ones, whose file is there
already. -/
structure Completion.Repeats (files : List String) (count : Nat) (extra : CompilationUnit)
    (once twice : Completion) : Prop where
  front : twice.front = once.front.listing files
  slots : ∃ ahead behind, ahead.length = count ∧ once.registry.unplaced = ahead ++ behind ∧
    twice.registry.unplaced = ahead ++ some extra :: behind
  collecting : once.registry.collecting = true
  collecting' : twice.registry.collecting = true
  contains : once.registry.contains extra.file = true

namespace Completion.Repeats

variable {count : Nat} {extra : CompilationUnit} {once twice : Completion}

theorem contains_eq (h : once.Repeats files count extra twice) (path : String) :
    twice.registry.contains path = once.registry.contains path := by
  obtain ⟨ahead, behind, -, honce, htwice⟩ := h.slots
  have hextra := h.contains
  rw [Registry.contains_eq, honce, List.any_append] at hextra
  rw [twice.registry.contains_eq, once.registry.contains_eq, honce, htwice, List.any_append,
    List.any_append, List.any_cons, Option.any_some]
  by_cases hpath : extra.file = path
  · subst hpath
    simp [hextra]
  · rw [beq_eq_false_iff_ne.2 hpath, Bool.false_or]

theorem size_eq (h : once.Repeats files count extra twice) :
    twice.registry.size = once.registry.size + 1 := by
  obtain ⟨ahead, behind, -, honce, htwice⟩ := h.slots
  rw [← Registry.length_unplaced, ← Registry.length_unplaced, honce, htwice]
  simp [Nat.add_assoc]

theorem count_le (h : once.Repeats files count extra twice) : count ≤ once.registry.size := by
  obtain ⟨ahead, behind, rfl, honce, -⟩ := h.slots
  rw [← Registry.length_unplaced, honce, List.length_append]
  exact Nat.le_add_right _ _

/-- The same unit is added to both. -/
theorem add (h : once.Repeats files count extra twice) {front front' : SourceFrontEnd}
    {unit moved : CompilationUnit} (hfront : front' = front.listing files)
    (hunit : moved.unplaced = unit.unplaced) :
    Repeats files count extra { front, registry := (once.registry.add unit).2 }
      { front := front', registry := (twice.registry.add moved).2 } := by
  obtain ⟨ahead, behind, hcount, honce, htwice⟩ := h.slots
  refine ⟨hfront, ⟨ahead, behind ++ [some unit.unplaced], hcount, ?_, ?_⟩,
    Registry.collecting_add h.collecting _, Registry.collecting_add h.collecting' _, ?_⟩
  · rw [Registry.unplaced_add h.collecting, honce, List.append_assoc]
  · rw [Registry.unplaced_add h.collecting', htwice, hunit, List.append_assoc, List.cons_append]
  · rw [Registry.contains_eq, Registry.unplaced_add h.collecting, List.any_append,
      ← Registry.contains_eq, h.contains, Bool.true_or]

/-- A file that may declare a type is added to both. -/
theorem loadClosure (h : once.Repeats files count extra twice) (path : String) :
    (loadClosure tree path once).value.Repeats files count extra
      (loadClosure tree path twice).value := by
  cases hcontains : once.registry.contains path with
  | true =>
      have hcontains' := h.contains_eq path
      rw [hcontains] at hcontains'
      rw [loadClosure_old hcontains, loadClosure_old hcontains']
      exact h
  | false =>
      have hcontains' := h.contains_eq path
      rw [hcontains] at hcontains'
      let report (size : Nat) : UnitReport :=
        { file := path, index := size, knownUnits := size + 1
          maxProblems := once.front.options.maxProblems }
      have hreport : (report twice.registry.size).unplaced = (report once.registry.size).unplaced :=
        rfl
      let source : SourceFile := { file := path, origin := .closure }
      obtain ⟨hunit, hfront⟩ := enteredUnit_moved tree true once.front files
        (rfl : source.file = source.file) rfl rfl hreport
      rw [loadClosure_new hcontains, loadClosure_new hcontains', h.front]
      exact h.add hfront hunit

theorem searchSourcepath (h : once.Repeats files count extra twice) (candidates : List String) :
    (searchSourcepath tree candidates twice).value.1 =
        (searchSourcepath tree candidates once).value.1 ∧
      (searchSourcepath tree candidates once).value.2.Repeats files count extra
        (searchSourcepath tree candidates twice).value.2 := by
  induction candidates generalizing once twice with
  | nil => exact ⟨rfl, h⟩
  | cons candidate candidates ih =>
      have hfind : twice.front.findOnSourcepath tree candidate =
          once.front.findOnSourcepath tree candidate := by
        rw [h.front]
        rfl
      unfold SourceFrontEnd.searchSourcepath
      rw [hfind]
      cases once.front.findOnSourcepath tree candidate with
      | none => exact ih h
      | some path =>
          have hload : (SourceFrontEnd.loadClosure tree path once).value.Repeats files count extra
            (SourceFrontEnd.loadClosure tree path twice).value := h.loadClosure path
          have hknows :
              (SourceFrontEnd.loadClosure tree path twice).value.front.types.knowsType candidate =
                (SourceFrontEnd.loadClosure tree path once).value.front.types.knowsType
                  candidate := by
            rw [hload.front]
            rfl
          simp only [Logged.value_bind, hknows]
          split
          · exact ⟨rfl, hload⟩
          · exact ih hload

theorem resolve (tree : FileTree) (h : once.Repeats files count extra twice)
    (reference : Reference) :
    (resolve tree reference twice).value.1 = (resolve tree reference once).value.1 ∧
      (resolve tree reference once).value.2.Repeats files count extra
        (resolve tree reference twice).value.2 := by
  have hknown : isKnown tree twice.front reference = isKnown tree once.front reference := by
    rw [h.front]
    rfl
  unfold SourceFrontEnd.resolve
  rw [hknown]
  split
  · exact ⟨rfl, h⟩
  · exact h.searchSourcepath reference.candidates

theorem resolveAll (tree : FileTree) (h : once.Repeats files count extra twice)
    (references : List Reference) :
    (resolveAll tree references twice).value.1 = (resolveAll tree references once).value.1 ∧
      (resolveAll tree references once).value.2.Repeats files count extra
        (resolveAll tree references twice).value.2 := by
  induction references generalizing once twice with
  | nil => exact ⟨rfl, h⟩
  | cons reference references ih =>
      obtain ⟨hanswer, hnext⟩ := h.resolve tree reference
      obtain ⟨hproblems, hlast⟩ := ih hnext
      rw [resolveAll_cons, resolveAll_cons]
      refine ⟨?_, hlast⟩
      have hmust : mustResolve (SourceFrontEnd.resolve tree reference twice).value.2.front.options
          reference = mustResolve (SourceFrontEnd.resolve tree reference once).value.2.front.options
            reference := by
        rw [hnext.front]
        rfl
      simp only [hanswer, hmust, hproblems]

/-- The slot in the larger batch of a unit that has a slot in the smaller one. -/
def slotBeside (count index : Nat) : Nat := if index < count then index else index + 1

theorem getElem?_slotBeside (h : once.Repeats files count extra twice) (index : Nat) :
    twice.registry.unplaced[slotBeside count index]? = once.registry.unplaced[index]? := by
  obtain ⟨ahead, behind, rfl, honce, htwice⟩ := h.slots
  rw [honce, htwice]
  unfold slotBeside
  split
  next hindex => rw [List.getElem?_append_left hindex, List.getElem?_append_left hindex]
  next hindex =>
    rw [List.getElem?_append_right (by omega), List.getElem?_append_right (by omega),
      Nat.sub_add_comm (by omega), List.getElem?_cons_succ]

/-- Problems are recorded for a unit in both. -/
theorem record (h : once.Repeats files count extra twice) (index : Nat) (problems : List Problem) :
    Repeats files count extra
      { once with registry := once.registry.modify index (·.recordAll problems) }
      { twice with
        registry := twice.registry.modify (slotBeside count index) (·.recordAll problems) } := by
  obtain ⟨ahead, behind, rfl, honce, htwice⟩ := h.slots
  refine ⟨h.front, ?_, h.collecting, h.collecting', (extends_record index problems once).contains
    h.contains⟩
  rw [Registry.unplaced_modify, Registry.unplaced_modify, honce, htwice]
  unfold slotBeside
  split
  next hindex =>
    rw [modify_append_left _ _ hindex, modify_append_left _ _ hindex]
    exact ⟨_, behind, List.length_modify .., rfl, rfl⟩
  next hindex =>
    rw [modify_append_right _ _ (by omega), modify_append_right _ _ (by omega),
      Nat.sub_add_comm (by omega), List.modify_succ_cons]
    exact ⟨ahead, _, rfl, rfl, rfl⟩

/-- The same unit is completed in both. -/
theorem completeUnit (h : once.Repeats files count extra twice) (index : Nat) :
    (completeUnit tree index once).value.Repeats files count extra
      (completeUnit tree (slotBeside count index) twice).value := by
  have houtline : (twice.registry.get? (slotBeside count index)).bind CompilationUnit.outline =
      (once.registry.get? index).bind CompilationUnit.outline := by
    rw [Registry.outline_get?, Registry.outline_get?, h.getElem?_slotBeside]
  unfold SourceFrontEnd.completeUnit
  rw [houtline]
  cases (once.registry.get? index).bind CompilationUnit.outline with
  | none => exact h
  | some outline =>
      obtain ⟨hproblems, hnext⟩ := h.resolveAll tree outline.references
      simp only [Logged.value_bind, Logged.value_pure, hproblems]
      exact hnext.record index _

/-- The first units are completed alike. -/
theorem completeFrom_ahead (h : once.Repeats files count extra twice) {fuel index : Nat}
    (hlast : index + fuel ≤ count) :
    (completeFrom tree fuel index once).value.Repeats files count extra
      (completeFrom tree fuel index twice).value := by
  induction fuel generalizing index once twice with
  | zero => exact h
  | succ fuel ih =>
      have hcount := h.count_le
      have hsize := h.size_eq
      have hnext : (SourceFrontEnd.completeUnit tree index once).value.Repeats files count extra
          (SourceFrontEnd.completeUnit tree (slotBeside count index) twice).value :=
        h.completeUnit index
      rw [slotBeside, if_pos (by omega)] at hnext
      rw [completeFrom_succ fuel (by omega), completeFrom_succ fuel (by omega)]
      exact ih hnext (by omega)

/-- The units behind are completed alike. -/
theorem completeFrom_behind (h : once.Repeats files count extra twice) (fuel : Nat) {index : Nat}
    (hfirst : count ≤ index) :
    (completeFrom tree fuel index once).value.Repeats files count extra
      (completeFrom tree fuel (index + 1) twice).value := by
  induction fuel generalizing index once twice with
  | zero => exact h
  | succ fuel ih =>
      have hsize := h.size_eq
      by_cases hindex : index < once.registry.size
      · have hnext : (SourceFrontEnd.completeUnit tree index once).value.Repeats files count extra
            (SourceFrontEnd.completeUnit tree (slotBeside count index) twice).value :=
          h.completeUnit index
        rw [slotBeside, if_neg (by omega)] at hnext
        rw [completeFrom_succ fuel hindex, completeFrom_succ fuel (by omega)]
        exact ih hnext (by omega)
      · rw [completeFrom_done _ hindex, completeFrom_done _ (by omega)]
        exact h

/-- What was tried in the one was tried in the other. -/
theorem tried (h : once.Repeats files count extra twice) {reference : Reference}
    (htried : once.Tried tree reference) : twice.Tried tree reference := by
  unfold Tried at htried ⊢
  simp only [h.contains_eq]
  rw [h.front]
  exact htried

/-- Problems are recorded for the repeated unit. -/
theorem recordExtra (h : once.Repeats files count extra twice) (problems : List Problem) :
    once.Repeats files count (extra.recordAll problems)
      { twice with registry := twice.registry.modify count (·.recordAll problems) } := by
  obtain ⟨ahead, behind, rfl, honce, htwice⟩ := h.slots
  refine ⟨h.front, ⟨ahead, behind, rfl, honce, ?_⟩, h.collecting, h.collecting', h.contains⟩
  rw [Registry.unplaced_modify, htwice, modify_append_right _ _ (Nat.le_refl _), Nat.sub_self,
    List.modify_zero_cons]
  rfl

/-- The repeated unit is completed: nothing else changes, and no problem is found if the unit that it
repeats is completed and not broken. -/
theorem completeExtra (h : once.Repeats files count extra twice) {place : Nat}
    {unit : CompilationUnit} (hunit : once.registry.get? place = some unit)
    (houtline : unit.outline = extra.outline) (hcompleted : once.Completed tree place) :
    ∃ problems, once.Repeats files count (extra.recordAll problems)
        (SourceFrontEnd.completeUnit tree count twice).value ∧
      (unit.isBroken = false → problems = []) := by
  have hextra : (twice.registry.get? count).bind CompilationUnit.outline = extra.outline := by
    obtain ⟨ahead, behind, rfl, -, htwice⟩ := h.slots
    rw [Registry.outline_get?, htwice, List.getElem?_append_right (Nat.le_refl _)]
    simp
  unfold SourceFrontEnd.completeUnit
  rw [hextra]
  cases hfound : extra.outline with
  | none => exact ⟨[], h, fun _ => rfl⟩
  | some outline =>
      have hreferences := hcompleted unit outline hunit (houtline.trans hfound)
      have htried : ∀ reference ∈ outline.references, twice.Tried tree reference :=
        fun reference hreference => h.tried (hreferences reference hreference).1
      simp only [Logged.value_bind, Logged.value_pure, resolveAll_again htried]
      refine ⟨_, h.recordExtra _, fun hclean => ?_⟩
      -- What must be resolved is known in both.
      refine List.map_eq_nil_iff.2 (List.filter_eq_nil_iff.2 fun reference hreference => ?_)
      have hknown := (hreferences reference hreference).2 hclean
      rw [h.front]
      simp only [Bool.and_eq_true, Bool.not_eq_true', not_and]
      intro hunknown hmust
      have hunknown' : isKnown tree once.front reference = false := hunknown
      rw [hknown hmust] at hunknown'
      cases hunknown'

/-- **A batch with a unit repeated is completed like the batch without**, and if a problem is found
for the repeated unit, then the unit that it repeats is broken. -/
theorem completeFrom (h : once.Repeats files count extra twice) {place : Nat}
    {unit : CompilationUnit} (hunit : once.registry.get? place = some unit) (hplace : place < count)
    (houtline : unit.outline = extra.outline) (fuel : Nat) :
    ∃ problems later,
      (completeFrom tree (count + fuel) 0 once).value.Repeats files count
        (extra.recordAll problems) (completeFrom tree (count + 1 + fuel) 0 twice).value ∧
      (completeFrom tree (count + fuel) 0 once).value.registry.get? place = some later ∧
      (later.isBroken = false → problems = []) := by
  have hahead : (SourceFrontEnd.completeFrom tree count 0 once).value.Repeats files count extra
      (SourceFrontEnd.completeFrom tree count 0 twice).value := h.completeFrom_ahead (by omega)
  have hcompleted : (SourceFrontEnd.completeFrom tree count 0 once).value.Completed tree place :=
    completeFrom_completed h.collecting hunit (Nat.zero_le _) (by omega)
  have hfirst : once.Extends (SourceFrontEnd.completeFrom tree count 0 once).value :=
    completeFrom_extends count 0 once
  obtain ⟨middle, hmiddle, -, hsame, -⟩ := hfirst.units place unit hunit
  obtain ⟨problems, hextra, hnone⟩ := hahead.completeExtra hmiddle (hsame.trans houtline) hcompleted
  have hrest : (SourceFrontEnd.completeFrom tree count 0 once).value.Extends
      (SourceFrontEnd.completeFrom tree fuel (0 + count)
        (SourceFrontEnd.completeFrom tree count 0 once).value).value :=
    completeFrom_extends fuel _ _
  obtain ⟨later, hlater, -, -, hbroken⟩ := hrest.units place middle hmiddle
  have hextra' : (SourceFrontEnd.completeFrom tree (count + 1) 0 twice).value =
      (SourceFrontEnd.completeUnit tree count
        (SourceFrontEnd.completeFrom tree count 0 twice).value).value := by
    have hcount := hahead.count_le
    have hsize := hahead.size_eq
    rw [completeFrom_add, completeFrom_succ 0 (by omega), Nat.zero_add]
    rfl
  rw [completeFrom_add, completeFrom_add, hextra']
  refine ⟨problems, later, ?_, hlater, fun hclean => hnone ?_⟩
  · rw [Nat.zero_add, Nat.zero_add]
    exact hextra.completeFrom_behind fuel (Nat.le_refl _)
  · exact Bool.eq_false_iff.2 fun htrue => by simp [hbroken htrue] at hclean

end Completion.Repeats

end SourceFrontEnd

end JavaOutline
