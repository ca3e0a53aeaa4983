/-
**How a batch grows while it is compiled.**

Sources are entered one after another, and then units are added that others refer to.  Nothing is
taken back on the way: units stay in their slots with what was found wrong with them, types stay
known, and errors stay counted.  So what was tried for a reference need not be tried again: the
reference is known by then, or every file that could help is in the batch and did not help.

Main definitions:

* `Completion.Extends` — a later state of a batch;
* `enteredSource`, `enterSource`, `enterAll` — entering sources in order;
* `Completion.Tried`, `Completion.Completed` — a reference for which all was tried, and a slot whose
  references are such.

Main results:

* `enterAll_extends`, `completeFrom_extends` — the stages of the front end only add to a batch;
* `resolveAll_again` — resolving a second time changes nothing;
* `completeFrom_completed` — what a visited slot refers to was tried.
-/

import JavaOutline.Proofs.SourceBatch

set_option autoImplicit false

namespace JavaOutline

/-! ### Problems stay -/

namespace UnitReport

theorem hasErrors_record (report : UnitReport) (problem : Problem)
    (h : report.hasErrors = true) : (report.record problem).hasErrors = true := by
  unfold record
  split
  · simp only [hasErrors, List.any_append, Bool.or_eq_true] at h ⊢
    exact .inl h
  · split
    · rename_i hfirst
      simp [h] at hfirst
    · exact h

theorem hasSyntaxError_record (report : UnitReport) (problem : Problem) :
    (report.record problem).hasSyntaxError = report.hasSyntaxError := by
  unfold record
  split
  · rfl
  · split <;> rfl

end UnitReport

namespace CompilationUnit

theorem recordAll_cons (unit : CompilationUnit) (problem : Problem) (problems : List Problem) :
    unit.recordAll (problem :: problems) = (unit.recordAll [problem]).recordAll problems := rfl

/-- A broken unit stays broken when problems are added. -/
theorem isBroken_recordAll {unit : CompilationUnit} (problems : List Problem)
    (h : unit.isBroken = true) : (unit.recordAll problems).isBroken = true := by
  induction problems generalizing unit with
  | nil => exact h
  | cons problem problems ih =>
      rw [recordAll_cons]
      refine ih ?_
      simp only [isBroken, hasSyntaxError, hasErrors, Bool.or_eq_true] at h ⊢
      exact h.imp (fun hsyntax => (unit.report.hasSyntaxError_record problem).trans hsyntax)
        (unit.report.hasErrors_record problem)

/-- A unit is broken once an error is added. -/
theorem isBroken_recordAll_error (unit : CompilationUnit) {problems : List Problem}
    (herrors : ∀ problem ∈ problems, problem.isError = true) (hsome : problems ≠ []) :
    (unit.recordAll problems).isBroken = true := by
  cases problems with
  | nil => exact absurd rfl hsome
  | cons problem problems =>
      rw [recordAll_cons]
      refine isBroken_recordAll problems ?_
      simp only [isBroken, hasErrors, Bool.or_eq_true]
      exact .inr (unit.report.hasErrors_record_error (herrors problem List.mem_cons_self))

end CompilationUnit

/-- A file is in a registry if a slot holds a unit of that file. -/
theorem Registry.contains_iff {registry : Registry} {file : String} :
    registry.contains file = true ↔
      ∃ index unit, registry.get? index = some unit ∧ unit.file = file := by
  simp only [contains, units, List.any_eq_true, List.mem_filterMap, beq_iff_eq, get?,
    Option.join_eq_some_iff]
  constructor
  · rintro ⟨unit, ⟨slot, hslot, hunit⟩, hfile⟩
    obtain ⟨index, hindex⟩ := List.mem_iff_getElem?.1 hslot
    exact ⟨index, unit, by rw [hindex]; exact congrArg some hunit, hfile⟩
  · rintro ⟨index, unit, hunit, hfile⟩
    exact ⟨unit, ⟨some unit, List.mem_of_getElem? hunit, rfl⟩, hfile⟩

namespace SourceFrontEnd

/-- A report with a syntax error is one of broken syntax. -/
theorem hasSyntaxError_recordSyntaxErrors (report : UnitReport) (e : SyntaxError)
    (errors : List SyntaxError) :
    (recordSyntaxErrors report (e :: errors)).hasSyntaxError = true := by
  have hkept (before : UnitReport) (h : before.hasSyntaxError = true) :
      (recordSyntaxErrors before errors).hasSyntaxError = true := by
    unfold recordSyntaxErrors
    induction errors generalizing before with
    | nil => exact h
    | cons first errors ih =>
        exact ih _ (UnitReport.hasSyntaxError_record _ _)
  exact hkept _ (UnitReport.hasSyntaxError_record _ _)

/-! ### Later states of a batch -/

/-- A later state of a batch.  Units stay where they are and broken ones stay broken, types are only
added, and errors are only counted. -/
structure Completion.Extends (before after : Completion) : Prop where
  options : after.front.options = before.front.options
  sizeLimit : after.front.sizeLimit = before.front.sizeLimit
  types : ∃ more, after.front.types.bindings = before.front.types.bindings ++ more
  globalErrors : before.front.globalErrors ≤ after.front.globalErrors
  collecting : after.registry.collecting = before.registry.collecting
  units : ∀ index unit, before.registry.get? index = some unit →
    ∃ later, after.registry.get? index = some later ∧ later.file = unit.file ∧
      later.outline = unit.outline ∧ (unit.isBroken = true → later.isBroken = true)

namespace Completion.Extends

variable {tree : FileTree} {before middle after : Completion}

theorem refl (state : Completion) : state.Extends state where
  options := rfl
  sizeLimit := rfl
  types := ⟨[], by simp⟩
  globalErrors := Nat.le_refl _
  collecting := rfl
  units _ unit h := ⟨unit, h, rfl, rfl, id⟩

theorem trans (h : before.Extends middle) (hlater : middle.Extends after) :
    before.Extends after where
  options := hlater.options.trans h.options
  sizeLimit := hlater.sizeLimit.trans h.sizeLimit
  types := by
    obtain ⟨more, hmore⟩ := h.types
    obtain ⟨others, hothers⟩ := hlater.types
    exact ⟨more ++ others, by rw [hothers, hmore, List.append_assoc]⟩
  globalErrors := Nat.le_trans h.globalErrors hlater.globalErrors
  collecting := hlater.collecting.trans h.collecting
  units index unit hunit := by
    obtain ⟨next, hnext, hfile, houtline, hbroken⟩ := h.units index unit hunit
    obtain ⟨last, hlast, hfile', houtline', hbroken'⟩ := hlater.units index next hnext
    exact ⟨last, hlast, hfile'.trans hfile, houtline'.trans houtline, hbroken' ∘ hbroken⟩

/-- A file that is in the batch stays there. -/
theorem contains (h : before.Extends after) {file : String}
    (hfile : before.registry.contains file = true) : after.registry.contains file = true := by
  obtain ⟨index, unit, hunit, rfl⟩ := Registry.contains_iff.1 hfile
  obtain ⟨later, hlater, hsame, -⟩ := h.units index unit hunit
  exact Registry.contains_iff.2 ⟨index, later, hlater, hsame⟩

/-- A type that is known stays known. -/
theorem knowsType (h : before.Extends after) {name : String}
    (hname : before.front.types.knowsType name = true) :
    after.front.types.knowsType name = true := by
  obtain ⟨more, hmore⟩ := h.types
  simp only [TypeIndex.knowsType, TypeIndex.find?, hmore, List.find?_append] at hname ⊢
  obtain ⟨found, hfound⟩ := Option.isSome_iff_exists.1 hname
  simp [hfound]

/-- A reference that needs no search needs none later on. -/
theorem isKnown (h : before.Extends after) {reference : Reference}
    (hknown : isKnown tree before.front reference = true) :
    SourceFrontEnd.isKnown tree after.front reference = true := by
  have hpackage (package : String) (hfound : before.front.types.knowsPackage package = true) :
      after.front.types.knowsPackage package = true := by
    obtain ⟨more, hmore⟩ := h.types
    simp only [TypeIndex.knowsPackage, hmore, List.any_append, Bool.or_eq_true] at hfound ⊢
    exact .inl hfound
  have hdirectory (package : String) : after.front.packageOnSourcepath tree package =
      before.front.packageOnSourcepath tree package := by
    simp only [packageOnSourcepath, h.options]
  simp only [SourceFrontEnd.isKnown, Bool.or_eq_true, List.any_eq_true, Option.any_eq_true,
    hdirectory] at hknown ⊢
  refine hknown.imp ?_ ?_
  · rintro ⟨candidate, hcandidate, hname⟩
    exact ⟨candidate, hcandidate, h.knowsType hname⟩
  · rintro ⟨package, hfound, hname⟩
    exact ⟨package, hfound, hname.imp_left (hpackage package)⟩

theorem findOnSourcepath (h : before.Extends after) (name : String) :
    after.front.findOnSourcepath tree name = before.front.findOnSourcepath tree name := by
  simp only [SourceFrontEnd.findOnSourcepath, h.options]

end Completion.Extends

/-! ### Entering sources -/

/-- The types that a file declares are only added. -/
theorem defineAll_adds (file : String) (declared : List (String × Span)) (types : TypeIndex) :
    ∃ more, (defineAll file declared types).2.bindings = types.bindings ++ more := by
  induction declared generalizing types with
  | nil => exact ⟨[], by simp [defineAll]⟩
  | cons first declared ih =>
      obtain ⟨name, span⟩ := first
      let binding : TypeBinding := { name, file, span }
      unfold defineAll
      cases hdefine : types.define binding with
      | error earlier => exact ih types
      | ok next =>
          obtain ⟨more, hmore⟩ := ih next
          have hnext : next.bindings = types.bindings ++ [binding] := by
            unfold TypeIndex.define at hdefine
            split at hdefine
            · cases hdefine
            · cases hdefine
              rfl
          exact ⟨binding :: more, by rw [hmore, hnext, List.append_assoc]; rfl⟩

section

variable (tree : FileTree) (source : SourceFile) (report : UnitReport) (diet : Bool)

/-- Entering a unit adds to what the front end knows. -/
theorem enteredUnit_front (front : SourceFrontEnd) :
    (enteredUnit tree source report diet front).2.options = front.options ∧
      (enteredUnit tree source report diet front).2.sizeLimit = front.sizeLimit ∧
      (∃ more, (enteredUnit tree source report diet front).2.types.bindings =
        front.types.bindings ++ more) ∧
      front.globalErrors ≤ (enteredUnit tree source report diet front).2.globalErrors := by
  unfold enteredUnit SourceFrontEnd.parse SourceFrontEnd.bind
  cases source.contents tree front.sizeLimit with
  | error e => exact ⟨rfl, rfl, ⟨[], by simp [CompilationUnit.make]⟩, Nat.le_succ _⟩
  | ok text =>
      simp only [CompilationUnit.make, Logged.value_pure]
      exact ⟨trivial, trivial, defineAll_adds _ _ _, Nat.le_refl _⟩

/-- A batch to which an entered unit was added, changed or not, is a later one. -/
theorem extends_add (state : Completion) (unit : CompilationUnit) :
    state.Extends
      { front := (enteredUnit tree source report diet state.front).2
        registry := (state.registry.add unit).2 } where
  options := (enteredUnit_front tree source report diet state.front).1
  sizeLimit := (enteredUnit_front tree source report diet state.front).2.1
  types := (enteredUnit_front tree source report diet state.front).2.2.1
  globalErrors := (enteredUnit_front tree source report diet state.front).2.2.2
  collecting := by
    unfold Registry.add
    split <;> rfl
  units index old hold := by
    have hindex : index < state.registry.size := by
      simp only [Registry.get?, Option.join_eq_some_iff] at hold
      exact (List.getElem?_eq_some_iff.1 hold).1
    exact ⟨old, (Registry.get?_add_old hindex unit).trans hold, rfl, rfl, id⟩

end

/-- The unit of a source of the command line, and the front end after its types were entered.  The
source has a place among so many, and behind a threshold its bodies are passed over. -/
def enteredSource (tree : FileTree) (threshold total index : Nat) (source : SourceFile)
    (state : Completion) : CompilationUnit × SourceFrontEnd :=
  enteredUnit tree source
    { file := source.file, index, knownUnits := total
      maxProblems := state.front.options.maxProblems }
    (decide (threshold ≤ state.registry.size)) state.front

/-- The batch after a source of the command line was entered. -/
def enterSource (tree : FileTree) (threshold total index : Nat) (source : SourceFile)
    (state : Completion) : Completion :=
  let entered := enteredSource tree threshold total index source state
  { front := entered.2, registry := (state.registry.add (Batch.notePackage entered.1)).2 }

/-- The batch after sources of the command line were entered in order. -/
def enterAll (tree : FileTree) (threshold total : Nat) :
    Nat → List SourceFile → Completion → Completion
  | _, [], state => state
  | index, source :: sources, state =>
      enterAll tree threshold total (index + 1) sources
        (enterSource tree threshold total index source state)

variable {tree : FileTree} {threshold total : Nat} {state : Completion}

/-- Parsing sources enters them in order. -/
theorem value_parseAll (index : Nat) (sources : List SourceFile) (state : Completion) :
    (Batch.parseAll (sourceFrontEnd tree) threshold total index sources state.registry
      state.front).value =
        ((enterAll tree threshold total index sources state).registry,
          (enterAll tree threshold total index sources state).front) := by
  induction sources generalizing index state with
  | nil => rfl
  | cons source sources ih =>
    exact ih (index + 1) (enterSource tree threshold total index source state)

theorem enterAll_append (index : Nat) (sources later : List SourceFile) (state : Completion) :
    enterAll tree threshold total index (sources ++ later) state =
      enterAll tree threshold total (index + sources.length) later
        (enterAll tree threshold total index sources state) := by
  induction sources generalizing index state with
  | nil => rfl
  | cons source sources ih =>
      rw [List.length_cons, ← Nat.add_assoc, Nat.add_right_comm]
      exact ih (index + 1) _

theorem enterSource_extends (index : Nat) (source : SourceFile) (state : Completion) :
    state.Extends (enterSource tree threshold total index source state) :=
  extends_add tree source _ _ state _

theorem enterAll_extends (index : Nat) (sources : List SourceFile) (state : Completion) :
    state.Extends (enterAll tree threshold total index sources state) := by
  induction sources generalizing index state with
  | nil => exact .refl state
  | cons source sources ih => exact (enterSource_extends index source state).trans (ih (index + 1) _)

/-- Every source that is entered has a slot. -/
theorem size_enterAll (index : Nat) (sources : List SourceFile) {state : Completion}
    (h : state.registry.collecting = true) :
    (enterAll tree threshold total index sources state).registry.size =
      state.registry.size + sources.length := by
  induction sources generalizing index state with
  | nil => rfl
  | cons source sources ih =>
      have hsize : (enterSource tree threshold total index source state).registry.size =
          state.registry.size + 1 := by
        simp [enterSource, Registry.add, h, Registry.size]
      refine (ih (index + 1) ((enterSource_extends index source state).collecting.trans h)).trans ?_
      rw [hsize, List.length_cons, Nat.add_assoc, Nat.add_comm 1]

/-! ### Completing a batch -/

/-- A file that is there is not added. -/
theorem loadClosure_old {path : String} (h : state.registry.contains path = true) :
    (loadClosure tree path state).value = state := by
  simp only [loadClosure, h, if_true, Logged.value_pure]

/-- A file that is not there is parsed on a diet and added behind the others. -/
theorem loadClosure_new {path : String} (h : state.registry.contains path = false) :
    (loadClosure tree path state).value =
      let report : UnitReport :=
        { file := path, index := state.registry.size, knownUnits := state.registry.size + 1
          maxProblems := state.front.options.maxProblems }
      let entered := enteredUnit tree { file := path, origin := .closure } report true state.front
      { front := entered.2, registry := (state.registry.add entered.1).2 } := by
  simp only [loadClosure, h, Bool.false_eq_true, if_false]
  rfl

theorem loadClosure_extends (path : String) (state : Completion) :
    state.Extends (loadClosure tree path state).value := by
  cases h : state.registry.contains path with
  | true =>
      rw [loadClosure_old h]
      exact .refl state
  | false =>
      rw [loadClosure_new h]
      exact extends_add tree _ _ true state _

theorem searchSourcepath_extends (candidates : List String) (state : Completion) :
    state.Extends (searchSourcepath tree candidates state).value.2 := by
  induction candidates generalizing state with
  | nil => exact .refl state
  | cons candidate candidates ih =>
      unfold searchSourcepath
      cases state.front.findOnSourcepath tree candidate with
      | none => exact ih state
      | some path =>
          have hload : state.Extends (loadClosure tree path state).value :=
            loadClosure_extends path state
          simp only [Logged.value_bind]
          split
          · exact hload
          · exact hload.trans (ih _)

theorem resolve_extends (reference : Reference) (state : Completion) :
    state.Extends (resolve tree reference state).value.2 := by
  unfold resolve
  split
  · exact .refl state
  · exact searchSourcepath_extends reference.candidates state

/-- How several references are resolved: the first one and then the others. -/
theorem resolveAll_cons (reference : Reference) (references : List Reference)
    (state : Completion) :
    (resolveAll tree (reference :: references) state).value =
      let first := (resolve tree reference state).value
      let later := (resolveAll tree references first.2).value
      (if !first.1 && mustResolve first.2.front.options reference then
          unresolvedImport reference :: later.1
        else later.1, later.2) := by
  simp only [resolveAll, Logged.value_bind]
  split <;> rfl

theorem resolveAll_extends (references : List Reference) (state : Completion) :
    state.Extends (resolveAll tree references state).value.2 := by
  induction references generalizing state with
  | nil => exact .refl state
  | cons reference references ih =>
      rw [resolveAll_cons]
      exact (resolve_extends reference state).trans (ih _)

/-- Recording problems of a unit makes a later batch. -/
theorem extends_record (index : Nat) (problems : List Problem) (state : Completion) :
    state.Extends { state with registry := state.registry.modify index (·.recordAll problems) } where
  options := rfl
  sizeLimit := rfl
  types := ⟨[], by simp⟩
  globalErrors := Nat.le_refl _
  collecting := rfl
  units place unit hunit := by
    simp only [Registry.get?, Registry.modify, Option.join_eq_some_iff,
      List.getElem?_modify] at hunit ⊢
    rw [hunit]
    split
    · exact ⟨unit.recordAll problems, rfl, rfl, rfl, CompilationUnit.isBroken_recordAll problems⟩
    · exact ⟨unit, rfl, rfl, rfl, id⟩

theorem completeUnit_extends (index : Nat) (state : Completion) :
    state.Extends (completeUnit tree index state).value := by
  unfold completeUnit
  cases (state.registry.get? index).bind CompilationUnit.outline with
  | none => exact .refl state
  | some outline =>
      exact (resolveAll_extends outline.references state).trans (extends_record index _ _)

theorem completeFrom_succ (fuel : Nat) {index : Nat} (h : index < state.registry.size) :
    (completeFrom tree (fuel + 1) index state).value =
      (completeFrom tree fuel (index + 1) (completeUnit tree index state).value).value := by
  simp only [completeFrom, if_pos h, Logged.value_bind]

/-- Behind the last slot nothing is done. -/
theorem completeFrom_done (fuel : Nat) {index : Nat} (h : ¬ index < state.registry.size) :
    (completeFrom tree fuel index state).value = state := by
  cases fuel with
  | zero => rfl
  | succ fuel => simp only [completeFrom, if_neg h, Logged.value_pure]

/-- Completing a batch only adds to it. -/
theorem completeFrom_extends (fuel index : Nat) (state : Completion) :
    state.Extends (completeFrom tree fuel index state).value := by
  induction fuel generalizing index state with
  | zero => exact .refl state
  | succ fuel ih =>
      by_cases h : index < state.registry.size
      · rw [completeFrom_succ fuel h]
        exact (completeUnit_extends index state).trans (ih (index + 1) _)
      · rw [completeFrom_done _ h]
        exact .refl state

/-- Completing a batch can be cut in two at any slot. -/
theorem completeFrom_add (first second index : Nat) (state : Completion) :
    (completeFrom tree (first + second) index state).value =
      (completeFrom tree second (index + first)
        (completeFrom tree first index state).value).value := by
  induction first generalizing index state with
  | zero => rw [Nat.zero_add]; rfl
  | succ first ih =>
      by_cases h : index < state.registry.size
      · rw [Nat.add_right_comm first 1 second, completeFrom_succ _ h, completeFrom_succ _ h, ih,
          Nat.add_right_comm index 1 first, Nat.add_assoc]
      · rw [completeFrom_done _ h, completeFrom_done _ h, completeFrom_done _ (by omega)]

/-! ### What was tried -/

/-- All was tried for a reference: it is known, or every file that may declare it is there. -/
def Completion.Tried (tree : FileTree) (state : Completion) (reference : Reference) : Prop :=
  isKnown tree state.front reference = true ∨
    ∀ candidate ∈ reference.candidates, ∀ path,
      state.front.findOnSourcepath tree candidate = some path →
        state.registry.contains path = true

theorem Completion.Extends.tried {before after : Completion} (h : before.Extends after)
    {reference : Reference} (htried : before.Tried tree reference) : after.Tried tree reference := by
  refine htried.imp h.isKnown fun hthere candidate hcandidate path hpath => ?_
  rw [h.findOnSourcepath] at hpath
  exact h.contains (hthere candidate hcandidate path hpath)

theorem loadClosure_contains (hcollecting : state.registry.collecting = true) (path : String) :
    (loadClosure tree path state).value.registry.contains path = true := by
  cases hcontains : state.registry.contains path with
  | true => rw [loadClosure_old hcontains, hcontains]
  | false =>
      rw [loadClosure_new hcontains]
      refine Registry.contains_iff.2 ⟨state.registry.size, _, Registry.get?_add_new hcollecting _, ?_⟩
      exact congrArg Prod.fst (enteredUnit_identity tree { file := path, origin := .closure } _ true
        state.front)

variable (tree) in
/-- A search that succeeds makes a type known, and one that fails has tried all files. -/
theorem searchSourcepath_tried (hcollecting : state.registry.collecting = true)
    (candidates : List String) :
    let found := (searchSourcepath tree candidates state).value
    (found.1 = true → ∃ candidate ∈ candidates, found.2.front.types.knowsType candidate = true) ∧
      (found.1 = false → ∀ candidate ∈ candidates, ∀ path,
        state.front.findOnSourcepath tree candidate = some path →
          found.2.registry.contains path = true) := by
  induction candidates generalizing state with
  | nil => exact ⟨fun h => Bool.noConfusion h, fun _ _ h => nomatch h⟩
  | cons candidate candidates ih =>
      unfold searchSourcepath
      cases hfind : state.front.findOnSourcepath tree candidate with
      | none =>
          obtain ⟨hfound, hmissed⟩ := ih hcollecting
          refine ⟨fun h => ?_, fun h => ?_⟩
          · obtain ⟨other, hother, hknown⟩ := hfound h
            exact ⟨other, List.mem_cons_of_mem _ hother, hknown⟩
          · refine List.forall_mem_cons.2 ⟨fun path hpath => ?_, hmissed h⟩
            rw [hfind] at hpath
            cases hpath
      | some path =>
          have hload : state.Extends (loadClosure tree path state).value :=
            loadClosure_extends path state
          have hthere : (loadClosure tree path state).value.registry.contains path = true :=
            loadClosure_contains hcollecting path
          simp only [Logged.value_bind]
          split
          next hknown =>
            exact ⟨fun _ => ⟨candidate, List.mem_cons_self, hknown⟩, fun h => Bool.noConfusion h⟩
          next =>
            obtain ⟨hfound, hmissed⟩ := ih (hload.collecting.trans hcollecting)
            refine ⟨fun h => ?_, fun h => ?_⟩
            · obtain ⟨other, hother, hknown⟩ := hfound h
              exact ⟨other, List.mem_cons_of_mem _ hother, hknown⟩
            · refine List.forall_mem_cons.2 ⟨fun found hpath => ?_, fun other hother found hpath => ?_⟩
              · rw [hfind] at hpath
                cases hpath
                exact (searchSourcepath_extends candidates _).contains hthere
              · exact hmissed h other hother found (by rw [hload.findOnSourcepath, hpath])

variable (tree) in
/-- What was resolved is known, and in any case all was tried. -/
theorem resolve_tried (hcollecting : state.registry.collecting = true) (reference : Reference) :
    let found := (resolve tree reference state).value
    found.2.Tried tree reference ∧
      (found.1 = true → isKnown tree found.2.front reference = true) := by
  unfold resolve
  split
  next hknown => exact ⟨.inl hknown, fun _ => hknown⟩
  next =>
    have hextends : state.Extends (searchSourcepath tree reference.candidates state).value.2 :=
      searchSourcepath_extends reference.candidates state
    obtain ⟨hfound, hmissed⟩ := searchSourcepath_tried tree hcollecting reference.candidates
    have hknown (h : (searchSourcepath tree reference.candidates state).value.1 = true) :
        isKnown tree (searchSourcepath tree reference.candidates state).value.2.front reference =
          true := by
      obtain ⟨candidate, hcandidate, htype⟩ := hfound h
      simp only [isKnown, Bool.or_eq_true, List.any_eq_true]
      exact .inl ⟨candidate, hcandidate, htype⟩
    refine ⟨?_, hknown⟩
    cases hanswer : (searchSourcepath tree reference.candidates state).value.1 with
    | true => exact .inl (hknown hanswer)
    | false =>
        refine .inr fun candidate hcandidate path hpath => ?_
        rw [hextends.findOnSourcepath] at hpath
        exact hmissed hanswer candidate hcandidate path hpath

variable (tree) in
/-- All was tried for references that were resolved, and if no problem was found, those that must be
resolved are known. -/
theorem resolveAll_tried (hcollecting : state.registry.collecting = true)
    (references : List Reference) :
    let found := (resolveAll tree references state).value
    ∀ reference ∈ references, found.2.Tried tree reference ∧
      (found.1 = [] → mustResolve state.front.options reference = true →
        isKnown tree found.2.front reference = true) := by
  induction references generalizing state with
  | nil => exact fun _ h => nomatch h
  | cons first references ih =>
      have hextends : state.Extends (resolve tree first state).value.2 := resolve_extends first state
      have hlast : (resolve tree first state).value.2.Extends
          (resolveAll tree references (resolve tree first state).value.2).value.2 :=
        resolveAll_extends references _
      obtain ⟨htried, hknown⟩ := resolve_tried tree hcollecting first
      have hlater := ih (hextends.collecting.trans hcollecting)
      rw [resolveAll_cons]
      refine List.forall_mem_cons.2 ⟨⟨hlast.tried htried, fun hnone hmust => ?_⟩,
        fun reference hreference => ⟨(hlater reference hreference).1, fun hnone hmust => ?_⟩⟩
      · simp only [hextends.options, hmust, Bool.and_true] at hnone
        split at hnone
        · cases hnone
        · rename_i hresolved
          exact hlast.isKnown (hknown (by simpa using hresolved))
      · refine (hlater reference hreference).2 ?_ (by rw [hextends.options, hmust])
        simp only at hnone
        split at hnone
        · cases hnone
        · exact hnone

/-! ### Resolving again -/

/-- A search among files that are there and did not help changes nothing. -/
theorem searchSourcepath_again {candidates : List String}
    (hthere : ∀ candidate ∈ candidates, ∀ path,
      state.front.findOnSourcepath tree candidate = some path →
        state.registry.contains path = true)
    (hunknown : ∀ candidate ∈ candidates, state.front.types.knowsType candidate = false) :
    (searchSourcepath tree candidates state).value = (false, state) := by
  induction candidates with
  | nil => rfl
  | cons candidate candidates ih =>
      obtain ⟨hfirst, hothers⟩ := List.forall_mem_cons.1 hthere
      obtain ⟨hmissing, hmissings⟩ := List.forall_mem_cons.1 hunknown
      unfold searchSourcepath
      cases hfind : state.front.findOnSourcepath tree candidate with
      | none => exact ih hothers hmissings
      | some path =>
          have hload : (loadClosure tree path state).value = state :=
            loadClosure_old (hfirst path hfind)
          simp only [Logged.value_bind, hload, hmissing, Bool.false_eq_true, if_false]
          exact ih hothers hmissings

/-- A reference for which all was tried is resolved if it is known, and nothing changes. -/
theorem resolve_again {reference : Reference} (h : state.Tried tree reference) :
    (resolve tree reference state).value = (isKnown tree state.front reference, state) := by
  unfold resolve
  cases hknown : isKnown tree state.front reference with
  | true => rfl
  | false =>
      have hthere := h.resolve_left (by simp [hknown])
      have hunknown : ∀ candidate ∈ reference.candidates,
          state.front.types.knowsType candidate = false := by
        simp only [isKnown, Bool.or_eq_false_iff, List.any_eq_false] at hknown
        intro candidate hcandidate
        simpa using hknown.1 candidate hcandidate
      exact searchSourcepath_again hthere hunknown

/-- Resolving references a second time changes nothing, and finds those that are not known. -/
theorem resolveAll_again {references : List Reference}
    (h : ∀ reference ∈ references, state.Tried tree reference) :
    (resolveAll tree references state).value =
      ((references.filter fun reference => !isKnown tree state.front reference &&
        mustResolve state.front.options reference).map unresolvedImport, state) := by
  induction references with
  | nil => rfl
  | cons first references ih =>
      obtain ⟨hfirst, hothers⟩ := List.forall_mem_cons.1 h
      rw [resolveAll_cons, resolve_again hfirst]
      simp only [ih hothers, List.filter_cons]
      split <;> rfl

/-! ### Slots that were completed -/

/-- The problems of references are errors. -/
theorem resolveAll_errors (references : List Reference) (state : Completion) :
    ∀ problem ∈ (resolveAll tree references state).value.1, problem.isError = true := by
  induction references generalizing state with
  | nil => exact fun _ h => nomatch h
  | cons first references ih =>
      rw [resolveAll_cons]
      simp only
      split
      · exact List.forall_mem_cons.2 ⟨rfl, ih _⟩
      · exact ih _

/-- All was tried for what the unit in a slot refers to, and unless the unit is broken, what must be
resolved is known. -/
def Completion.Completed (tree : FileTree) (state : Completion) (place : Nat) : Prop :=
  ∀ unit outline, state.registry.get? place = some unit → unit.outline = some outline →
    ∀ reference ∈ outline.references, state.Tried tree reference ∧
      (unit.isBroken = false → mustResolve state.front.options reference = true →
        isKnown tree state.front reference = true)

/-- A slot that was completed stays completed. -/
theorem Completion.Extends.completed {before after : Completion} (h : before.Extends after)
    {place : Nat} {unit : CompilationUnit} (hunit : before.registry.get? place = some unit)
    (hplace : before.Completed tree place) : after.Completed tree place := by
  intro later outline hlater houtline reference hreference
  obtain ⟨found, hfound, -, hsame, hbroken⟩ := h.units place unit hunit
  rw [hlater] at hfound
  cases hfound
  rw [hsame] at houtline
  obtain ⟨htried, hknown⟩ := hplace unit outline hunit houtline reference hreference
  refine ⟨h.tried htried, fun hclean hmust => h.isKnown (hknown ?_ ?_)⟩
  · exact Bool.eq_false_iff.2 fun htrue => by simp [hbroken htrue] at hclean
  · rw [← h.options]
    exact hmust

theorem completeUnit_completed (hcollecting : state.registry.collecting = true) (index : Nat) :
    (completeUnit tree index state).value.Completed tree index := by
  intro later outline hlater houtline reference hreference
  unfold completeUnit at hlater ⊢
  cases hbefore : (state.registry.get? index).bind CompilationUnit.outline with
  | none =>
      simp only [hbefore, Logged.value_pure] at hlater
      rw [hlater, Option.bind_some, houtline] at hbefore
      cases hbefore
  | some found =>
      obtain ⟨unit, hunit, hfound⟩ := Option.bind_eq_some_iff.1 hbefore
      simp only [hbefore, Logged.value_bind, Logged.value_pure] at hlater ⊢
      -- The outline is that of the unit before, and the problems stand in its report.
      have hextends : state.Extends (resolveAll tree found.references state).value.2 :=
        resolveAll_extends found.references state
      obtain ⟨middle, hmiddle, -, hsame, -⟩ := hextends.units index unit hunit
      have hmodified : later = middle.recordAll
          (resolveAll tree found.references state).value.1 := by
        simp only [Registry.get?, Registry.modify, List.getElem?_modify,
          Option.join_eq_some_iff] at hlater hmiddle
        simpa [hmiddle] using hlater.symm
      have houtline' : found = outline := by
        have hkept : later.outline = middle.outline := by rw [hmodified]; rfl
        rw [hkept, hsame, hfound] at houtline
        exact Option.some.inj houtline
      subst houtline'
      obtain ⟨htried, hknown⟩ := resolveAll_tried tree hcollecting found.references reference
        hreference
      refine ⟨(extends_record index _ _).tried htried, fun hclean hmust => hknown ?_ ?_⟩
      · refine Decidable.byContradiction fun hsome => ?_
        rw [hmodified, middle.isBroken_recordAll_error (resolveAll_errors _ _) hsome] at hclean
        cases hclean
      · rw [← hextends.options]
        exact hmust

/-- All was tried for what the units in the slots that were visited refer to. -/
theorem completeFrom_completed (hcollecting : state.registry.collecting = true) {fuel index : Nat}
    {place : Nat} {unit : CompilationUnit} (hunit : state.registry.get? place = some unit)
    (hfirst : index ≤ place) (hlast : place < index + fuel) :
    (completeFrom tree fuel index state).value.Completed tree place := by
  induction fuel generalizing index state unit with
  | zero => omega
  | succ fuel ih =>
      have hsize : place < state.registry.size := by
        simp only [Registry.get?, Option.join_eq_some_iff] at hunit
        exact (List.getElem?_eq_some_iff.1 hunit).1
      have hextends : state.Extends (completeUnit tree index state).value :=
        completeUnit_extends index state
      obtain ⟨later, hlater, -⟩ := hextends.units place unit hunit
      rw [completeFrom_succ fuel (by omega)]
      rcases Nat.eq_or_lt_of_le hfirst with rfl | hbehind
      · exact (completeFrom_extends fuel _ _).completed hlater
          (completeUnit_completed hcollecting index)
      · exact ih (hextends.collecting.trans hcollecting) hlater hbehind (by omega)

end SourceFrontEnd

end JavaOutline
