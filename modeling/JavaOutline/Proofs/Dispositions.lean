/-
**What the entries of an outcome tell.**

A visit leaves every unit in its slot, and the state of the unit says whether it was selected or
passed over.  Behind that, only the units that were selected change, but what became of a unit is read
off its state and the *names* of the files that failed.  So a unit that was passed over is said to have
failed if a unit of the same file did, and this is the only way in which the entries differ from what
happened.

Main definitions:

* `CompilationUnit.isPassedOver` — the visit did not select the unit;
* `MarkedBy` — the slots that were selected are those of the units that were not passed over;
* `CompilationUnit.fate` — what the entry of a unit says, for a unit as the visit left it;
* `Outcome.Describes` — what the entries of an outcome say, as a whole;
* `Outcome.TellsFailures`, `Outcome.TellsSkips` — the entries say what happened.

Main results:

* `selectFrom_markedBy` — the visit selects exactly what it does not pass over;
* `putBackFrom_views` — putting units back, seen through two views;
* `rebuildBatch_describes` — what the entries say after a batch;
* `run_describes` — **what the entries of a run say, and when they say what happened**.
-/

import JavaOutline.Proofs.AcceptedUnits

set_option autoImplicit false

namespace JavaOutline

open SourceFrontEnd

/-! ### Units that are passed over -/

/-- Whether a visit passed over a unit: its file was handled before, or nobody asked for it. -/
def CompilationUnit.isPassedOver (unit : CompilationUnit) : Bool :=
  unit.state == .alreadyProcessed || unit.state == .skippedTransitive

/-- A source that enters a batch is parsed, and no unit is passed over for it. -/
theorem enteredUnit_not_passedOver (tree : FileTree) (source : SourceFile) (report : UnitReport)
    (diet : Bool) (front : SourceFrontEnd) :
    (enteredUnit tree source report diet front).1.isPassedOver = false := by
  have hparse :
      (SourceFrontEnd.parse tree source report diet front).value.1.isPassedOver = false := by
    unfold SourceFrontEnd.parse
    split <;> rfl
  unfold enteredUnit SourceFrontEnd.bind
  simp only
  split
  · exact hparse
  · rfl

/-- Compiling a batch passes over no unit. -/
theorem compiled_not_passedOver (tree : FileTree) (reading : ReadingPreferences)
    (files : List String) (front : SourceFrontEnd) {place : Nat} {unit : CompilationUnit}
    (h : (compiled tree reading files front).registry.get? place = some unit) :
    unit.isPassedOver = false := by
  have hkept : KeptByCompiling tree fun unit => unit.isPassedOver = false :=
    { entered := fun source index knownUnits maxProblems diet front =>
        enteredUnit_not_passedOver tree source _ diet front
      package := fun unit h => by
        unfold Batch.notePackage
        split <;> exact h
      ordinal := fun _ _ h => h
      record := fun _ _ h => h }
  exact hkept.compiled reading files front place unit h

/-- The batch that a command line comes to holds no unit that was passed over. -/
theorem commandLine_not_passedOver {β : Type} {tree : FileTree} {settings : RunSettings}
    {arguments : List String} {state before : RunState SourceFrontEnd β} {batch : Batch}
    (h : commandLine (sourceFrontEnd tree) tree settings arguments state = (.ok batch, before)) :
    ∀ unit, some unit ∈ batch.registry.slots → unit.isPassedOver = false := by
  obtain ⟨remaining, -, hcompile⟩ := commandLine_ok h
  obtain ⟨options, -, hoptions, -⟩ := compile_holds hcompile
  rw [compile_compiledFor hoptions] at hcompile
  obtain ⟨hbatch, -⟩ := Prod.mk.inj hcompile
  obtain rfl := Except.ok.inj hbatch
  intro unit hunit
  obtain ⟨place, hplace⟩ := Registry.mem_units_iff.1 (List.mem_filterMap.2 ⟨some unit, hunit, rfl⟩)
  exact compiled_not_passedOver tree _ _ _ hplace

/-- Processing a unit does not pass it over. -/
theorem process_isPassedOver (tree : FileTree) (unit : CompilationUnit) (index : Nat)
    (front : SourceFrontEnd) :
    ((sourceFrontEnd tree).process unit index front).value.1.isPassedOver = unit.isPassedOver := by
  have hbodies : (completeBodies unit).isPassedOver = unit.isPassedOver := by
    unfold completeBodies
    split <;> rfl
  have hcheck : (check (completeBodies unit)).isPassedOver =
      (completeBodies unit).isPassedOver := by
    unfold check
    split <;> rfl
  exact hcheck.trans hbodies

/-- A visit selects a unit or passes over it. -/
theorem visitUnit_isPassedOver {σ : Type} (tree : FileTree) (session : Session)
    (ask : String → σ → Bool × σ) (index : Nat) (seen : List String) {unit : CompilationUnit}
    (h : unit.isPassedOver = false) (front : SourceFrontEnd) (asked : σ) :
    let visit := (visitUnit (sourceFrontEnd tree) session ask index seen unit front asked).value
    visit.isSelected = !visit.unit.isPassedOver := by
  rcases visitUnit_cases (sourceFrontEnd tree) session ask index seen unit front asked with
    ⟨-, hvalue⟩ | ⟨-, -, -, hvalue⟩ | ⟨-, -, -, hvalue⟩
  · rw [hvalue]
    rfl
  · rw [hvalue]
    rfl
  · rw [hvalue]
    simp [process_isPassedOver, h]

/-! ### Slots that are marked -/

/-- Of slots the first of which has a number, those with a number of the list hold the units that were
not passed over. -/
def MarkedBy (numbers : List Nat) (index : Nat) (slots : List (Option CompilationUnit)) : Prop :=
  ∀ offset unit, slots[offset]? = some (some unit) →
    (index + offset ∈ numbers ↔ unit.isPassedOver = false)

section

variable {numbers : List Nat} {index : Nat} {slot : Option CompilationUnit}
  {slots : List (Option CompilationUnit)}

/-- The slots behind the first one are marked too. -/
theorem MarkedBy.tail (h : MarkedBy numbers index (slot :: slots)) :
    MarkedBy numbers (index + 1) slots := by
  intro offset unit hslot
  have hnumber : index + 1 + offset = index + (offset + 1) := by omega
  rw [hnumber]
  exact h (offset + 1) unit hslot

/-- The first slot is marked like its unit. -/
theorem MarkedBy.head {unit : CompilationUnit} (h : MarkedBy numbers index (some unit :: slots)) :
    index ∈ numbers ↔ unit.isPassedOver = false :=
  h 0 unit rfl

/-- Slots behind a slot that is not picked, or picked by a number of its own. -/
theorem MarkedBy.cons {own : List Nat} (hown : ∀ number ∈ own, number = index)
    (hlater : ∀ number ∈ numbers, index < number)
    (hslot : ∀ unit, slot = some unit → (index ∈ own ↔ unit.isPassedOver = false))
    (h : MarkedBy numbers (index + 1) slots) : MarkedBy (own ++ numbers) index (slot :: slots) := by
  intro offset unit hunit
  rw [List.mem_append]
  cases offset with
  | zero =>
      have hbehind : index ∉ numbers := fun hmem => Nat.lt_irrefl _ (hlater _ hmem)
      rw [List.getElem?_cons_zero, Option.some.injEq] at hunit
      simp only [Nat.add_zero, hbehind, or_false]
      exact hslot unit hunit
  | succ offset =>
      have hahead : index + (offset + 1) ∉ own := fun hmem => by
        have := hown _ hmem
        omega
      have hnumber : index + 1 + offset = index + (offset + 1) := by omega
      have hbehind := h offset unit hunit
      rw [hnumber] at hbehind
      simp only [hahead, false_or]
      exact hbehind

/-- The units that are picked are those that were not passed over. -/
theorem MarkedBy.pickFrom_eq (h : MarkedBy numbers index slots) :
    pickFrom numbers index slots = (slots.filterMap id).filter (!·.isPassedOver) := by
  induction slots generalizing index with
  | nil => rfl
  | cons slot slots ih =>
      rw [pickFrom_cons, ih h.tail]
      cases slot with
      | none => simp
      | some unit =>
          cases hpassed : unit.isPassedOver with
          | true =>
              have hindex : index ∉ numbers := fun hmem => by
                rw [h.head.1 hmem] at hpassed
                cases hpassed
              simp [hindex, hpassed]
          | false => simp [h.head.2 hpassed, hpassed]

/-- **The visit selects exactly what it does not pass over.** -/
theorem selectFrom_markedBy {σ : Type} (tree : FileTree) {session : Session}
    {ask : String → σ → Bool × σ} {seen : List String} {front : SourceFrontEnd} {asked : σ}
    (h : ∀ unit, some unit ∈ slots → unit.isPassedOver = false)
    (hvisit : (selectFrom (sourceFrontEnd tree) session ask index seen slots front
      asked).value.Selects numbers) :
    MarkedBy numbers index
      (selectFrom (sourceFrontEnd tree) session ask index seen slots front asked).value.slots := by
  induction slots generalizing index seen front asked numbers with
  | nil =>
      intro offset unit hunit
      simp [selectFrom_nil] at hunit
  | cons slot slots ih =>
      have hrest (unit : CompilationUnit) (hunit : some unit ∈ slots) : unit.isPassedOver = false :=
        h unit (List.mem_cons_of_mem _ hunit)
      cases slot with
      | none =>
          obtain ⟨rest, hselects, rfl⟩ := Selection.selects_cons.1 hvisit
          exact MarkedBy.cons (fun number hmem => absurd hmem List.not_mem_nil)
            (fun number hmem => selectFrom_le hselects hmem)
            (fun other hother => absurd hother.symm (Option.some_ne_none other)) (ih hrest hselects)
      | some unit =>
          obtain ⟨rest, hslots, hselects, rfl, -⟩ := selectFrom_some rfl hvisit
          have hunit := visitUnit_isPassedOver tree session ask index seen
            (h unit List.mem_cons_self) front asked
          rw [hslots]
          refine MarkedBy.cons (fun number hmem => ?_)
            (fun number hmem => selectFrom_le hselects hmem) (fun other hother => ?_)
            (ih hrest hselects)
          · split at hmem
            · exact List.mem_singleton.1 hmem
            · cases hmem
          · cases hother
            simp only at hunit
            rw [hunit]
            cases (visitUnit (sourceFrontEnd tree) session ask index seen unit front
              asked).value.unit.isPassedOver <;> simp

/-- Putting units back, seen through two views: one of the units afterwards, and one of the units in
their slots before.  If the views agree on the units that are put back, and on those that are passed
over, they agree on all. -/
theorem putBackFrom_views {α : Type} {view before : CompilationUnit → α}
    {after : List CompilationUnit} (h : MarkedBy numbers index slots)
    (hpicked : after.map view = (pickFrom numbers index slots).map before)
    (hpassed : ∀ unit, some unit ∈ slots → unit.isPassedOver = true → view unit = before unit) :
    (Registry.putBackFrom numbers index slots after).map (Option.map view) =
      slots.map (Option.map before) := by
  induction slots generalizing index after with
  | nil => rfl
  | cons slot slots ih =>
      have hlater (unit : CompilationUnit) (hunit : some unit ∈ slots) :=
        hpassed unit (List.mem_cons_of_mem _ hunit)
      rw [pickFrom_cons] at hpicked
      cases slot with
      | none =>
          refine congrArg (none :: ·) (ih h.tail ?_ hlater)
          split at hpicked <;> exact hpicked
      | some held =>
          rw [Registry.putBackFrom]
          by_cases hindex : index ∈ numbers
          · rw [if_pos hindex] at hpicked
            rw [if_pos (by simpa using hindex)]
            cases after with
            | nil => cases hpicked
            | cons first after =>
                obtain ⟨hfirst, hothers⟩ := List.cons.inj hpicked
                rw [List.map_cons, List.map_cons, List.tail_cons, ih h.tail hothers hlater]
                exact congrArg (· :: _) (congrArg some hfirst)
          · rw [if_neg hindex] at hpicked
            have hheld : view held = before held := by
              refine hpassed held List.mem_cons_self ?_
              cases hstate : held.isPassedOver with
              | true => rfl
              | false => exact absurd (h.head.2 hstate) hindex
            rw [if_neg (by simpa using hindex), List.map_cons, List.map_cons,
              ih h.tail hpicked hlater, Option.map_some, hheld, Option.map_some]

end

/-! ### What the entries say -/

/-- What the entry of a unit says, for a unit as the visit left it and the files that failed. -/
def CompilationUnit.fate (failed : List String) (unit : CompilationUnit) : Disposition :=
  if unit.file ∈ failed then .failed else if unit.isPassedOver then .skipped else .rebuilt

/-- What the entries of an outcome say of the units as the visit left them. -/
structure Outcome.Describes (outcome : Outcome) (units : List CompilationUnit) : Prop where
  /-- There is an entry for each unit, in their order, which goes by the file of the unit. -/
  entries : outcome.accepted.map (fun entry => (entry.file, entry.disposition)) =
    units.map fun unit => (unit.file, unit.fate (outcome.failures.map RebuildError.file))
  /-- The files that are listed as skipped are those of the entries that say so. -/
  skipped : outcome.skipped =
    (outcome.accepted.filter (·.disposition = .skipped)).map Acceptance.file
  /-- The failures are those of units that were selected, in their order. -/
  failures : outcome.failures.map RebuildError.file =
    ((units.filter (!·.isPassedOver)).map CompilationUnit.file).filter
      (· ∈ outcome.failures.map RebuildError.file)

/-- The entries that say that a unit failed are those of the failures, one for each and in their
order. -/
def Outcome.TellsFailures (outcome : Outcome) : Prop :=
  (outcome.accepted.filter (·.disposition = .failed)).map Acceptance.file =
    outcome.failures.map RebuildError.file

/-- The entries say that a unit was skipped exactly if the visit passed over it. -/
def Outcome.TellsSkips (outcome : Outcome) (units : List CompilationUnit) : Prop :=
  outcome.accepted.map (fun entry => decide (entry.disposition = .skipped)) =
    units.map CompilationUnit.isPassedOver

section

variable {β : Type} {builder : Builder β} {level : LanguageLevel} {verbosity : Nat}

/-- What an entry says of a unit that was put back, if the failures are those of the units that were
not rebuilt. -/
theorem dispositionOf_rebuilt {failed : List String} {unit : CompilationUnit}
    (h : unit.file ∈ failed ↔ unit.isRebuilt = false) :
    dispositionOf failed unit = if unit.file ∈ failed then .failed else .rebuilt := by
  unfold dispositionOf
  cases hrebuilt : unit.isRebuilt with
  | true =>
      have hstate : unit.state = .rebuilt := by simpa [CompilationUnit.isRebuilt] using hrebuilt
      have hnot : unit.file ∉ failed := fun hmem => by
        rw [h.1 hmem] at hrebuilt
        cases hrebuilt
      rw [if_pos hstate, if_neg hnot]
  | false =>
      have hstate : unit.state ≠ .rebuilt := by simpa [CompilationUnit.isRebuilt] using hrebuilt
      rw [if_neg hstate, if_pos (h.2 hrebuilt)]
      simp [h.2 hrebuilt]

/-- What an entry says of a unit that was passed over. -/
theorem dispositionOf_passedOver (failed : List String) {unit : CompilationUnit}
    (h : unit.isPassedOver = true) : dispositionOf failed unit = unit.fate failed := by
  have hstate : unit.state ≠ .rebuilt := fun hstate => by
    simp [CompilationUnit.isPassedOver, hstate] at h
  simp [dispositionOf, CompilationUnit.fate, hstate, h]

/-- Units that are skipped are listed. -/
theorem skipped_foldl (failed : List String) (units : List CompilationUnit) (tally : Tally) :
    (units.foldl (Tally.accept failed) tally).skipped =
      tally.skipped ++
        (units.filter (dispositionOf failed · = .skipped)).map CompilationUnit.file := by
  induction units generalizing tally with
  | nil => simp
  | cons unit units ih =>
      rw [List.foldl_cons, ih]
      by_cases h : dispositionOf failed unit = .skipped <;> simp [Tally.accept, h]

/-- The units that were rebuilt and those that failed, seen through what their entries say. -/
theorem rebuilt_views {report : RebuildReport} {picked after : List CompilationUnit}
    (haccounts : RebuildReport.Accounts {} report picked after)
    (hunits : ∀ unit ∈ picked, unit.IsCompiled ∧ unit.isPassedOver = false)
    (hnodup : (picked.map CompilationUnit.file).Nodup) :
    let failed := report.failures.map RebuildError.file
    after.map (fun unit => (unit.report.file, dispositionOf failed unit)) =
        picked.map (fun unit => (unit.file, unit.fate failed)) ∧
      failed = (picked.map CompilationUnit.file).filter (· ∈ failed) := by
  intro failed
  have hfiles : after.map CompilationUnit.file = picked.map CompilationUnit.file := by
    simpa [Function.comp_def] using congrArg (List.map Prod.fst) haccounts.same
  have hkind {unit : CompilationUnit} (hunit : unit ∈ after) :
      unit.file ∈ failed ↔ unit.isRebuilt = false := by
    have hmem : unit.file ∈ (after.filter (!·.isRebuilt)).map CompilationUnit.file ↔
        (!unit.isRebuilt) = true := mem_map_filter_iff (hfiles ▸ hnodup) hunit
    rw [Bool.not_eq_true'] at hmem
    rw [← hmem, show failed = _ from haccounts.failed]
    rfl
  constructor
  · -- With the failures known, an entry depends on what rebuilding does not change.
    let entry (unit : CompilationUnit) : String × Disposition :=
      (unit.report.file, if unit.file ∈ failed then .failed else .rebuilt)
    have hsame : after.map entry = picked.map entry := by
      simpa [Function.comp_def] using congrArg (List.map fun pair : String × UnitReport =>
        (pair.2.file, if pair.1 ∈ failed then Disposition.failed else .rebuilt)) haccounts.same
    calc after.map (fun unit => (unit.report.file, dispositionOf failed unit))
        = after.map entry := List.map_congr_left fun unit hunit => by
          rw [dispositionOf_rebuilt (hkind hunit)]
      _ = picked.map entry := hsame
      _ = picked.map (fun unit => (unit.file, unit.fate failed)) :=
        List.map_congr_left fun unit hunit => by
          obtain ⟨hcompiled, hpassed⟩ := hunits unit hunit
          simp [entry, CompilationUnit.fate, hcompiled.report_file, hpassed]
  · rw [← hfiles, List.filter_map]
    refine (haccounts.failed.trans ?_)
    refine congrArg (List.map CompilationUnit.file) (List.filter_congr fun unit hunit => ?_)
    simp [hkind hunit]

end

section

variable {φ β : Type} {builder : Builder β} {level : LanguageLevel} {registry : Registry}
  {selected : List Nat} {state after : RunState φ β} {outcome : Outcome}

/-- The units of slots, seen through a view. -/
theorem Registry.map_units {α : Type} (view : CompilationUnit → α) (registry : Registry) :
    registry.units.map view = (registry.slots.map (Option.map view)).filterMap id := by
  rw [Registry.units, List.map_filterMap, List.filterMap_map]
  rfl

/-- **What the entries say after a batch.** -/
theorem rebuildBatch_describes (hunits : ∀ unit ∈ registry.units, unit.IsCompiled)
    (hmarked : MarkedBy selected 0 registry.slots)
    (hnodup : ((registry.selected selected).map CompilationUnit.file).Nodup)
    (h : (rebuildBatch builder level registry selected state).value = (.ok outcome, after)) :
    outcome.Describes registry.units := by
  obtain ⟨next, report, units, shop, last, -, hrebuild, hend, h⟩ := rebuildBatch_eq_ok h
  rw [finishBatch_ended hend] at h
  cases h
  have hpicked : registry.selected selected = registry.units.filter (!·.isPassedOver) :=
    (registry.selected_eq_pickFrom selected).trans hmarked.pickFrom_eq
  have hselected : ∀ unit ∈ registry.selected selected,
      unit.IsCompiled ∧ unit.isPassedOver = false := fun unit hunit => by
    rw [hpicked, List.mem_filter] at hunit
    exact ⟨hunits unit hunit.1, by simpa using hunit.2⟩
  have haccounts := rebuildFrom_accounts (fun unit hunit => (hselected unit hunit).1) hrebuild
  obtain ⟨hviews, hfailed⟩ := rebuilt_views haccounts hselected hnodup
  obtain ⟨-, hreports, -⟩ := putBack_accounts hunits haccounts
  generalize hnames : report.failures.map RebuildError.file = failed at *
  rw [registry.selected_eq_pickFrom] at hviews
  have hentries : (registry.putBack selected units).units.map
      (fun unit => (unit.report.file, dispositionOf failed unit)) =
        registry.units.map fun unit => (unit.file, unit.fate failed) := by
    rw [Registry.map_units, Registry.map_units]
    refine congrArg (List.filterMap id) (putBackFrom_views hmarked hviews fun unit hunit hpassed => ?_)
    rw [(hunits unit (List.mem_filterMap.2 ⟨some unit, hunit, rfl⟩)).report_file,
      dispositionOf_passedOver failed hpassed]
  have haccepted := (foldl_accept failed (registry.putBack selected units).units {}).1
  have hskipped := skipped_foldl failed (registry.putBack selected units).units {}
  rw [← acceptAll_tally] at haccepted hskipped
  constructor
  · simp only [hnames]
    rw [haccepted, ← hentries]
    simp [acceptance, Function.comp_def]
  · rw [hskipped, haccepted, List.nil_append, List.nil_append, List.filter_map, List.map_map]
    refine List.map_congr_left fun unit hunit => ?_
    exact (hreports unit (List.mem_filter.1 hunit).1).symm
  · simp only [hnames]
    rw [← hpicked]
    exact hfailed

end

/-! ### When the entries say what happened -/

section

variable {outcome : Outcome} {units : List CompilationUnit}

/-- No unit that was passed over has the file of a unit that failed. -/
def Outcome.KeepsApart (outcome : Outcome) (units : List CompilationUnit) : Prop :=
  ∀ unit ∈ units, unit.isPassedOver = true → unit.file ∉ outcome.failures.map RebuildError.file

/-- The files of the entries that say something are read off the units. -/
theorem Outcome.Describes.entries_filter (h : outcome.Describes units) (said : Disposition) :
    (outcome.accepted.filter (·.disposition = said)).map Acceptance.file =
      (units.filter (·.fate (outcome.failures.map RebuildError.file) = said)).map
        CompilationUnit.file := by
  have hpairs := congrArg (fun pairs : List (String × Disposition) =>
    (pairs.filter (·.2 = said)).map Prod.fst) h.entries
  simpa [List.filter_map, Function.comp_def] using hpairs

/-- The entries of failures are one for each failure exactly if no unit that was passed over is taken
for one that failed. -/
theorem Outcome.Describes.tellsFailures_iff (h : outcome.Describes units) :
    outcome.TellsFailures ↔ outcome.KeepsApart units := by
  unfold TellsFailures KeepsApart
  rw [h.entries_filter]
  generalize hnames : outcome.failures.map RebuildError.file = failed
  have hfailed : units.filter (·.fate failed = .failed) = units.filter (·.file ∈ failed) := by
    refine List.filter_congr fun unit _ => ?_
    unfold CompilationUnit.fate
    split
    · simp_all
    · split <;> simp_all
  have hfailures : failed =
      ((units.filter (·.file ∈ failed)).filter (!·.isPassedOver)).map CompilationUnit.file := by
    conv_lhs => rw [← hnames, h.failures, hnames]
    rw [List.filter_map, List.filter_filter, List.filter_filter]
    simp [Bool.and_comm]
  rw [hfailed]
  constructor
  · intro hsame unit hunit hpassed hmem
    -- As many units failed as were selected and failed, so that all that failed were selected.
    have hlength := congrArg List.length (hsame.trans hfailures)
    rw [List.length_map, List.length_map, eq_comm, List.length_filter_eq_length_iff] at hlength
    have hselected := hlength unit (List.mem_filter.2 ⟨hunit, by simpa using hmem⟩)
    simp [hpassed] at hselected
  · intro hapart
    conv_rhs => rw [hfailures]
    refine congrArg (List.map CompilationUnit.file) (Eq.symm ?_)
    refine List.filter_eq_self.2 fun unit hunit => ?_
    obtain ⟨hmem, hfile⟩ := List.mem_filter.1 hunit
    cases hpassed : unit.isPassedOver with
    | true => exact absurd (by simpa using hfile) (hapart unit hmem hpassed)
    | false => rfl

/-- The entries say rightly what was skipped exactly if no unit that was passed over is taken for one
that failed. -/
theorem Outcome.Describes.tellsSkips_iff (h : outcome.Describes units) :
    outcome.TellsSkips units ↔ outcome.KeepsApart units := by
  have hsaid := congrArg (List.map fun pair : String × Disposition =>
    decide (pair.2 = .skipped)) h.entries
  simp only [List.map_map, Function.comp_def] at hsaid
  unfold TellsSkips KeepsApart
  rw [hsaid, List.map_inj_left]
  refine forall₂_congr fun unit _ => ?_
  unfold CompilationUnit.fate
  cases hpassed : unit.isPassedOver with
  | true => split <;> simp_all
  | false => split <;> simp

end

/-! ### Runs -/

/-- **What the entries of a run say, and when they say what happened.**  Whatever the builder answered,
the entries of a run that ends go by the files that failed and by what the visit passed over.  They
tell the failures one by one, and they tell rightly what was skipped, each of the two exactly if no
unit that was passed over has the file of a unit that failed. -/
theorem run_describes {β : Type} (tree : FileTree) (builder : Builder β) (settings : RunSettings)
    (arguments : List String) (state : RunState SourceFrontEnd β)
    {outcome : Outcome} {after : RunState SourceFrontEnd β}
    (h : (run (sourceFrontEnd tree) builder tree settings arguments state).value =
      (.ok outcome, after)) :
    ∃ batch before,
      commandLine (sourceFrontEnd tree) tree settings arguments state = (.ok batch, before) ∧
      let units := (visitedRegistry (sourceFrontEnd tree) builder batch before).units
      outcome.Describes units ∧
        (outcome.TellsFailures ↔ outcome.KeepsApart units) ∧
        (outcome.TellsSkips units ↔ outcome.KeepsApart units) := by
  rw [value_run] at h
  rcases hline : commandLine (sourceFrontEnd tree) tree settings arguments state
    with ⟨answer, before⟩
  rw [hline] at h
  cases answer with
  | error e => cases h
  | ok batch =>
  obtain ⟨-, selected, hvisit, hrebuild⟩ := runBatch_ended h
  obtain ⟨hunits, -⟩ := selectFrom_isCompiled tree (commandLine_isCompiled hline) hvisit
  have hmarked : MarkedBy selected 0
      (visitedRegistry (sourceFrontEnd tree) builder batch before).slots :=
    selectFrom_markedBy tree (commandLine_not_passedOver hline) hvisit
  have hdescribes := rebuildBatch_describes
    (fun unit hunit => by
      obtain ⟨slot, hslot, rfl⟩ := List.mem_filterMap.1 hunit
      exact hunits unit hslot) hmarked
    (by
      rw [selected_visitedRegistry hvisit]
      exact chosenFrom_nodup (sourceFrontEnd_keepsFiles tree) _ _ _ _ _) hrebuild
  exact ⟨batch, before, rfl, hdescribes, hdescribes.tellsFailures_iff, hdescribes.tellsSkips_iff⟩

/-- Of three files in a batch, one is rebuilt, one fails and one is not asked for, and the entries say
so. -/
theorem run_describes_choosy :
    let arguments := ["A.java", "B.java", "C.java"]
    ∃ outcome after batch before,
      (run (sourceFrontEnd threeClasses) (scriptedBuilder treeBuilder) threeClasses {} arguments
        { front := {}, builder := choosyBuilder }).value = (.ok outcome, after) ∧
      outcome.accepted.map Acceptance.disposition = [.rebuilt, .failed, .skipped] ∧
      outcome.Describes (visitedRegistry (sourceFrontEnd threeClasses) (scriptedBuilder treeBuilder)
        batch before).units := by
  intro arguments
  have hfound : (run (sourceFrontEnd threeClasses) (scriptedBuilder treeBuilder) threeClasses {}
      arguments { front := {}, builder := choosyBuilder }).value.1.toOption.map
        (fun outcome => outcome.accepted.map Acceptance.disposition) =
      some [.rebuilt, .failed, .skipped] := by decide +kernel
  rcases hrun : (run (sourceFrontEnd threeClasses) (scriptedBuilder treeBuilder) threeClasses {}
    arguments { front := {}, builder := choosyBuilder }).value with ⟨answer, after⟩
  rw [hrun] at hfound
  cases answer with
  | error e => cases hfound
  | ok outcome =>
      obtain ⟨batch, before, -, hdescribes, -, -⟩ := run_describes threeClasses
        (scriptedBuilder treeBuilder) {} arguments { front := {}, builder := choosyBuilder } hrun
      exact ⟨outcome, after, batch, before, rfl, Option.some.inj hfound, hdescribes⟩

/-- A file that declares a package and nothing else. -/
def bareFile : FileTree where
  entries := [(["A.java"], .file "package p;".toUTF8)]

/-- A builder that rejects packages. -/
def packageRejecter : ScriptedBuilder TreeBuilder where
  inner := {}
  script := { failure := some { entryPoint := "package" } }

/-- A file that is named twice fails once and is passed over once, but both entries say that it
failed and nothing is listed as skipped. -/
theorem not_tellsFailures_repeated :
    let arguments := ["A.java", "A.java"]
    let state : RunState SourceFrontEnd (ScriptedBuilder TreeBuilder) :=
      { front := {}, builder := packageRejecter }
    ∃ outcome after batch before,
      (run (sourceFrontEnd bareFile) (scriptedBuilder treeBuilder) bareFile {} arguments
        state).value = (.ok outcome, after) ∧
      commandLine (sourceFrontEnd bareFile) bareFile {} arguments state = (.ok batch, before) ∧
      let units := (visitedRegistry (sourceFrontEnd bareFile) (scriptedBuilder treeBuilder) batch
        before).units
      units.map CompilationUnit.state = [.bound, .alreadyProcessed] ∧
        outcome.failures.map RebuildError.file = ["A.java"] ∧ outcome.skipped = [] ∧
        ¬ outcome.TellsFailures ∧ ¬ outcome.TellsSkips units := by
  intro arguments state
  have hfound : (run (sourceFrontEnd bareFile) (scriptedBuilder treeBuilder) bareFile {} arguments
      state).value.1.toOption.map (fun outcome =>
        ((outcome.accepted.filter (·.disposition = .failed)).map Acceptance.file,
          outcome.accepted.map (fun entry => decide (entry.disposition = .skipped)),
          outcome.failures.map RebuildError.file, outcome.skipped)) =
      some (["A.java", "A.java"], [false, false], ["A.java"], []) := by decide +kernel
  have hvisited : (commandLine (sourceFrontEnd bareFile) bareFile {} arguments
      state).1.toOption.map (fun batch =>
        let units := (visitedRegistry (sourceFrontEnd bareFile) (scriptedBuilder treeBuilder) batch
          (commandLine (sourceFrontEnd bareFile) bareFile {} arguments state).2).units
        (units.map CompilationUnit.state, units.map CompilationUnit.isPassedOver)) =
      some ([.bound, .alreadyProcessed], [false, true]) := by decide +kernel
  rcases hrun : (run (sourceFrontEnd bareFile) (scriptedBuilder treeBuilder) bareFile {} arguments
    state).value with ⟨answer, after⟩
  rcases hline : commandLine (sourceFrontEnd bareFile) bareFile {} arguments state
    with ⟨compiled, before⟩
  rw [hrun] at hfound
  rw [hline] at hvisited
  cases answer with
  | error e => cases hfound
  | ok outcome =>
  cases compiled with
  | error e => cases hvisited
  | ok batch =>
  simp only [Except.toOption, Option.map_some, Option.some.injEq, Prod.mk.injEq] at hfound hvisited
  obtain ⟨hmarked, hpassed, hfailures, hskipped⟩ := hfound
  refine ⟨outcome, after, batch, before, rfl, rfl, hvisited.1, hfailures, hskipped, ?_, ?_⟩
  · unfold Outcome.TellsFailures
    rw [hmarked, hfailures]
    decide
  · unfold Outcome.TellsSkips
    rw [hpassed, hvisited.2]
    decide

end JavaOutline
