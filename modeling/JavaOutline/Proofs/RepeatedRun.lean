/-
**A run that is made again.**

A run that came to its end has handled every file that its command line names.  Made again with the
same front end, builder and session, it compiles the same batch: nothing but the size limit of the
front end outlives a command line, and the verbosity is the one that the flags set before.  The visit
then passes over the files of the command line, leaves out the others, and finds no errors because it
found none before.  So nothing is selected, and only the count of batches grows.

Main results:

* `acceptAll_tally`, `skipped_foldl_accept` — accepting the units of a batch in order, and the files
  that count as skipped;
* `filterArguments_again` — flags that were read set the same verbosity again;
* `rebuildBatch_ended`, `runBatch_ended` — what a run came through that ended;
* `selectFrom_front` — visiting units leaves the front end as it is;
* `sights_nothing`, `runBatch_nothing` — a run for which nothing is new;
* `run_again` — **a run that is made again selects nothing and changes the count of batches only**.
-/

import JavaOutline.Proofs.Emission
import JavaOutline.Proofs.RepeatedArgument

set_option autoImplicit false

namespace JavaOutline

/-! ### Accepting units -/

/-- The units behind some slots are accepted in order. -/
theorem acceptFrom_tally (failed : List String) (ahead behind : List (Option CompilationUnit))
    {registry : Registry} (h : registry.slots = ahead ++ behind) (tally : Tally) :
    (acceptFrom failed (List.range' ahead.length behind.length) registry tally).1 =
      (behind.filterMap id).foldl (Tally.accept failed) tally := by
  induction behind generalizing ahead registry tally with
  | nil => rfl
  | cons slot behind ih =>
      have hget : registry.get? ahead.length = slot := by
        simp [Registry.get?, h]
      have htaken : (registry.take ahead.length).2.slots = (ahead ++ [none]) ++ behind := by
        rw [Registry.take, h, modify_append_right _ _ (Nat.le_refl _), Nat.sub_self]
        simp
      have hlater := ih (ahead ++ [none]) htaken
      rw [List.length_append, List.length_singleton] at hlater
      have htake : registry.take ahead.length = (slot, (registry.take ahead.length).2) :=
        Prod.ext hget rfl
      rw [List.length_cons, List.range'_succ, acceptFrom, htake]
      cases slot with
      | none => exact hlater tally
      | some unit => exact hlater (tally.accept failed unit)

/-- Accepting the units of a batch is counting them in order. -/
theorem acceptAll_tally (failed : List String) (registry : Registry) :
    (acceptAll failed registry).1 = registry.units.foldl (Tally.accept failed) {} := by
  rw [acceptAll, List.range_eq_range']
  exact acceptFrom_tally failed [] registry.slots rfl {}

/-- Units of which none was rebuilt and none failed all count as skipped. -/
theorem skipped_foldl_accept {units : List CompilationUnit}
    (h : ∀ unit ∈ units, unit.state ≠ .rebuilt) (tally : Tally) :
    (units.foldl (Tally.accept []) tally).skipped =
      tally.skipped ++ units.map CompilationUnit.file := by
  induction units generalizing tally with
  | nil => simp
  | cons unit units ih =>
      obtain ⟨hunit, hunits⟩ := List.forall_mem_cons.1 h
      have hskipped : (tally.accept [] unit).skipped = tally.skipped ++ [unit.file] := by
        simp [Tally.accept, dispositionOf, hunit]
      rw [List.foldl_cons, ih hunits, hskipped, List.append_assoc, List.map_cons,
        List.singleton_append]

/-! ### Flags -/

/-- What a flag sets is the level that it carries. -/
theorem value_applyFlag (session : Session) (flag payload : String) :
    (session.applyFlag flag payload).value =
      match verbosityLevel? payload with
      | none => .error (.invalidVerbosity flag payload)
      | some level => .ok { session with verbosity := level } := by
  unfold Session.applyFlag
  cases verbosityLevel? payload with
  | none => rfl
  | some level =>
      simp only
      split <;> rfl

/-- What flags set does not depend on the session: it is a level, or nothing at all. -/
theorem filterArguments_level {style : FlagStyle} {session after : Session}
    {arguments remaining : List String}
    (h : (session.filterArguments style arguments).value = (.ok remaining, after)) :
    ∃ level : Option Nat, ∀ other : Session,
      (other.filterArguments style arguments).value =
        (.ok remaining, { other with verbosity := level.getD other.verbosity }) := by
  fun_induction Session.filterArguments style session arguments generalizing remaining with
  | case1 session =>
      cases h
      exact ⟨none, fun other => rfl⟩
  | case2 session argument rest hform hplain ih =>
      obtain ⟨hmap, hafter⟩ := Prod.mk.inj h
      obtain ⟨later, hlater, rfl⟩ := exists_of_map_eq_ok hmap
      obtain ⟨level, hlevel⟩ := ih (Prod.ext hlater hafter)
      refine ⟨level, fun other => ?_⟩
      rw [filterArguments_plain (by simp [FlagStyle.isFlag, hform, hplain]), hlevel other]
      rfl
  | case3 session argument rest hform payload hflag ih =>
      simp only [Logged.value_bind, value_applyFlag] at h
      cases hpayload : verbosityLevel? payload with
      | none =>
          rw [hpayload] at h
          cases h
      | some found =>
          rw [hpayload] at h
          obtain ⟨level, hlevel⟩ := ih _ h
          refine ⟨some (level.getD found), fun other => ?_⟩
          rw [Session.filterArguments.eq_def]
          simp only [hform, hflag, Logged.value_bind, value_applyFlag, hpayload, hlevel]
          rfl
  | case4 session hform => cases h
  | case5 session hform payload rest ih =>
      simp only [Logged.value_bind, value_applyFlag] at h
      cases hpayload : verbosityLevel? payload with
      | none =>
          rw [hpayload] at h
          cases h
      | some found =>
          rw [hpayload] at h
          obtain ⟨level, hlevel⟩ := ih _ h
          refine ⟨some (level.getD found), fun other => ?_⟩
          rw [Session.filterArguments.eq_def]
          simp only [hform, if_true, Logged.value_bind, value_applyFlag, hpayload, hlevel]
          rfl
  | case6 session argument rest hform hplain ih =>
      obtain ⟨hmap, hafter⟩ := Prod.mk.inj h
      obtain ⟨later, hlater, rfl⟩ := exists_of_map_eq_ok hmap
      obtain ⟨level, hlevel⟩ := ih (Prod.ext hlater hafter)
      refine ⟨level, fun other => ?_⟩
      rw [filterArguments_plain (by simp [FlagStyle.isFlag, hform, hplain]), hlevel other]
      rfl

/-- Flags that were read leave a session alone that has the verbosity they set. -/
theorem filterArguments_again {style : FlagStyle} {session after other : Session}
    {arguments remaining : List String}
    (h : (session.filterArguments style arguments).value = (.ok remaining, after))
    (hsame : other.verbosity = after.verbosity) :
    (other.filterArguments style arguments).value = (.ok remaining, other) := by
  obtain ⟨level, hlevel⟩ := filterArguments_level h
  have hafter : after.verbosity = level.getD session.verbosity := by
    have hboth := h.symm.trans (hlevel session)
    exact congrArg Session.verbosity (Prod.mk.inj hboth).2
  have hkept : level.getD other.verbosity = other.verbosity := by
    cases level with
    | none => rfl
    | some level => exact (hsame.trans hafter).symm
  rw [hlevel other, hkept]

/-- Noting what was rebuilt leaves the verbosity alone. -/
theorem Session.verbosity_afterRebuild (session : Session) (files : List String)
    (report : RebuildReport) :
    (session.afterRebuild files report).verbosity = session.verbosity := by
  have hmarked : (session.markAll files).verbosity = session.verbosity := by
    rw [Session.markAll_eq]
  unfold Session.afterRebuild
  simp only
  split
  · exact hmarked
  · exact hmarked

/-! ### Runs that ended -/

section

variable {φ β : Type} {frontEnd : FrontEnd φ} {builder : Builder β} {level : LanguageLevel}
  {registry : Registry} {selected : List Nat} {batch : Batch} {state after : RunState φ β}
  {outcome : Outcome}

/-- What rebuilding came through that ended: the files that were selected count as handled, and the
builder ended the batch. -/
theorem rebuildBatch_ended
    (h : (rebuildBatch builder level registry selected state).value = (.ok outcome, after)) :
    ∃ conflicts report last,
      after.front = state.front ∧
      after.session = { state.session.beginBatch with conflicts }.afterRebuild
        (filesAt registry selected) report ∧
      builder.endBatch last = (.ok (), after.builder) := by
  obtain ⟨-, report, units, shop, last, -, -, hend, h⟩ := rebuildBatch_eq_ok h
  rw [finishBatch_ended hend] at h
  cases h
  exact ⟨shop.conflicts, report, shop.builder, rfl, rfl, hend⟩

/-- What the run of a batch came through that ended: all sources were read, the visit found no
errors, and its units were rebuilt. -/
theorem runBatch_ended
    (h : (runBatch frontEnd builder batch state).value = (.ok outcome, after)) :
    batch.globalErrors = 0 ∧ ∃ selected,
      (visitBatch frontEnd builder batch state).answer = .ok selected ∧
      (rebuildBatch builder batch.level (visitedRegistry frontEnd builder batch state) selected
        (state.visited (visitBatch frontEnd builder batch state))).value = (.ok outcome, after) := by
  rcases Nat.eq_zero_or_pos batch.globalErrors with hzero | hpos
  · refine ⟨hzero, ?_⟩
    cases hvisit : (visitBatch frontEnd builder batch state).answer with
    | error e =>
        rw [runBatch_diagnostics hzero hvisit] at h
        cases h
    | ok selected =>
        rw [runBatch_selected hzero hvisit] at h
        exact ⟨selected, rfl, h⟩
  · rw [runBatch_globalErrors hpos] at h
    cases h

end

/-! ### Runs for which nothing is new -/

/-- Putting back no units leaves a registry as it is. -/
theorem Registry.putBack_nil (registry : Registry) (ordinals : List Nat) :
    registry.putBack ordinals [] = registry := by
  have hslots (index : Nat) (slots : List (Option CompilationUnit)) :
      putBackFrom ordinals index slots [] = slots := by
    induction slots generalizing index with
    | nil => rfl
    | cons slot slots ih =>
        cases slot with
        | none => exact congrArg (none :: ·) (ih (index + 1))
        | some unit =>
            rw [putBackFrom]
            split <;> exact congrArg (some unit :: ·) (ih (index + 1))
  rw [putBack, hslots]

section

open SourceFrontEnd

/-- Visiting units leaves the front end as it is. -/
theorem selectFrom_front {σ : Type} (tree : FileTree) (session : Session)
    (ask : String → σ → Bool × σ) (index : Nat) (seen : List String)
    (slots : List (Option CompilationUnit)) (front : SourceFrontEnd) (asked : σ) :
    (selectFrom (sourceFrontEnd tree) session ask index seen slots front asked).value.front =
      front := by
  induction slots generalizing index seen asked with
  | nil => rfl
  | cons slot slots ih =>
      cases slot with
      | none => exact ih (index + 1) seen asked
      | some unit =>
          generalize hvisit : (visitUnit (sourceFrontEnd tree) session ask index seen unit front
            asked).value = visit
          have hfront : visit.front = front := by
            rw [← hvisit]
            rcases visitUnit_cases (sourceFrontEnd tree) session ask index seen unit front asked with
              ⟨-, hvalue⟩ | ⟨-, -, -, hvalue⟩ | ⟨-, -, -, hvalue⟩
            · rw [hvalue]
            · rw [hvalue]
            · rw [hvalue]
              rfl
          cases hbroken : visit.unit.isBroken with
          | true => rw [selectFrom_broken hvisit hbroken, hfront]
          | false =>
              cases hselected : visit.isSelected with
              | true =>
                  rw [selectFrom_selected hvisit hbroken hselected, hfront]
                  exact ih _ _ _
              | false =>
                  rw [selectFrom_passed hvisit hbroken hselected, hfront]
                  exact ih _ _ _

/-- A unit as a visit leaves it for which nothing is new. -/
def passedOver (session : Session) (unit : CompilationUnit) : CompilationUnit :=
  { unit with
    state := if session.isProcessed unit.file then .alreadyProcessed else .skippedTransitive }

/-- A visit passes over all units, if the files that are wanted were handled. -/
theorem sights_nothing {session : Session} {wanted : String → Bool}
    {slots : List (Option CompilationUnit)}
    (h : ∀ unit, some unit ∈ slots → wanted unit.file = true →
      session.isProcessed unit.file = true) :
    sights session wanted [] slots =
      slots.map (Option.map fun unit => (passedOver session unit, false)) := by
  induction slots with
  | nil => rfl
  | cons slot slots ih =>
      have hlater := ih fun unit hunit => h unit (List.mem_cons_of_mem _ hunit)
      cases slot with
      | none => exact congrArg (none :: ·) hlater
      | some unit =>
          have hsight : sight session wanted [] unit = (passedOver session unit, false) := by
            cases hhandled : session.isProcessed unit.file with
            | true => simp [sight, passedOver, hhandled]
            | false =>
                have hunwanted : wanted unit.file = false :=
                  Bool.eq_false_iff.2 fun hwanted => by
                    simp [h unit List.mem_cons_self hwanted] at hhandled
                simp [sight, passedOver, hhandled, hunwanted]
          rw [sights, hsight]
          exact congrArg (some _ :: ·) hlater

/-- The units of a registry without their places. -/
theorem Registry.filterMap_unplaced (registry : Registry) :
    registry.unplaced.filterMap id = registry.units.map CompilationUnit.unplaced := by
  rw [unplaced, List.filterMap_map, units, List.map_filterMap]
  rfl

variable {batch : Batch} {before : RunState SourceFrontEnd TreeBuilder}

/-- Behind a visit for which nothing is new the units are those of the batch, passed over. -/
theorem visitedRegistry_nothing {tree : FileTree}
    (hsights : batchSights before.session batch =
      batch.registry.unplaced.map (Option.map fun unit => (passedOver before.session unit, false)))
    {selected : List Nat}
    (hvisit : (visitBatch (sourceFrontEnd tree) treeBuilder batch before).answer = .ok selected) :
    (visitedRegistry (sourceFrontEnd tree) treeBuilder batch before).units.map
        CompilationUnit.unplaced =
      batch.registry.units.map fun unit => passedOver before.session unit.unplaced := by
  have hslots : (visitedRegistry (sourceFrontEnd tree) treeBuilder batch before).unplaced =
      (batchSights before.session batch).map (Option.map Prod.fst) :=
    selectFrom_sights (askBuilder_trees batch) hvisit
  rw [← Registry.filterMap_unplaced, hslots, hsights, List.map_map, List.filterMap_map]
  have hall := Registry.filterMap_unplaced batch.registry
  have hpassed : (id ∘ Option.map Prod.fst ∘ Option.map fun unit : CompilationUnit =>
      (passedOver before.session unit, false)) =
        fun slot => (id slot).map (passedOver before.session) := by
    funext slot
    cases slot <;> rfl
  rw [hpassed, ← List.map_filterMap, hall, List.map_map]
  rfl

/-- Where no unit was selected, nothing is rebuilt and only the batch is counted. -/
theorem rebuildBatch_nothing (level : LanguageLevel) {registry : Registry} {selected : List Nat}
    (state : RunState SourceFrontEnd TreeBuilder) (hselected : registry.selected selected = [])
    (hfiles : filesAt registry selected = []) (hpending : state.builder.pending = []) :
    ∃ outcome after,
      (rebuildBatch treeBuilder level registry selected state).value = (.ok outcome, after) ∧
      outcome.selected = [] ∧ outcome.rebuilt = [] ∧ outcome.failures = [] ∧
      outcome.skipped = (acceptAll [] registry).1.skipped ∧
      after.builder.units = state.builder.units ∧ after.session = state.session.beginBatch := by
  have hbegin : treeBuilder.beginBatch state.builder =
      (.ok (), { state.builder with batchesStarted := state.builder.batchesStarted + 1 }) := rfl
  let shop : Workshop TreeBuilder :=
    { builder := { state.builder with batchesStarted := state.builder.batchesStarted + 1 }
      conflicts := state.session.conflicts }
  have hrebuild : (rebuildFrom treeBuilder level state.session.verbosity
      (registry.selected selected) {} shop).value = (.ok {}, [], shop) := by
    rw [hselected]
    exact rebuildFrom_nil
  rw [rebuildBatch_rebuilt hbegin hrebuild, hfiles, Registry.putBack_nil]
  exact ⟨_, _, finishBatch_ended (endBatch_trees hpending), rfl, rfl, rfl, rfl, rfl, rfl⟩

/-- **A run for which nothing is new**: it selects nothing, all units count as skipped, and only the
batches are counted. -/
theorem runBatch_nothing (tree : FileTree) (hzero : batch.globalErrors = 0)
    (hsound : ∀ unit ∈ batch.registry.units, unit.isBroken = false)
    (hhandled : ∀ unit ∈ batch.registry.units, batch.isRequested unit.file = true →
      before.session.isProcessed unit.file = true)
    (hpending : before.builder.pending = []) :
    ∃ outcome after,
      (runBatch (sourceFrontEnd tree) treeBuilder batch before).value = (.ok outcome, after) ∧
      outcome.selected = [] ∧ outcome.rebuilt = [] ∧ outcome.failures = [] ∧
      outcome.skipped = batch.registry.units.map CompilationUnit.file ∧
      after.builder.units = before.builder.units ∧
      after.session = before.session.beginBatch := by
  have hunits (unit : CompilationUnit) (hunit : some unit ∈ batch.registry.unplaced) :
      ∃ placed ∈ batch.registry.units, placed.unplaced = unit := by
    refine List.mem_map.1 ?_
    rw [← Registry.filterMap_unplaced]
    exact List.mem_filterMap.2 ⟨some unit, hunit, rfl⟩
  have hsights : batchSights before.session batch = batch.registry.unplaced.map
      (Option.map fun unit => (passedOver before.session unit, false)) := by
    refine sights_nothing fun unit hunit hwanted => ?_
    obtain ⟨placed, hplaced, rfl⟩ := hunits unit hunit
    exact hhandled placed hplaced hwanted
  obtain ⟨selected, hvisit⟩ := (visitBatch_ok_iff tree before).2 fun view hview => by
    rw [hsights] at hview
    obtain ⟨slot, hslot, hview⟩ := List.mem_map.1 hview
    obtain ⟨unit, rfl, rfl⟩ := Option.map_eq_some_iff.1 hview
    obtain ⟨placed, hplaced, rfl⟩ := hunits unit hslot
    exact hsound placed hplaced
  -- No unit is chosen, so that nothing is rebuilt and nothing is put back.
  have hchosen : chosenUnits (sourceFrontEnd tree) treeBuilder batch before = [] := by
    have hviews : (chosenUnits (sourceFrontEnd tree) treeBuilder batch before).map
        CompilationUnit.unplaced = selectedViews (batchSights before.session batch) :=
      chosenUnits_sights tree before
    have hnone : selectedViews (batchSights before.session batch) = [] := by
      rw [hsights, selectedViews, List.map_eq_nil_iff, List.filter_eq_nil_iff]
      intro view hview
      obtain ⟨slot, hslot, hsome⟩ := List.mem_filterMap.1 hview
      obtain ⟨found, -, rfl⟩ := List.mem_map.1 hslot
      obtain ⟨unit, -, rfl⟩ := Option.map_eq_some_iff.1 hsome
      exact Bool.false_ne_true
    rw [hnone] at hviews
    exact List.map_eq_nil_iff.1 hviews
  have hselected := selected_visitedRegistry hvisit
  have hfiles := filesAt_visitedRegistry hvisit
  rw [hchosen] at hselected hfiles
  have hasked : (before.visited (visitBatch (sourceFrontEnd tree) treeBuilder batch before)).builder =
      before.builder := visitBatch_trees tree batch before
  obtain ⟨outcome, after, hvalue, hnone, hrebuilt, hfailures, hskipped, hbuilt, hsession⟩ :=
    rebuildBatch_nothing batch.level
      (before.visited (visitBatch (sourceFrontEnd tree) treeBuilder batch before)) hselected hfiles
      (hasked.symm ▸ hpending)
  refine ⟨outcome, after, (runBatch_selected hzero hvisit).trans hvalue, hnone, hrebuilt, hfailures,
    hskipped.trans ?_, hbuilt.trans (congrArg TreeBuilder.units hasked), hsession⟩
  -- The units are those of the batch, passed over.
  have hpassed := visitedRegistry_nothing hsights hvisit
  rw [acceptAll_tally, skipped_foldl_accept]
  · have hnames := congrArg (List.map CompilationUnit.file) hpassed
    rw [List.map_map, List.map_map] at hnames
    exact hnames
  · intro unit hunit
    have hmem : unit.unplaced ∈ batch.registry.units.map fun unit =>
        passedOver before.session unit.unplaced := hpassed ▸ List.mem_map_of_mem hunit
    obtain ⟨placed, -, hsame⟩ := List.mem_map.1 hmem
    have hstate : unit.state = (passedOver before.session placed.unplaced).state :=
      (congrArg CompilationUnit.state hsame).symm
    rw [hstate, passedOver]
    split <;> simp

/-! ### A run that is made again -/

/-- The builder that keeps trees ends a batch only if no unit is pending. -/
theorem pending_of_endBatch {builder last : TreeBuilder}
    (h : treeBuilder.endBatch builder = (.ok (), last)) : last.pending = [] := by
  simp only [treeBuilder, TreeBuilder.endBatch] at h
  split at h
  next hpending =>
    cases h
    simpa using hpending
  next => cases h

/-- The batch of a command line depends on the front end by its size limit only. -/
theorem compiledFor_congr (tree : FileTree) (reading : ReadingPreferences) (options : Options)
    {front other : SourceFrontEnd} (h : other.sizeLimit = front.sizeLimit) :
    compiledFor tree reading other options = compiledFor tree reading front options := by
  simp only [compiledFor, SourceFrontEnd.configured, h]

theorem sizeLimit_compiledFor (tree : FileTree) (reading : ReadingPreferences)
    (front : SourceFrontEnd) (options : Options) :
    (compiledFor tree reading front options).front.sizeLimit = front.sizeLimit :=
  ((enterAll_extends 0 _ _).trans compiled_extends).sizeLimit

/-- Behind a run that ended every file of its command line counts as handled. -/
theorem isProcessed_of_ended (tree : FileTree) {files added : List String}
    {after : RunState SourceFrontEnd TreeBuilder} {outcome : Outcome}
    (hrequested : batch.requested = files)
    (hholds : Holds files added batch.registry batch.globalErrors)
    (h : (runBatch (sourceFrontEnd tree) treeBuilder batch before).value = (.ok outcome, after))
    {file : String} (hfile : file ∈ files) : after.session.isProcessed file = true := by
  obtain ⟨-, selected, hvisit, hrebuild⟩ := runBatch_ended h
  obtain ⟨conflicts, report, last, -, hsession, -⟩ := rebuildBatch_ended hrebuild
  have hmem : file ∈ after.session.processed := by
    rw [hsession, Session.mem_processed_afterRebuild, filesAt_visitedRegistry hvisit,
      chosenUnits_files tree hrequested hholds before]
    cases hold : before.session.isProcessed file with
    | true =>
        have hprocessed : file ∈ before.session.processed := by
          simpa [Session.isProcessed] using hold
        exact .inr hprocessed
    | false => exact .inl (List.mem_eraseDups.2 (List.mem_filter.2 ⟨hfile, by simp [hold]⟩))
  simpa [Session.isProcessed] using hmem

/-- **A run that is made again selects nothing and changes the count of batches only.**  It comes to
its end, passes over all units of the batch, which is the one of the run before, and leaves the trees
as they are. -/
theorem run_again (tree : FileTree) (settings : RunSettings) (arguments : List String)
    (state : RunState SourceFrontEnd TreeBuilder) {outcome : Outcome}
    {after : RunState SourceFrontEnd TreeBuilder}
    (h : (run (sourceFrontEnd tree) treeBuilder tree settings arguments state).value =
      (.ok outcome, after)) :
    ∃ again last batch before before',
      (run (sourceFrontEnd tree) treeBuilder tree settings arguments after).value =
        (.ok again, last) ∧
      again.selected = [] ∧ again.rebuilt = [] ∧ again.failures = [] ∧
      commandLine (sourceFrontEnd tree) tree settings arguments state = (.ok batch, before) ∧
      commandLine (sourceFrontEnd tree) tree settings arguments after = (.ok batch, before') ∧
      again.skipped = batch.registry.units.map CompilationUnit.file ∧
      last.builder.units = after.builder.units ∧
      last.session = { after.session with batches := after.session.batches + 1 } := by
  rw [value_run] at h
  rcases hline : commandLine (sourceFrontEnd tree) tree settings arguments state
    with ⟨answer, before⟩
  rw [hline] at h
  cases answer with
  | error e => cases h
  | ok batch =>
      obtain ⟨remaining, hfilter, hcompile⟩ := commandLine_ok hline
      obtain ⟨options, added, hparse, hrequested, hholds⟩ := compile_holds hcompile
      rw [compile_compiledFor hparse] at hcompile
      obtain ⟨hbatch, hfront⟩ := Prod.mk.inj hcompile
      obtain rfl := Except.ok.inj hbatch
      obtain ⟨hzero, selected, hvisit, hrebuild⟩ := runBatch_ended h
      obtain ⟨conflicts, report, last, hkept, hsession, hend⟩ := rebuildBatch_ended hrebuild
      -- The same command line comes to the same batch.
      have hlimit : after.front.sizeLimit = state.front.sizeLimit := by
        rw [hkept, RunState.visited, visitBatch, selectFrom_front, ← hfront, sizeLimit_compiledFor]
      have hverbosity : after.session.verbosity = before.session.verbosity := by
        rw [hsession, Session.verbosity_afterRebuild]
        rfl
      have hagain : commandLine (sourceFrontEnd tree) tree settings arguments after = _ :=
        commandLine_compiledFor (filterArguments_again hfilter hverbosity) hparse
      rw [compiledFor_congr tree settings.reading options hlimit] at hagain
      have hsound : FindsNoErrors before.session _ :=
        ⟨hzero, (visitBatch_ok_iff tree before).1 ⟨selected, hvisit⟩⟩
      have hclean := hsound.clean
      obtain ⟨next, hnext⟩ : ∃ next : RunState SourceFrontEnd TreeBuilder, next =
          { after with front := (compiledFor tree settings.reading state.front options).front } :=
        ⟨_, rfl⟩
      have hpending : next.builder.pending = [] := by
        rw [hnext]
        exact pending_of_endBatch hend
      have hhandled (file : String) (hfile : file ∈ options.files) :
          next.session.isProcessed file = true := by
        rw [hnext]
        exact isProcessed_of_ended tree hrequested hholds h hfile
      obtain ⟨again, last, hvalue, hselected, hrebuilt, hfailures, hskipped, hunits, hbatches⟩ :=
        runBatch_nothing tree hzero
          (fun unit hunit => by
            obtain ⟨slot, hslot, rfl⟩ := List.mem_filterMap.1 hunit
            obtain ⟨place, hplace⟩ := List.mem_iff_getElem?.1 hslot
            exact hclean.units place unit (by rw [Registry.get?]; exact congrArg Option.join hplace))
          (fun unit _ hwanted => hhandled unit.file (by
            simpa [Batch.isRequested, Completion.batch] using hwanted))
          hpending
      subst hnext
      refine ⟨again, last, _, before, _, ?_, hselected, hrebuilt, hfailures, rfl, hagain, hskipped,
        hunits, hbatches⟩
      rw [value_run, hagain]
      exact hvalue

/-- A file that refers to another one is rebuilt by the first run, and both are passed over by the
second. -/
theorem run_again_inheriting :
    let arguments := ["--verbose=1", "-sourcepath", ".", "A.java"]
    ∃ outcome after again last,
      (run (sourceFrontEnd inheritingTree) treeBuilder inheritingTree {} arguments
        freshState).value = (.ok outcome, after) ∧
      outcome.selected = ["A.java"] ∧
      (run (sourceFrontEnd inheritingTree) treeBuilder inheritingTree {} arguments after).value =
        (.ok again, last) ∧
      again.selected = [] ∧ again.skipped = ["A.java", "./B.java"] ∧
      last.session = { after.session with batches := after.session.batches + 1 } := by
  intro arguments
  have hselected : (run (sourceFrontEnd inheritingTree) treeBuilder inheritingTree {} arguments
      freshState).value.1.toOption.map Outcome.selected = some ["A.java"] := by decide +kernel
  have hfiles : (commandLine (sourceFrontEnd inheritingTree) inheritingTree {} arguments
      freshState).1.toOption.map (fun batch => batch.registry.units.map CompilationUnit.file) =
        some ["A.java", "./B.java"] := by decide +kernel
  rcases hrun : (run (sourceFrontEnd inheritingTree) treeBuilder inheritingTree {} arguments
    freshState).value with ⟨answer, after⟩
  rw [hrun] at hselected
  cases answer with
  | error e => cases hselected
  | ok outcome =>
      obtain ⟨again, last, batch, before, before', hagain, hnone, -, -, hline, -, hskipped, -,
        hsession⟩ := run_again inheritingTree {} arguments freshState hrun
      rw [hline] at hfiles
      exact ⟨outcome, after, again, last, rfl, Option.some.inj hselected, hagain, hnone,
        hskipped.trans (Option.some.inj hfiles), hsession⟩

end

end JavaOutline
