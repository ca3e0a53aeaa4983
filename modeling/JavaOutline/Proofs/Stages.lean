/-
**The stages of a run, one equation for each way a stage can go.**

A run visits the units of a batch, rebuilds those that were selected and accepts all of them.  Every
stage writes to the log on the way; what it computes is the value beside the log.  This module says
once what the value of each stage is, by the cases in which the stage goes one way or another, so
that statements about runs need not open the stages again.

Main results:

* `filterArguments_session`, `commandLine_ok`, `commandLine_state` — reading the command line;
* `visitUnit_handled`, `visitUnit_unasked`, `visitUnit_asked`, `visitUnit_cases` — visiting one unit;
* `selectFrom_none`, `selectFrom_broken`, `selectFrom_selected`, `selectFrom_passed` — visiting the
  unit in the first slot and then the others;
* `rebuildUnit_unready`, `rebuildUnit_failed`, `rebuildUnit_rebuilt` — rebuilding one unit;
* `rebuildFrom_rebuilt`, `rebuildFrom_failed`, `rebuildFrom_linkage` — rebuilding the first unit and
  then the others;
* `rebuildBatch_refused`, `rebuildBatch_linkage`, `rebuildBatch_rebuilt`, `finishBatch_refused`,
  `finishBatch_ended` — rebuilding a batch;
* `rebuildBatch_eq_ok` — what a batch came through that ended well;
* `compile_rejected`, `compile_configured` — compiling a batch;
* `runBatch_globalErrors`, `runBatch_diagnostics`, `runBatch_selected`, `run_flagError`,
  `run_configError`, `run_compiled` — a whole run.
-/

import JavaOutline.Run

set_option autoImplicit false

namespace JavaOutline

section Visiting

variable {φ σ : Type} {frontEnd : FrontEnd φ} {session : Session} {ask : String → σ → Bool × σ}
  {index : Nat} {seen : List String} {unit : CompilationUnit} {front : φ} {asked next : σ}

/-! ### Visiting one unit -/

/-- A unit whose file was handled before is not selected, and nobody is asked about it. -/
theorem visitUnit_handled (h : session.isProcessed unit.file = true ∨ unit.file ∈ seen) :
    (visitUnit frontEnd session ask index seen unit front asked).value =
      { unit := { unit with state := .alreadyProcessed }, isSelected := false, front, asked } := by
  have hcond : (session.isProcessed unit.file || seen.contains unit.file) = true := by
    simpa using h
  simp only [visitUnit, hcond, if_true, Logged.value_pure]

/-- A unit that nobody asks for is not selected. -/
theorem visitUnit_unasked (hnew : session.isProcessed unit.file = false) (hseen : unit.file ∉ seen)
    (hask : ask unit.file asked = (false, next)) :
    (visitUnit frontEnd session ask index seen unit front asked).value =
      { unit := { unit with state := .skippedTransitive }, isSelected := false, front
        asked := next } := by
  have hcond : (session.isProcessed unit.file || seen.contains unit.file) = false := by
    simpa [hnew] using hseen
  simp only [visitUnit, hcond, Bool.false_eq_true, if_false, hask, Logged.value_pure]

/-- A unit that is asked for is processed and selected. -/
theorem visitUnit_asked (hnew : session.isProcessed unit.file = false) (hseen : unit.file ∉ seen)
    (hask : ask unit.file asked = (true, next)) :
    (visitUnit frontEnd session ask index seen unit front asked).value =
      { unit := (frontEnd.process unit index front).value.1, isSelected := true
        front := (frontEnd.process unit index front).value.2, asked := next } := by
  have hcond : (session.isProcessed unit.file || seen.contains unit.file) = false := by
    simpa [hnew] using hseen
  simp only [visitUnit, hcond, Bool.false_eq_true, if_false, hask, Logged.value_bind,
    Logged.value_pure]

/-- A visit goes one of three ways. -/
theorem visitUnit_cases (frontEnd : FrontEnd φ) (session : Session) (ask : String → σ → Bool × σ)
    (index : Nat) (seen : List String) (unit : CompilationUnit) (front : φ) (asked : σ) :
    ((session.isProcessed unit.file = true ∨ unit.file ∈ seen) ∧
      (visitUnit frontEnd session ask index seen unit front asked).value =
        { unit := { unit with state := .alreadyProcessed }, isSelected := false, front, asked }) ∨
    (session.isProcessed unit.file = false ∧ unit.file ∉ seen ∧
      (ask unit.file asked).1 = false ∧
      (visitUnit frontEnd session ask index seen unit front asked).value =
        { unit := { unit with state := .skippedTransitive }, isSelected := false, front
          asked := (ask unit.file asked).2 }) ∨
    (session.isProcessed unit.file = false ∧ unit.file ∉ seen ∧
      (ask unit.file asked).1 = true ∧
      (visitUnit frontEnd session ask index seen unit front asked).value =
        { unit := (frontEnd.process unit index front).value.1, isSelected := true
          front := (frontEnd.process unit index front).value.2
          asked := (ask unit.file asked).2 }) := by
  by_cases hold : session.isProcessed unit.file = true ∨ unit.file ∈ seen
  · exact .inl ⟨hold, visitUnit_handled hold⟩
  · obtain ⟨hnew, hseen⟩ := not_or.1 hold
    have hnew : session.isProcessed unit.file = false := by simpa using hnew
    refine .inr ?_
    rcases hask : ask unit.file asked with ⟨answer, next⟩
    cases answer with
    | false => exact .inl ⟨hnew, hseen, rfl, visitUnit_unasked hnew hseen hask⟩
    | true => exact .inr ⟨hnew, hseen, rfl, visitUnit_asked hnew hseen hask⟩

/-! ### Visiting the slots -/

variable {slots : List (Option CompilationUnit)} {visit : Visit φ σ}

theorem selectFrom_nil :
    (selectFrom frontEnd session ask index seen [] front asked).value =
      { answer := .ok [], slots := [], front, asked } := rfl

/-- An empty slot is passed over. -/
theorem selectFrom_none :
    (selectFrom frontEnd session ask index seen (none :: slots) front asked).value =
      (selectFrom frontEnd session ask (index + 1) seen slots front asked).value.cons none none :=
  rfl

/-- A unit with an error ends the visit. -/
theorem selectFrom_broken
    (hvisit : (visitUnit frontEnd session ask index seen unit front asked).value = visit)
    (hbroken : visit.unit.isBroken = true) :
    (selectFrom frontEnd session ask index seen (some unit :: slots) front asked).value =
      { answer := .error (.ofUnit unit.file visit.unit), slots := some visit.unit :: slots
        front := visit.front, asked := visit.asked } := by
  simp only [selectFrom, Logged.value_bind, hvisit, hbroken, if_true, Logged.value_pure]

/-- A unit that was selected is put in front of what the others give. -/
theorem selectFrom_selected
    (hvisit : (visitUnit frontEnd session ask index seen unit front asked).value = visit)
    (hsound : visit.unit.isBroken = false) (hselected : visit.isSelected = true) :
    (selectFrom frontEnd session ask index seen (some unit :: slots) front asked).value =
      (selectFrom frontEnd session ask (index + 1) (unit.file :: seen) slots visit.front
        visit.asked).value.cons (some visit.unit) (some index) := by
  simp [selectFrom, hvisit, hsound, hselected]

/-- A unit that was not selected is passed over. -/
theorem selectFrom_passed
    (hvisit : (visitUnit frontEnd session ask index seen unit front asked).value = visit)
    (hsound : visit.unit.isBroken = false) (hselected : visit.isSelected = false) :
    (selectFrom frontEnd session ask index seen (some unit :: slots) front asked).value =
      (selectFrom frontEnd session ask (index + 1) seen slots visit.front
        visit.asked).value.cons (some visit.unit) none := by
  simp [selectFrom, hvisit, hsound, hselected]

/-! ### Whoever is asked -/

theorem visitUnit_keeps {P : σ → Prop} (hask : ∀ file state, P state → P (ask file state).2)
    (index : Nat) (seen : List String) (unit : CompilationUnit) (front : φ) {asked : σ}
    (h : P asked) :
    P (visitUnit frontEnd session ask index seen unit front asked).value.asked := by
  rcases visitUnit_cases frontEnd session ask index seen unit front asked with
    ⟨-, hvalue⟩ | ⟨-, -, -, hvalue⟩ | ⟨-, -, -, hvalue⟩
  · rw [hvalue]
    exact h
  · rw [hvalue]
    exact hask unit.file asked h
  · rw [hvalue]
    exact hask unit.file asked h

/-- What holds of whoever is asked, however it answers, holds behind the visit. -/
theorem selectFrom_asked {P : σ → Prop} (hask : ∀ file state, P state → P (ask file state).2)
    (index : Nat) (seen : List String) (slots : List (Option CompilationUnit)) (front : φ)
    {asked : σ} (h : P asked) :
    P (selectFrom frontEnd session ask index seen slots front asked).value.asked := by
  induction slots generalizing index seen front asked with
  | nil => exact h
  | cons slot slots ih =>
      cases slot with
      | none => exact ih (index + 1) seen front h
      | some unit =>
          generalize hvisit : (visitUnit frontEnd session ask index seen unit front asked).value =
            visit
          have hnext : P visit.asked := by
            rw [← hvisit]
            exact visitUnit_keeps hask index seen unit front h
          cases hbroken : visit.unit.isBroken with
          | true =>
              rw [selectFrom_broken hvisit hbroken]
              exact hnext
          | false =>
              cases hselected : visit.isSelected with
              | true =>
                  rw [selectFrom_selected hvisit hbroken hselected]
                  exact ih _ _ _ hnext
              | false =>
                  rw [selectFrom_passed hvisit hbroken hselected]
                  exact ih _ _ _ hnext

end Visiting

section Rebuilding

variable {β : Type} {builder : Builder β} {level : LanguageLevel} {verbosity : Nat}
  {unit after : CompilationUnit} {units : List CompilationUnit} {report : RebuildReport}
  {shop next : Workshop β} {outline : Outline} {state : β}

/-! ### Rebuilding one unit -/

/-- The builder hears nothing of a unit that is not ready. -/
theorem rebuildUnit_unready {e : RebuildError} (h : unit.readyOutline = .error e) :
    (rebuildUnit builder level verbosity unit shop).value = (.error (.unit e), unit, shop) := by
  simp only [rebuildUnit, h, Logged.value_pure]

/-- A unit at which the builder fails is left as it was, and the builder forgets it. -/
theorem rebuildUnit_failed {e : BuilderError} (h : unit.readyOutline = .ok outline)
    (hfeed : builder.feed (outline.nodeEvents unit.file level) shop.builder = (.error e, state)) :
    (rebuildUnit builder level verbosity unit shop).value =
      (.error (e.unitFailure unit.file), unit,
        { shop with builder := builder.abort unit.file state }) := by
  simp only [rebuildUnit, h, hfeed, Logged.value_pure]

/-- A unit that the builder takes is rebuilt, and its names are recorded. -/
theorem rebuildUnit_rebuilt (h : unit.readyOutline = .ok outline)
    (hfeed : builder.feed (outline.nodeEvents unit.file level) shop.builder = (.ok (), state)) :
    (rebuildUnit builder level verbosity unit shop).value =
      (.ok (), { unit with state := .rebuilt },
        { builder := state, conflicts := shop.conflicts.record unit.file outline }) := by
  simp only [rebuildUnit, h, hfeed]
  split <;> rfl

/-! ### Rebuilding units in order -/

theorem rebuildFrom_nil :
    (rebuildFrom builder level verbosity [] report shop).value = (.ok report, [], shop) := rfl

theorem rebuildFrom_rebuilt
    (h : (rebuildUnit builder level verbosity unit shop).value = (.ok (), after, next)) :
    (rebuildFrom builder level verbosity (unit :: units) report shop).value =
      let later := (rebuildFrom builder level verbosity units
        { report with rebuilt := report.rebuilt ++ [unit.file] } next).value
      (later.1, after :: later.2.1, later.2.2) := by
  simp only [rebuildFrom, Logged.value_bind, Logged.value_inUnit, h, Logged.value_pure]

theorem rebuildFrom_failed {e : RebuildError}
    (h : (rebuildUnit builder level verbosity unit shop).value = (.error (.unit e), after, next)) :
    (rebuildFrom builder level verbosity (unit :: units) report shop).value =
      let later := (rebuildFrom builder level verbosity units
        { report with failures := report.failures ++ [e] } next).value
      (later.1, after :: later.2.1, later.2.2) := by
  simp only [rebuildFrom, Logged.value_bind, Logged.value_inUnit, h, Logged.value_pure]

/-- A missing entry point ends the batch; the units behind stay as they were. -/
theorem rebuildFrom_linkage {e : LinkageError}
    (h : (rebuildUnit builder level verbosity unit shop).value =
      (.error (.linkage e), after, next)) :
    (rebuildFrom builder level verbosity (unit :: units) report shop).value =
      (.error e, after :: units, next) := by
  simp only [rebuildFrom, Logged.value_bind, Logged.value_inUnit, h, Logged.value_pure]

/-- Rebuilding all units is rebuilding them behind none. -/
theorem value_rebuildAll :
    (rebuildAll builder level verbosity units shop).value =
      (rebuildFrom builder level verbosity units {} shop).value := by
  simp only [rebuildAll, Logged.value_bind]
  rcases (rebuildFrom builder level verbosity units {} shop).value with ⟨found, later, last⟩
  cases found <;> rfl

end Rebuilding

/-! ### Verbosity flags -/

/-- A flag sets the verbosity of the session, or is rejected. -/
theorem applyFlag_session (session : Session) (flag payload : String) :
    (∃ e, (session.applyFlag flag payload).value = .error e) ∨
      ∃ level, (session.applyFlag flag payload).value = .ok { session with verbosity := level } := by
  unfold Session.applyFlag
  cases verbosityLevel? payload with
  | none => exact .inl ⟨_, rfl⟩
  | some level =>
      refine .inr ⟨level, ?_⟩
      simp only
      split <;> rfl

theorem exists_of_map_eq_ok {ε α β : Type} {f : α → β} {found : Except ε α} {b : β}
    (h : found.map f = .ok b) : ∃ a, found = .ok a ∧ f a = b := by
  cases found with
  | error => cases h
  | ok a =>
      cases h
      exact ⟨a, rfl, rfl⟩

/-- Taking out the flags changes the verbosity only, and keeps the order of the other arguments. -/
theorem filterArguments_session (style : FlagStyle) (session : Session) (arguments : List String) :
    (∃ level, (session.filterArguments style arguments).value.2 =
        { session with verbosity := level }) ∧
      ∀ remaining, (session.filterArguments style arguments).value.1 = .ok remaining →
        remaining.Sublist arguments := by
  fun_induction Session.filterArguments style session arguments with
  | case1 session =>
      refine ⟨⟨session.verbosity, rfl⟩, ?_⟩
      rintro remaining ⟨⟩
      exact List.Sublist.slnil
  | case2 session argument rest hform hplain ih =>
      refine ⟨ih.1, ?_⟩
      intro remaining h
      obtain ⟨later, hlater, rfl⟩ := exists_of_map_eq_ok h
      exact (ih.2 later hlater).cons_cons argument
  | case3 session argument rest hform payload hflag ih =>
      rcases applyFlag_session session argument payload with ⟨e, he⟩ | ⟨level, hlevel⟩
      · simp only [Logged.value_bind, he]
        exact ⟨⟨session.verbosity, rfl⟩, fun remaining h => nomatch h⟩
      · simp only [Logged.value_bind, hlevel]
        exact ⟨(ih _).1, fun remaining h => ((ih _).2 remaining h).cons argument⟩
  | case4 session hform => exact ⟨⟨session.verbosity, rfl⟩, fun remaining h => nomatch h⟩
  | case5 session hform payload rest ih =>
      rcases applyFlag_session session style.name payload with ⟨e, he⟩ | ⟨level, hlevel⟩
      · simp only [Logged.value_bind, he]
        exact ⟨⟨session.verbosity, rfl⟩, fun remaining h => nomatch h⟩
      · simp only [Logged.value_bind, hlevel]
        exact ⟨(ih _).1, fun remaining h =>
          (((ih _).2 remaining h).cons payload).cons style.name⟩
  | case6 session argument rest hform hplain ih =>
      refine ⟨ih.1, ?_⟩
      intro remaining h
      obtain ⟨later, hlater, rfl⟩ := exists_of_map_eq_ok h
      exact (ih.2 later hlater).cons_cons argument

section Running

variable {φ β : Type} {frontEnd : FrontEnd φ} {builder : Builder β} {tree : FileTree}
  {settings : RunSettings} {arguments remaining : List String} {level : LanguageLevel}
  {registry : Registry} {selected : List Nat} {batch : Batch} {state : RunState φ β}
  {session : Session} {front : φ} {next : β}

/-! ### Rebuilding a batch -/

/-- A builder that refuses to begin a batch is told of no unit. -/
theorem rebuildBatch_refused {e : BuilderError}
    (h : builder.beginBatch state.builder = (.error e, next)) :
    (rebuildBatch builder level registry selected state).value =
      (.error (.builder e), { state with builder := next }) := by
  simp only [rebuildBatch, h, Logged.value_pure]

/-- A missing entry point ends the run; what was rebuilt until then counts as handled. -/
theorem rebuildBatch_linkage {e : LinkageError} {units : List CompilationUnit} {shop : Workshop β}
    (h : builder.beginBatch state.builder = (.ok (), next))
    (hrebuild : (rebuildFrom builder level state.session.verbosity (registry.selected selected) {}
      { builder := next, conflicts := state.session.conflicts }).value = (.error e, units, shop)) :
    (rebuildBatch builder level registry selected state).value =
      (.error (.linkage e),
        { state with
          builder := shop.builder
          session := { state.session.beginBatch with conflicts := shop.conflicts }.afterLinkage
            (registry.putBack selected units) }) := by
  rw [← value_rebuildAll] at hrebuild
  simp only [rebuildBatch, h, Logged.value_bind]
  simp only [Session.beginBatch, hrebuild, Logged.value_pure]

/-- Otherwise the files that were selected count as handled, and the batch is ended. -/
theorem rebuildBatch_rebuilt {report : RebuildReport} {units : List CompilationUnit}
    {shop : Workshop β} (h : builder.beginBatch state.builder = (.ok (), next))
    (hrebuild : (rebuildFrom builder level state.session.verbosity (registry.selected selected) {}
      { builder := next, conflicts := state.session.conflicts }).value =
        (.ok report, units, shop)) :
    (rebuildBatch builder level registry selected state).value =
      (finishBatch builder level (filesAt registry selected) report
        (registry.putBack selected units)
        { state with
          builder := shop.builder
          session := { state.session.beginBatch with conflicts := shop.conflicts }.afterRebuild
            (filesAt registry selected) report }).value := by
  rw [← value_rebuildAll] at hrebuild
  simp only [rebuildBatch, h, Logged.value_bind]
  simp only [Session.beginBatch, hrebuild]

/-- A builder that refuses to end the batch raises the mark of the session. -/
theorem finishBatch_refused {files : List String} {report : RebuildReport} {e : BuilderError}
    (h : builder.endBatch state.builder = (.error e, next)) :
    (finishBatch builder level files report registry state).value =
      (.error (.builder e), { state with builder := next, session := state.session.fail }) := by
  simp only [finishBatch, Logged.value_bind, h, Logged.value_pure]

/-- What a batch that was ended gives. -/
theorem finishBatch_ended {files : List String} {report : RebuildReport}
    (h : builder.endBatch state.builder = (.ok (), next)) :
    (finishBatch builder level files report registry state).value =
      let tally := (acceptAll (report.failures.map RebuildError.file) registry).1
      (.ok
        { level, selected := files, rebuilt := report.rebuilt, failures := report.failures
          skipped := tally.skipped, accepted := tally.accepted
          unitsAccepted := tally.unitsAccepted, lineCount := tally.lineCount
          processedTotal := state.session.processedCount, failed := state.session.failed },
        { state with builder := next }) := by
  simp only [finishBatch, Logged.value_bind, h, Logged.value_pure]

/-- A batch that ends well was begun, its units were rebuilt, and it was ended. -/
theorem rebuildBatch_eq_ok {after : RunState φ β} {outcome : Outcome}
    (h : (rebuildBatch builder level registry selected state).value = (.ok outcome, after)) :
    ∃ next report units shop last,
      builder.beginBatch state.builder = (.ok (), next) ∧
      (rebuildFrom builder level state.session.verbosity (registry.selected selected) {}
        { builder := next, conflicts := state.session.conflicts }).value =
          (.ok report, units, shop) ∧
      builder.endBatch shop.builder = (.ok (), last) ∧
      (finishBatch builder level (filesAt registry selected) report
        (registry.putBack selected units)
        { state with
          builder := shop.builder
          session := { state.session.beginBatch with conflicts := shop.conflicts }.afterRebuild
            (filesAt registry selected) report }).value = (.ok outcome, after) := by
  rcases hbegin : builder.beginBatch state.builder with ⟨answer, next⟩
  cases answer with
  | error e =>
      rw [rebuildBatch_refused hbegin] at h
      cases h
  | ok =>
  rcases hrebuild : (rebuildFrom builder level state.session.verbosity
    (registry.selected selected) {}
      { builder := next, conflicts := state.session.conflicts }).value with ⟨found, units, shop⟩
  cases found with
  | error e =>
      rw [rebuildBatch_linkage hbegin hrebuild] at h
      cases h
  | ok report =>
  rw [rebuildBatch_rebuilt hbegin hrebuild] at h
  rcases hend : builder.endBatch shop.builder with ⟨ended, last⟩
  cases ended with
  | error e =>
      rw [finishBatch_refused hend] at h
      cases h
  | ok => exact ⟨next, report, units, shop, last, rfl, hrebuild, hend, h⟩

/-! ### Compiling a batch -/

section Compiling

variable {reading : ReadingPreferences} {found : φ}

theorem compile_rejected {e : ConfigError}
    (h : (frontEnd.configure arguments front).value = (.error e, found)) :
    (Batch.compile frontEnd tree reading arguments front).value = (.error e, found) := by
  simp only [Batch.compile, Logged.value_bind, h, Logged.value_pure]

/-- A command line that the front end accepts gives a batch, whatever is wrong with its sources. -/
theorem compile_configured {sources : List SourceFile}
    (h : (frontEnd.configure arguments front).value = (.ok sources, found)) :
    (Batch.compile frontEnd tree reading arguments front).value =
      let options := frontEnd.options found
      let compiled := (Batch.ofSources frontEnd tree reading sources
        (frontEnd.setOptions (Batch.readOnly options) found)).value
      (.ok
        { level := options.sourceLevel, registry := compiled.1
          requested := (sources.filter (·.origin == SourceOrigin.requested)).map SourceFile.file
          globalErrors := frontEnd.globalErrors compiled.2 },
        compiled.2) := by
  simp only [Batch.compile, Logged.value_bind, h, Logged.value_pure]

end Compiling

/-! ### A whole run -/

theorem runBatch_globalErrors (h : 0 < batch.globalErrors) :
    (runBatch frontEnd builder batch state).value =
      (.error (.globalErrors batch.globalErrors), state) := by
  simp only [runBatch, h, if_true, Logged.value_bind, Logged.value_pure]

/-- The visit of the units of a batch on behalf of a run. -/
def visitBatch (frontEnd : FrontEnd φ) (builder : Builder β) (batch : Batch)
    (state : RunState φ β) : Selection φ β :=
  (selectFrom frontEnd state.session (askBuilder builder batch) 0 [] batch.registry.slots
    state.front state.builder).value

/-- The registry of a batch behind the visit. -/
def visitedRegistry (frontEnd : FrontEnd φ) (builder : Builder β) (batch : Batch)
    (state : RunState φ β) : Registry :=
  { batch.registry with slots := (visitBatch frontEnd builder batch state).slots }

/-- The state of a run behind the visit. -/
def RunState.visited (state : RunState φ β) (visit : Selection φ β) : RunState φ β :=
  { state with front := visit.front, builder := visit.asked }

theorem runBatch_diagnostics {e : DiagnosticError} (h : batch.globalErrors = 0)
    (hvisit : (visitBatch frontEnd builder batch state).answer = .error e) :
    (runBatch frontEnd builder batch state).value =
      (.error (.diagnostics e), state.visited (visitBatch frontEnd builder batch state)) := by
  have hgate : ¬ 0 < batch.globalErrors := by omega
  simp only [runBatch, if_neg hgate, Logged.value_bind, selectUnits, Logged.value_pure]
  simp only [visitBatch] at hvisit
  simp only [hvisit, Logged.value_bind, Logged.value_pure, RunState.visited, visitBatch]

theorem runBatch_selected (h : batch.globalErrors = 0)
    (hvisit : (visitBatch frontEnd builder batch state).answer = .ok selected) :
    (runBatch frontEnd builder batch state).value =
      (rebuildBatch builder batch.level (visitedRegistry frontEnd builder batch state) selected
        (state.visited (visitBatch frontEnd builder batch state))).value := by
  have hgate : ¬ 0 < batch.globalErrors := by omega
  simp only [runBatch, if_neg hgate, Logged.value_bind, selectUnits, Logged.value_pure]
  simp only [visitBatch] at hvisit
  simp only [hvisit, RunState.visited, visitedRegistry, visitBatch]

/-- A verbosity flag that cannot be read ends the run. -/
theorem run_flagError {e : ConfigError}
    (h : (state.session.filterArguments settings.flag arguments).value = (.error e, session)) :
    (run frontEnd builder tree settings arguments state).value =
      (.error (.config e), { state with session }) := by
  simp only [run, Logged.value_bind, h, Logged.value_pure]

/-- A command line that the front end rejects ends the run. -/
theorem run_configError {e : ConfigError}
    (h : (state.session.filterArguments settings.flag arguments).value = (.ok remaining, session))
    (hcompile : (Batch.compile frontEnd tree settings.reading remaining state.front).value =
      (.error e, front)) :
    (run frontEnd builder tree settings arguments state).value =
      (.error (.config e), { state with front, session }) := by
  simp only [run, Logged.value_bind, h, hcompile, Logged.value_pure]

theorem run_compiled
    (h : (state.session.filterArguments settings.flag arguments).value = (.ok remaining, session))
    (hcompile : (Batch.compile frontEnd tree settings.reading remaining state.front).value =
      (.ok batch, front)) :
    (run frontEnd builder tree settings arguments state).value =
      (runBatch frontEnd builder batch { state with front, session }).value := by
  simp only [run, Logged.value_bind, h, hcompile]

/-! ### The command line and the batch -/

/-- What the command line comes to: a batch and the state in which it is visited, or an error. -/
def commandLine (frontEnd : FrontEnd φ) (tree : FileTree) (settings : RunSettings)
    (arguments : List String) (state : RunState φ β) : Except ConfigError Batch × RunState φ β :=
  match (state.session.filterArguments settings.flag arguments).value with
  | (.error e, session) => (.error e, { state with session })
  | (.ok remaining, session) =>
      let (compiled, front) :=
        (Batch.compile frontEnd tree settings.reading remaining state.front).value
      (compiled, { state with front, session })

/-- A run is what the command line comes to, and then a run of its batch. -/
theorem value_run :
    (run frontEnd builder tree settings arguments state).value =
      match commandLine frontEnd tree settings arguments state with
      | (.error e, after) => (.error (.config e), after)
      | (.ok batch, before) => (runBatch frontEnd builder batch before).value := by
  unfold commandLine
  rcases hfilter : (state.session.filterArguments settings.flag arguments).value
    with ⟨filtered, session⟩
  cases filtered with
  | error e => rw [run_flagError hfilter]
  | ok remaining =>
      rcases hcompile : (Batch.compile frontEnd tree settings.reading remaining state.front).value
        with ⟨compiled, front⟩
      cases compiled with
      | error e => simp only [run_configError hfilter hcompile, hcompile]
      | ok batch => simp only [run_compiled hfilter hcompile, hcompile]

/-- A command line that comes to a batch has good flags, and the front end compiled the rest. -/
theorem commandLine_ok {before : RunState φ β}
    (h : commandLine frontEnd tree settings arguments state = (.ok batch, before)) :
    ∃ remaining,
      (state.session.filterArguments settings.flag arguments).value =
          (.ok remaining, before.session) ∧
        (Batch.compile frontEnd tree settings.reading remaining state.front).value =
          (.ok batch, before.front) := by
  unfold commandLine at h
  rcases hfilter : (state.session.filterArguments settings.flag arguments).value
    with ⟨filtered, session⟩
  rw [hfilter] at h
  cases filtered with
  | error => simp at h
  | ok remaining =>
      simp only [Prod.mk.injEq] at h
      obtain ⟨hcompiled, rfl⟩ := h
      exact ⟨remaining, rfl, Prod.ext hcompiled rfl⟩

/-- Until the batch is visited, the session changes in its verbosity only and the builder hears
nothing. -/
theorem commandLine_state (frontEnd : FrontEnd φ) (tree : FileTree) (settings : RunSettings)
    (arguments : List String) (state : RunState φ β) :
    ∃ level, (commandLine frontEnd tree settings arguments state).2.session =
        { state.session with verbosity := level } ∧
      (commandLine frontEnd tree settings arguments state).2.builder = state.builder := by
  obtain ⟨⟨level, hlevel⟩, -⟩ := filterArguments_session settings.flag state.session arguments
  refine ⟨level, ?_⟩
  unfold commandLine
  rcases hfilter : (state.session.filterArguments settings.flag arguments).value
    with ⟨filtered, session⟩
  rw [hfilter] at hlevel
  cases filtered with
  | error => exact ⟨hlevel, rfl⟩
  | ok remaining => exact ⟨hlevel, rfl⟩

end Running

end JavaOutline
