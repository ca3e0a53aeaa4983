/-
**Runs that are rejected.**

A run is rejected when its command line is wrong, when there are errors that belong to no parsed
unit, and when a unit has errors when it is checked.  All that is found out before a unit is rebuilt,
so a run that is rejected has no effect: the session is as it was, but for the verbosity, and the
builder was only asked about files.

Main definitions:

* `checkedFrom`, `checkedUnits` — the units of a batch as they are when they are checked;
* `RejectsArguments`, `GivesBatch` — what the command line comes to;
* `RunError.isRejection` — the errors of rejected runs.

Main results:

* `selectFrom_answer` — the visit ends with an error if some unit has one when it is checked;
* `run_rejection` — when a run is rejected and why, and that it has no effect then.
-/

import JavaOutline.Builder.Tree
import JavaOutline.FrontEnd.Sources
import JavaOutline.Proofs.BuilderCalls

set_option autoImplicit false

namespace JavaOutline

/-! ### Checking units -/

section Visiting

variable {φ σ : Type} {frontEnd : FrontEnd φ} {session : Session} {ask : String → σ → Bool × σ}

/-- The units in slots as they are when they are checked, all of them, whether units before had
errors or not. -/
def checkedFrom (frontEnd : FrontEnd φ) (session : Session) (ask : String → σ → Bool × σ) :
    Nat → List String → List (Option CompilationUnit) → φ → σ → List CompilationUnit
  | _, _, [], _, _ => []
  | index, seen, none :: slots, front, asked =>
      checkedFrom frontEnd session ask (index + 1) seen slots front asked
  | index, seen, some unit :: slots, front, asked =>
      let visit := (visitUnit frontEnd session ask index seen unit front asked).value
      visit.unit ::
        checkedFrom frontEnd session ask (index + 1)
          (if visit.isSelected then unit.file :: seen else seen) slots visit.front visit.asked

/-- Another slot in front leaves the error of a visit as it is. -/
theorem Selection.cons_answer_error (slot : Option CompilationUnit) (selected : Option Nat)
    (later : Selection φ σ) (e : DiagnosticError) :
    (later.cons slot selected).answer = .error e ↔ later.answer = .error e := by
  unfold Selection.cons
  cases later.answer with
  | error => simp [Except.map]
  | ok => simp [Except.map]

/-- The visit ends with an error if some unit has an error when it is checked. -/
theorem selectFrom_answer (index : Nat) (seen : List String)
    (slots : List (Option CompilationUnit)) (front : φ) (asked : σ) :
    (∃ e, (selectFrom frontEnd session ask index seen slots front asked).value.answer = .error e) ↔
      ∃ unit ∈ checkedFrom frontEnd session ask index seen slots front asked,
        unit.isBroken = true := by
  induction slots generalizing index seen front asked with
  | nil => simp [selectFrom_nil, checkedFrom]
  | cons slot slots ih =>
      cases slot with
      | none =>
          rw [selectFrom_none, checkedFrom, ← ih]
          exact exists_congr (Selection.cons_answer_error _ _ _)
      | some unit =>
          rw [checkedFrom]
          generalize hvisit : (visitUnit frontEnd session ask index seen unit front asked).value =
            visit
          cases hbroken : visit.unit.isBroken with
          | true =>
              rw [selectFrom_broken hvisit hbroken]
              simp [hbroken]
          | false =>
              simp only [List.mem_cons, exists_eq_or_imp, hbroken, Bool.false_eq_true, false_or]
              rw [← ih]
              cases hselected : visit.isSelected with
              | true =>
                  rw [selectFrom_selected hvisit hbroken hselected]
                  exact exists_congr (Selection.cons_answer_error _ _ _)
              | false =>
                  rw [selectFrom_passed hvisit hbroken hselected]
                  exact exists_congr (Selection.cons_answer_error _ _ _)

end Visiting

/-! ### What the command line comes to -/

section Running

variable {φ β : Type} (frontEnd : FrontEnd φ) (builder : Builder β) (tree : FileTree)
  (settings : RunSettings) (arguments : List String) (state : RunState φ β)

/-- A flag of the command line is wrong, or the front end rejects what is left of it. -/
def RejectsArguments (e : ConfigError) : Prop :=
  (state.session.filterArguments settings.flag arguments).value.1 = .error e ∨
    ∃ remaining,
      (state.session.filterArguments settings.flag arguments).value.1 = .ok remaining ∧
        (frontEnd.configure remaining state.front).value.1 = .error e

/-- The units of a batch as they are when a run checks them: those that are named, those that are
named again and those that others refer to. -/
def checkedUnits (batch : Batch) (before : RunState φ β) : List CompilationUnit :=
  checkedFrom frontEnd before.session (askBuilder builder batch) 0 [] batch.registry.slots
    before.front before.builder

variable {frontEnd builder tree settings arguments state}

/-- The command line comes to an error if a flag is wrong or the front end rejects the rest. -/
theorem commandLine_error_iff (tree : FileTree) {e : ConfigError} :
    (commandLine frontEnd tree settings arguments state).1 = .error e ↔
      RejectsArguments frontEnd settings arguments state e := by
  unfold commandLine RejectsArguments
  rcases hfilter : (state.session.filterArguments settings.flag arguments).value
    with ⟨filtered, session⟩
  cases filtered with
  | error => simp
  | ok remaining =>
      rcases hconfigure : (frontEnd.configure remaining state.front).value with ⟨answer, next⟩
      cases answer with
      | error => simp [compile_rejected hconfigure, hconfigure]
      | ok sources => simp [compile_configured hconfigure, hconfigure]

/-- The gate sees the errors that the front end counts. -/
theorem commandLine_globalErrors {batch : Batch} {before : RunState φ β}
    (h : commandLine frontEnd tree settings arguments state = (.ok batch, before)) :
    batch.globalErrors = frontEnd.globalErrors before.front := by
  obtain ⟨remaining, -, hcompile⟩ := commandLine_ok h
  rcases hconfigure : (frontEnd.configure remaining state.front).value with ⟨answer, next⟩
  cases answer with
  | error =>
      rw [compile_rejected hconfigure] at hcompile
      simp at hcompile
  | ok sources =>
      simp only [compile_configured hconfigure, Prod.mk.injEq, Except.ok.injEq] at hcompile
      obtain ⟨rfl, hfront⟩ := hcompile
      rw [← hfront]

/-! ### Rejected runs -/

/-- Whether a run with the error was rejected. -/
def RunError.isRejection : RunError → Bool
  | .config _ => true
  | .globalErrors _ => true
  | .diagnostics _ => true
  | .linkage _ => false
  | .builder _ => false

/-- Once its units are being rebuilt, a run is not rejected any more. -/
theorem rebuildBatch_not_rejected {level : LanguageLevel} {registry : Registry}
    {selected : List Nat} {e : RunError}
    (h : (rebuildBatch builder level registry selected state).value.1 = .error e) :
    e.isRejection = false := by
  rcases hbegin : builder.beginBatch state.builder with ⟨answer, next⟩
  cases answer with
  | error =>
      rw [rebuildBatch_refused hbegin] at h
      cases h
      rfl
  | ok =>
      rcases hrebuild : (rebuildFrom builder level state.session.verbosity
        (registry.selected selected) {}
        { builder := next, conflicts := state.session.conflicts }).value with ⟨found, units, shop⟩
      cases found with
      | error =>
          rw [rebuildBatch_linkage hbegin hrebuild] at h
          cases h
          rfl
      | ok report =>
          rw [rebuildBatch_rebuilt hbegin hrebuild] at h
          rcases hend : builder.endBatch shop.builder with ⟨answer, last⟩
          cases answer with
          | error =>
              rw [finishBatch_refused hend] at h
              cases h
              rfl
          | ok =>
              rw [finishBatch_ended hend] at h
              cases h

/-- How the run of a batch goes: it stops at the gate, it stops at a unit with errors, or its units
are rebuilt. -/
theorem runBatch_cases (frontEnd : FrontEnd φ) (builder : Builder β) (batch : Batch)
    (before : RunState φ β) :
    (0 < batch.globalErrors ∧
        (runBatch frontEnd builder batch before).value =
          (.error (.globalErrors batch.globalErrors), before)) ∨
      (batch.globalErrors = 0 ∧
        (∃ unit ∈ checkedUnits frontEnd builder batch before, unit.isBroken = true) ∧
        ∃ e, (runBatch frontEnd builder batch before).value =
          (.error (.diagnostics e),
            before.visited (visitBatch frontEnd builder batch before))) ∨
      (batch.globalErrors = 0 ∧
        (¬ ∃ unit ∈ checkedUnits frontEnd builder batch before, unit.isBroken = true) ∧
        ∀ e, (runBatch frontEnd builder batch before).value.1 = .error e →
          e.isRejection = false) := by
  rcases Nat.eq_zero_or_pos batch.globalErrors with hzero | hpos
  · right
    have hanswer : (∃ e, (visitBatch frontEnd builder batch before).answer = .error e) ↔
        ∃ unit ∈ checkedUnits frontEnd builder batch before, unit.isBroken = true :=
      selectFrom_answer 0 [] batch.registry.slots before.front before.builder
    cases hvisit : (visitBatch frontEnd builder batch before).answer with
    | error d =>
        exact .inl ⟨hzero, hanswer.1 ⟨d, hvisit⟩, d, runBatch_diagnostics hzero hvisit⟩
    | ok selected =>
        refine .inr ⟨hzero, fun hbroken => ?_, fun e he => ?_⟩
        · obtain ⟨d, hd⟩ := hanswer.2 hbroken
          rw [hvisit] at hd
          cases hd
        · rw [runBatch_selected hzero hvisit] at he
          exact rebuildBatch_not_rejected he
  · exact .inl ⟨hpos, runBatch_globalErrors hpos⟩

/-- A builder that was only asked about files so far. -/
def OnlyAsked (state : Recorded β) : Prop := ∀ call ∈ state.calls, call.isQuery = true

theorem onlyAsked_askBuilder (builder : Builder β) (batch : Batch) (file : String)
    (state : Recorded β) (h : OnlyAsked state) :
    OnlyAsked (askBuilder builder.recorded batch file state).2 := by
  intro call hcall
  rcases List.mem_append.1 hcall with hold | hnew
  · exact h call hold
  · rw [List.mem_singleton.1 hnew]
    rfl

/-- A run of a batch that is rejected leaves the session alone and only asks the builder. -/
theorem runBatch_rejected {batch : Batch} {before : RunState φ (Recorded β)} {e : RunError}
    (hasked : OnlyAsked before.builder)
    (h : (runBatch frontEnd builder.recorded batch before).value.1 = .error e)
    (hreject : e.isRejection = true) :
    (runBatch frontEnd builder.recorded batch before).value.2.session = before.session ∧
      OnlyAsked (runBatch frontEnd builder.recorded batch before).value.2.builder := by
  rcases runBatch_cases frontEnd builder.recorded batch before with
    ⟨-, hvalue⟩ | ⟨-, -, d, hvalue⟩ | ⟨-, -, hnot⟩
  · rw [hvalue]
    exact ⟨rfl, hasked⟩
  · rw [hvalue]
    exact ⟨rfl, selectFrom_asked (onlyAsked_askBuilder builder batch) 0 [] _ _ hasked⟩
  · rw [hnot e h] at hreject
    cases hreject

theorem run_config_iff {e : ConfigError} :
    (run frontEnd builder tree settings arguments state).value.1 = .error (.config e) ↔
      RejectsArguments frontEnd settings arguments state e := by
  rw [value_run, ← commandLine_error_iff tree]
  rcases commandLine frontEnd tree settings arguments state with ⟨answer, before⟩
  cases answer with
  | error => simp
  | ok batch =>
      rcases runBatch_cases frontEnd builder batch before with
        ⟨-, hvalue⟩ | ⟨-, -, d, hvalue⟩ | ⟨-, -, hnot⟩
      · simp [hvalue]
      · simp [hvalue]
      · refine ⟨fun h => ?_, fun h => nomatch h⟩
        cases hnot _ h

theorem run_globalErrors_iff {count : Nat} :
    (run frontEnd builder tree settings arguments state).value.1 = .error (.globalErrors count) ↔
      ∃ batch before,
        commandLine frontEnd tree settings arguments state = (.ok batch, before) ∧
          0 < count ∧ count = frontEnd.globalErrors before.front := by
  rw [value_run]
  rcases hline : commandLine frontEnd tree settings arguments state with ⟨answer, before⟩
  cases answer with
  | error => simp
  | ok batch =>
      have hcount := commandLine_globalErrors hline
      simp only [Prod.mk.injEq, Except.ok.injEq]
      constructor
      · intro h
        refine ⟨batch, before, ⟨rfl, rfl⟩, ?_⟩
        rcases runBatch_cases frontEnd builder batch before with
          ⟨hpos, hvalue⟩ | ⟨-, -, d, hvalue⟩ | ⟨-, -, hnot⟩
        · rw [hvalue] at h
          cases h
          exact ⟨hpos, hcount⟩
        · rw [hvalue] at h
          cases h
        · cases hnot _ h
      · rintro ⟨_, _, ⟨rfl, rfl⟩, hpos, rfl⟩
        rw [← hcount] at hpos ⊢
        rw [runBatch_globalErrors hpos]

theorem run_diagnostics_iff :
    (∃ e, (run frontEnd builder tree settings arguments state).value.1 =
        .error (.diagnostics e)) ↔
      ∃ batch before,
        commandLine frontEnd tree settings arguments state = (.ok batch, before) ∧
          frontEnd.globalErrors before.front = 0 ∧
          ∃ unit ∈ checkedUnits frontEnd builder batch before, unit.isBroken = true := by
  rw [value_run]
  rcases hline : commandLine frontEnd tree settings arguments state with ⟨answer, before⟩
  cases answer with
  | error => simp
  | ok batch =>
      have hcount := commandLine_globalErrors hline
      simp only [Prod.mk.injEq, Except.ok.injEq]
      rcases runBatch_cases frontEnd builder batch before with
        ⟨hpos, hvalue⟩ | ⟨hzero, hbroken, d, hvalue⟩ | ⟨hzero, hsound, hnot⟩
      · rw [hvalue]
        constructor
        · rintro ⟨e, he⟩
          cases he
        · rintro ⟨_, _, ⟨rfl, rfl⟩, hzero, -⟩
          omega
      · rw [hvalue]
        exact ⟨fun _ => ⟨batch, before, ⟨rfl, rfl⟩, hcount ▸ hzero, hbroken⟩, fun _ => ⟨d, rfl⟩⟩
      · constructor
        · rintro ⟨e, he⟩
          cases hnot _ he
        · rintro ⟨_, _, ⟨rfl, rfl⟩, -, hbroken⟩
          exact absurd hbroken hsound

/-- A rejected run has no effect: the session is as before but for the verbosity, and the builder
was only asked about files. -/
theorem run_rejected_keeps {e : RunError}
    (h : (run frontEnd builder tree settings arguments state).value.1 = .error e)
    (hreject : e.isRejection = true) :
    { (run frontEnd builder tree settings arguments state).value.2.session with
        verbosity := state.session.verbosity } = state.session ∧
      ∀ call ∈ builderCalls frontEnd builder tree settings arguments state,
        call.isQuery = true := by
  obtain ⟨level, hsession, hbuilder⟩ :=
    commandLine_state frontEnd tree settings arguments state.recorded
  have hasked : OnlyAsked
      (commandLine frontEnd tree settings arguments state.recorded).2.builder := by
    rw [hbuilder]
    intro call hcall
    cases hcall
  -- The run itself is the run under the recorder, seen without the calls.
  rw [run_recorded] at h ⊢
  rw [builderCalls]
  rw [value_run] at h ⊢
  generalize commandLine frontEnd tree settings arguments state.recorded = line
    at h hsession hasked ⊢
  rcases line with ⟨answer, before⟩
  cases answer with
  | error =>
      refine ⟨?_, hasked⟩
      simp only [RunState.mapBuilder] at hsession ⊢
      rw [hsession]
      rfl
  | ok batch =>
      obtain ⟨hkeeps, honly⟩ := runBatch_rejected hasked h hreject
      refine ⟨?_, honly⟩
      simp only [RunState.mapBuilder] at hsession hkeeps ⊢
      rw [hkeeps, hsession]
      rfl

/-- A run fails for its command line if a flag is wrong or the front end rejects the rest, else for
errors of no unit if the front end counts some, else for a unit if one has errors when it is
checked.  Whichever it is, the run has no effect. -/
theorem run_rejection (frontEnd : FrontEnd φ) (builder : Builder β) (tree : FileTree)
    (settings : RunSettings) (arguments : List String) (state : RunState φ β) :
    let after := (run frontEnd builder tree settings arguments state).value
    (∀ e, after.1 = .error (.config e) ↔
      RejectsArguments frontEnd settings arguments state e) ∧
    (∀ count, after.1 = .error (.globalErrors count) ↔
      ∃ batch before,
        commandLine frontEnd tree settings arguments state = (.ok batch, before) ∧
          0 < count ∧ count = frontEnd.globalErrors before.front) ∧
    ((∃ e, after.1 = .error (.diagnostics e)) ↔
      ∃ batch before,
        commandLine frontEnd tree settings arguments state = (.ok batch, before) ∧
          frontEnd.globalErrors before.front = 0 ∧
          ∃ unit ∈ checkedUnits frontEnd builder batch before, unit.isBroken = true) ∧
    ∀ e, after.1 = .error e → e.isRejection = true →
      { after.2.session with verbosity := state.session.verbosity } = state.session ∧
        ∀ call ∈ builderCalls frontEnd builder tree settings arguments state,
          call.isQuery = true :=
  ⟨fun _ => run_config_iff, fun _ => run_globalErrors_iff, run_diagnostics_iff,
    fun _ h hreject => run_rejected_keeps h hreject⟩

end Running

/-- A run whose second flag is wrong is rejected for it, whatever the first one was. -/
theorem run_rejection_flag :
    let state : RunState SourceFrontEnd TreeBuilder := { front := {}, builder := {} }
    let arguments := ["--verbose=2", "--verbose=x", "A.java"]
    let after := (run (sourceFrontEnd {}) treeBuilder {} {} arguments state).value
    let e := ConfigError.invalidVerbosity "--verbose=x" "x"
    RejectsArguments (sourceFrontEnd {}) {} arguments state e ∧ after.1 = .error (.config e) ∧
      { after.2.session with verbosity := state.session.verbosity } = state.session ∧
      ∀ call ∈ builderCalls (sourceFrontEnd {}) treeBuilder {} {} arguments state,
        call.isQuery = true := by
  intro state arguments after e
  have hrejects : RejectsArguments (sourceFrontEnd {}) {} arguments state e := .inl rfl
  obtain ⟨hconfig, -, -, hkeeps⟩ :=
    run_rejection (sourceFrontEnd {}) treeBuilder {} {} arguments state
  have hanswer := (hconfig e).2 hrejects
  exact ⟨hrejects, hanswer, hkeeps _ hanswer rfl⟩

end JavaOutline
