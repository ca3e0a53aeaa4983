/-
**What a builder hears during a run.**

A builder may be anything, so what it was told cannot be read off its state.  A builder that keeps a
list of the calls made to it, with the answers, behaves as the builder inside it.  The calls of a run
are those on that list when the run is made with the recording builder, and the run itself is the
same with it as without.

Main definitions:

* `BuilderCall`, `Recorded`, `Builder.recorded` — calls, and the builder that keeps them;
* `Builder.Shows` — a builder that behaves as another, seen through a view of its state;
* `builderCalls` — the calls of a run.

Main results:

* `Builder.recorded_shows` — the recording builder behaves as the builder inside;
* `run_view` — a run is the same with a builder that behaves as another;
* `run_recorded` — a run is the same with the recording builder.
-/

import JavaOutline.Proofs.Stages

set_option autoImplicit false

namespace JavaOutline

/-! ### Calls -/

/-- Something that a builder is asked or told, with its answer. -/
inductive BuilderCall where
  | beginBatch (answer : Except BuilderError Unit)
  | endBatch (answer : Except BuilderError Unit)
  | isSpecified (file : String) (answer : Option Bool)
  | abort (file : String)
  | node (event : NodeEvent) (answer : Except BuilderError Unit)

/-- Whether a call only asks about a file. -/
def BuilderCall.isQuery : BuilderCall → Bool
  | .isSpecified _ _ => true
  | _ => false

/-- A builder's state with the calls that were made, the earliest first. -/
structure Recorded (β : Type) where
  inner : β
  calls : List BuilderCall := []

/-- The builder that keeps a list of the calls made to it. -/
def Builder.recorded {β : Type} (builder : Builder β) : Builder (Recorded β) where
  beginBatch state :=
    let (answer, next) := builder.beginBatch state.inner
    (answer, { inner := next, calls := state.calls ++ [.beginBatch answer] })
  endBatch state :=
    let (answer, next) := builder.endBatch state.inner
    (answer, { inner := next, calls := state.calls ++ [.endBatch answer] })
  isSpecified file state :=
    let (answer, next) := builder.isSpecified file state.inner
    (answer, { inner := next, calls := state.calls ++ [.isSpecified file answer] })
  abort file state :=
    { inner := builder.abort file state.inner, calls := state.calls ++ [.abort file] }
  node event state :=
    let (answer, next) := builder.node event state.inner
    (answer, { inner := next, calls := state.calls ++ [.node event answer] })

/-- The calls behind a node are those before it and the node with its answer. -/
theorem Builder.recorded_node {β : Type} (builder : Builder β) (event : NodeEvent)
    (state : Recorded β) :
    builder.recorded.node event state =
      ((builder.node event state.inner).1,
        { inner := (builder.node event state.inner).2
          calls := state.calls ++ [.node event (builder.node event state.inner).1] }) := rfl

/-! ### Builders that behave alike -/

/-- A builder behaves as another, seen through a view of its state. -/
structure Builder.Shows {γ β : Type} (outer : Builder γ) (inner : Builder β) (view : γ → β) :
    Prop where
  beginBatch : ∀ state, inner.beginBatch (view state) =
    ((outer.beginBatch state).1, view (outer.beginBatch state).2)
  endBatch : ∀ state, inner.endBatch (view state) =
    ((outer.endBatch state).1, view (outer.endBatch state).2)
  isSpecified : ∀ file state, inner.isSpecified file (view state) =
    ((outer.isSpecified file state).1, view (outer.isSpecified file state).2)
  abort : ∀ file state, inner.abort file (view state) = view (outer.abort file state)
  node : ∀ event state, inner.node event (view state) =
    ((outer.node event state).1, view (outer.node event state).2)

/-- The recording builder behaves as the builder inside. -/
theorem Builder.recorded_shows {β : Type} (builder : Builder β) :
    builder.recorded.Shows builder Recorded.inner where
  beginBatch _ := rfl
  endBatch _ := rfl
  isSpecified _ _ := rfl
  abort _ _ := rfl
  node _ _ := rfl

section Visiting

variable {φ σ τ : Type} {frontEnd : FrontEnd φ} {session : Session} {view : τ → σ}
  {ask : String → σ → Bool × σ} {askOuter : String → τ → Bool × τ}

/-- The selection, with a view of the state of whoever is asked. -/
def Selection.mapAsked (view : τ → σ) (found : Selection φ τ) : Selection φ σ :=
  { answer := found.answer, slots := found.slots, front := found.front, asked := view found.asked }

/-- The visit, with a view of the state of whoever is asked. -/
def Visit.mapAsked (view : τ → σ) (visit : Visit φ τ) : Visit φ σ :=
  { unit := visit.unit, isSelected := visit.isSelected, front := visit.front
    asked := view visit.asked }

theorem visitUnit_view
    (hask : ∀ file state, ask file (view state) =
      ((askOuter file state).1, view (askOuter file state).2))
    (index : Nat) (seen : List String) (unit : CompilationUnit) (front : φ) (asked : τ) :
    (visitUnit frontEnd session ask index seen unit front (view asked)).value =
      (visitUnit frontEnd session askOuter index seen unit front asked).value.mapAsked view := by
  by_cases hnew : session.isProcessed unit.file = true ∨ unit.file ∈ seen
  · rw [visitUnit_handled hnew, visitUnit_handled hnew]
    rfl
  · obtain ⟨hprocessed, hseen⟩ := not_or.1 hnew
    have hprocessed : session.isProcessed unit.file = false := by simpa using hprocessed
    rcases houter : askOuter unit.file asked with ⟨answer, next⟩
    have hinner : ask unit.file (view asked) = (answer, view next) := by rw [hask, houter]
    cases answer with
    | false =>
        rw [visitUnit_unasked hprocessed hseen houter, visitUnit_unasked hprocessed hseen hinner]
        rfl
    | true =>
        rw [visitUnit_asked hprocessed hseen houter, visitUnit_asked hprocessed hseen hinner]
        rfl

/-- The visit is the same for whoever answers alike. -/
theorem selectFrom_view
    (hask : ∀ file state, ask file (view state) =
      ((askOuter file state).1, view (askOuter file state).2))
    (index : Nat) (seen : List String) (slots : List (Option CompilationUnit)) (front : φ)
    (asked : τ) :
    (selectFrom frontEnd session ask index seen slots front (view asked)).value =
      (selectFrom frontEnd session askOuter index seen slots front asked).value.mapAsked view := by
  induction slots generalizing index seen front asked with
  | nil => rfl
  | cons slot slots ih =>
      cases slot with
      | none => rw [selectFrom_none, selectFrom_none, ih]; rfl
      | some unit =>
          have hinner :
              (visitUnit frontEnd session ask index seen unit front (view asked)).value =
                (visitUnit frontEnd session askOuter index seen unit front asked).value.mapAsked
                  view :=
            visitUnit_view hask index seen unit front asked
          -- Both visits go the way of the outer one, so only that one is taken apart.
          generalize hvisit :
            (visitUnit frontEnd session askOuter index seen unit front asked).value = visit
            at hinner
          cases hbroken : visit.unit.isBroken with
          | true =>
              rw [selectFrom_broken hvisit hbroken, selectFrom_broken hinner hbroken]
              rfl
          | false =>
              cases hselected : visit.isSelected with
              | true =>
                  rw [selectFrom_selected hvisit hbroken hselected,
                    selectFrom_selected hinner hbroken hselected]
                  exact congrArg _ (ih _ _ _ _)
              | false =>
                  rw [selectFrom_passed hvisit hbroken hselected,
                    selectFrom_passed hinner hbroken hselected]
                  exact congrArg _ (ih _ _ _ _)

end Visiting

section Rebuilding

variable {γ β : Type} {outer : Builder γ} {inner : Builder β} {view : γ → β}
  {level : LanguageLevel} {verbosity : Nat}

theorem Builder.Shows.feed (h : outer.Shows inner view) (events : List NodeEvent) (state : γ) :
    inner.feed events (view state) =
      ((outer.feed events state).1, view (outer.feed events state).2) := by
  induction events generalizing state with
  | nil => rfl
  | cons event events ih =>
      simp only [Builder.feed, h.node]
      rcases outer.node event state with ⟨answer, next⟩
      cases answer with
      | ok => exact ih next
      | error => rfl

/-- The workshop, with a view of the builder's state. -/
def Workshop.mapBuilder (view : γ → β) (shop : Workshop γ) : Workshop β where
  builder := view shop.builder
  conflicts := shop.conflicts

theorem rebuildUnit_view (h : outer.Shows inner view) (unit : CompilationUnit)
    (shop : Workshop γ) :
    (rebuildUnit inner level verbosity unit (shop.mapBuilder view)).value =
      ((rebuildUnit outer level verbosity unit shop).value.1,
        (rebuildUnit outer level verbosity unit shop).value.2.1,
        (rebuildUnit outer level verbosity unit shop).value.2.2.mapBuilder view) := by
  cases hready : unit.readyOutline with
  | error e => rw [rebuildUnit_unready hready, rebuildUnit_unready hready]
  | ok outline =>
      have hinner : inner.feed (outline.nodeEvents unit.file level)
          (shop.mapBuilder view).builder = _ :=
        h.feed (outline.nodeEvents unit.file level) shop.builder
      rcases houter : outer.feed (outline.nodeEvents unit.file level) shop.builder
        with ⟨answer, state⟩
      rw [houter] at hinner
      cases answer with
      | ok =>
          rw [rebuildUnit_rebuilt hready houter,
            rebuildUnit_rebuilt hready hinner]
          rfl
      | error e =>
          rw [rebuildUnit_failed hready houter,
            rebuildUnit_failed hready hinner, h.abort]
          rfl

theorem rebuildFrom_view (h : outer.Shows inner view) (units : List CompilationUnit)
    (report : RebuildReport) (shop : Workshop γ) :
    (rebuildFrom inner level verbosity units report (shop.mapBuilder view)).value =
      ((rebuildFrom outer level verbosity units report shop).value.1,
        (rebuildFrom outer level verbosity units report shop).value.2.1,
        (rebuildFrom outer level verbosity units report shop).value.2.2.mapBuilder view) := by
  induction units generalizing report shop with
  | nil => rfl
  | cons unit units ih =>
      have hinner : (rebuildUnit inner level verbosity unit (shop.mapBuilder view)).value = _ :=
        rebuildUnit_view h unit shop
      rcases houter : (rebuildUnit outer level verbosity unit shop).value with ⟨answer, after, next⟩
      rw [houter] at hinner
      match answer with
      | .ok () =>
          rw [rebuildFrom_rebuilt houter, rebuildFrom_rebuilt hinner, ih]
      | .error (.unit e) =>
          rw [rebuildFrom_failed houter, rebuildFrom_failed hinner, ih]
      | .error (.linkage e) =>
          rw [rebuildFrom_linkage houter, rebuildFrom_linkage hinner]

end Rebuilding

section Running

variable {φ γ β : Type} {frontEnd : FrontEnd φ} {outer : Builder γ} {inner : Builder β}
  {view : γ → β}

/-- The state of a run, with a view of the builder's state. -/
def RunState.mapBuilder (view : γ → β) (state : RunState φ γ) : RunState φ β where
  front := state.front
  builder := view state.builder
  session := state.session

theorem askBuilder_view (h : outer.Shows inner view) (batch : Batch) (file : String) (state : γ) :
    askBuilder inner batch file (view state) =
      ((askBuilder outer batch file state).1, view (askBuilder outer batch file state).2) := by
  simp only [askBuilder, h.isSpecified]

theorem visitBatch_view (h : outer.Shows inner view) (batch : Batch) (state : RunState φ γ) :
    visitBatch frontEnd inner batch (state.mapBuilder view) =
      (visitBatch frontEnd outer batch state).mapAsked view :=
  selectFrom_view (askBuilder_view h batch) 0 [] batch.registry.slots state.front state.builder

theorem visitedRegistry_view (h : outer.Shows inner view) (batch : Batch)
    (state : RunState φ γ) :
    visitedRegistry frontEnd inner batch (state.mapBuilder view) =
      visitedRegistry frontEnd outer batch state := by
  rw [visitedRegistry, visitBatch_view h]
  rfl

theorem finishBatch_view (h : outer.Shows inner view) (level : LanguageLevel)
    (files : List String) (report : RebuildReport) (registry : Registry) (state : RunState φ γ) :
    (finishBatch inner level files report registry (state.mapBuilder view)).value =
      ((finishBatch outer level files report registry state).value.1,
        (finishBatch outer level files report registry state).value.2.mapBuilder view) := by
  have hinner : inner.endBatch (state.mapBuilder view).builder = _ := h.endBatch state.builder
  rcases houter : outer.endBatch state.builder with ⟨answer, next⟩
  rw [houter] at hinner
  cases answer with
  | ok =>
      rw [finishBatch_ended houter, finishBatch_ended hinner]
      rfl
  | error e =>
      rw [finishBatch_refused houter, finishBatch_refused hinner]
      rfl

theorem rebuildBatch_view (h : outer.Shows inner view) (level : LanguageLevel)
    (registry : Registry) (selected : List Nat) (state : RunState φ γ) :
    (rebuildBatch inner level registry selected (state.mapBuilder view)).value =
      ((rebuildBatch outer level registry selected state).value.1,
        (rebuildBatch outer level registry selected state).value.2.mapBuilder view) := by
  have hbegin : inner.beginBatch (state.mapBuilder view).builder = _ :=
    h.beginBatch state.builder
  rcases houter : outer.beginBatch state.builder with ⟨answer, next⟩
  rw [houter] at hbegin
  cases answer with
  | error e =>
      rw [rebuildBatch_refused houter,
        rebuildBatch_refused hbegin]
      rfl
  | ok =>
      rcases hrebuild : (rebuildFrom outer level state.session.verbosity
        (registry.selected selected) {}
        { builder := next, conflicts := state.session.conflicts }).value with ⟨found, units, shop⟩
      have hinner : (rebuildFrom inner level (state.mapBuilder view).session.verbosity
          (registry.selected selected) {}
          { builder := view next, conflicts := (state.mapBuilder view).session.conflicts }).value =
            (found, units, shop.mapBuilder view) := by
        simp only [RunState.mapBuilder]
        exact (rebuildFrom_view h _ {} _).trans (by rw [hrebuild])
      cases found with
      | error e =>
          rw [rebuildBatch_linkage houter hrebuild,
            rebuildBatch_linkage hbegin hinner]
          rfl
      | ok report =>
          rw [rebuildBatch_rebuilt houter hrebuild,
            rebuildBatch_rebuilt hbegin hinner,
            ← finishBatch_view h]
          rfl

theorem runBatch_view (h : outer.Shows inner view) (batch : Batch) (state : RunState φ γ) :
    (runBatch frontEnd inner batch (state.mapBuilder view)).value =
      ((runBatch frontEnd outer batch state).value.1,
        (runBatch frontEnd outer batch state).value.2.mapBuilder view) := by
  rcases Nat.eq_zero_or_pos batch.globalErrors with hzero | hpos
  · have hinner : visitBatch frontEnd inner batch (state.mapBuilder view) = _ :=
      visitBatch_view h batch state
    cases hanswer : (visitBatch frontEnd outer batch state).answer with
    | error e =>
        have hanswer' : (visitBatch frontEnd inner batch (state.mapBuilder view)).answer =
            .error e := by rw [hinner]; exact hanswer
        rw [runBatch_diagnostics hzero hanswer, runBatch_diagnostics hzero hanswer', hinner]
        rfl
    | ok selected =>
        have hanswer' : (visitBatch frontEnd inner batch (state.mapBuilder view)).answer =
            .ok selected := by rw [hinner]; exact hanswer
        rw [runBatch_selected hzero hanswer, runBatch_selected hzero hanswer',
          visitedRegistry_view h, hinner, ← rebuildBatch_view h]
        rfl
  · rw [runBatch_globalErrors hpos, runBatch_globalErrors hpos]

theorem commandLine_view (tree : FileTree) (settings : RunSettings) (arguments : List String)
    (state : RunState φ γ) :
    commandLine frontEnd tree settings arguments (state.mapBuilder view) =
      ((commandLine frontEnd tree settings arguments state).1,
        (commandLine frontEnd tree settings arguments state).2.mapBuilder view) := by
  simp only [commandLine, RunState.mapBuilder]
  rcases (state.session.filterArguments settings.flag arguments).value with ⟨filtered, session⟩
  cases filtered <;> rfl

/-- A run is the same with a builder that behaves as another. -/
theorem run_view (h : outer.Shows inner view) (tree : FileTree) (settings : RunSettings)
    (arguments : List String) (state : RunState φ γ) :
    (run frontEnd inner tree settings arguments (state.mapBuilder view)).value =
      ((run frontEnd outer tree settings arguments state).value.1,
        (run frontEnd outer tree settings arguments state).value.2.mapBuilder view) := by
  rw [value_run, value_run, commandLine_view]
  rcases commandLine frontEnd tree settings arguments state with ⟨answer, before⟩
  cases answer with
  | error => rfl
  | ok batch => exact runBatch_view h batch before

/-! ### The calls of a run -/

variable (frontEnd) (builder : Builder β) (tree : FileTree) (settings : RunSettings)
  (arguments : List String) (state : RunState φ β)

/-- The state of a run whose builder has not been called yet. -/
def RunState.recorded (state : RunState φ β) : RunState φ (Recorded β) where
  front := state.front
  builder := { inner := state.builder }
  session := state.session

/-- The calls that a run makes to its builder, in order. -/
def builderCalls : List BuilderCall :=
  (run frontEnd builder.recorded tree settings arguments state.recorded).value.2.builder.calls

/-- A run is the same with the recording builder. -/
theorem run_recorded :
    (run frontEnd builder tree settings arguments state).value =
      ((run frontEnd builder.recorded tree settings arguments state.recorded).value.1,
        (run frontEnd builder.recorded tree settings arguments
          state.recorded).value.2.mapBuilder Recorded.inner) :=
  run_view builder.recorded_shows tree settings arguments state.recorded

end Running

end JavaOutline
