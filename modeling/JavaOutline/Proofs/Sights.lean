/-
**What a visit sees.**

A visit passes over units whose file was handled, leaves out units that nobody asks for, and checks the
others.  What it makes of a unit depends on the unit, on the session and on the files that were
selected before, and not on the place of the unit or on the state of the front end.  So a visit is a
function of the units without their places, and whether a run comes to its end and what it gives can be
read off what the visit sees.

Main definitions:

* `sight`, `sights` — what a visit makes of units, and which of them are selected;
* `seenBehind` — the files that were selected by then;
* `batchSights`, `FindsNoErrors` — what a run sees of its batch, and a run that sees no broken unit.

Main results:

* `sights_repeated` — a unit that is repeated is passed over, and the others are seen as before;
* `sights_distinct` — where every file is there once, every unit is seen by itself;
* `checkedFrom_sights`, `chosenFrom_sights`, `selectFrom_sights` — **a visit is what it sees**;
* `runBatch_sights` — when a run comes to its end, and what it gives.
-/

import JavaOutline.Proofs.ParallelBatches
import JavaOutline.Proofs.TreeRun

set_option autoImplicit false

namespace JavaOutline

/-! ### What a visit sees -/

section Visiting

open SourceFrontEnd

variable {session : Session} {wanted : String → Bool} {seen : List String}

/-- What a visit makes of a unit, and whether the unit is selected: neither its place nor the state of
the front end matters. -/
def sight (session : Session) (wanted : String → Bool) (seen : List String)
    (unit : CompilationUnit) : CompilationUnit × Bool :=
  if session.isProcessed unit.file || seen.contains unit.file then
    ({ unit with state := .alreadyProcessed }, false)
  else if wanted unit.file then (check (completeBodies unit), true)
  else ({ unit with state := .skippedTransitive }, false)

/-- The files that were selected when a unit was visited. -/
def seenBehind (session : Session) (wanted : String → Bool) :
    List String → List (Option CompilationUnit) → List String
  | seen, [] => seen
  | seen, none :: slots => seenBehind session wanted seen slots
  | seen, some unit :: slots =>
      seenBehind session wanted
        (if (sight session wanted seen unit).2 then unit.file :: seen else seen) slots

/-- What a visit makes of the units in slots. -/
def sights (session : Session) (wanted : String → Bool) :
    List String → List (Option CompilationUnit) → List (Option (CompilationUnit × Bool))
  | _, [] => []
  | seen, none :: slots => none :: sights session wanted seen slots
  | seen, some unit :: slots =>
      some (sight session wanted seen unit) ::
        sights session wanted
          (if (sight session wanted seen unit).2 then unit.file :: seen else seen) slots

theorem sights_append (seen : List String) (ahead behind : List (Option CompilationUnit)) :
    sights session wanted seen (ahead ++ behind) =
      sights session wanted seen ahead ++
        sights session wanted (seenBehind session wanted seen ahead) behind := by
  induction ahead generalizing seen with
  | nil => rfl
  | cons slot ahead ih =>
      cases slot with
      | none => exact congrArg (none :: ·) (ih seen)
      | some unit => exact congrArg (some _ :: ·) (ih _)

/-- A unit whose file was handled is passed over. -/
theorem sight_handled {unit : CompilationUnit}
    (h : session.isProcessed unit.file = true ∨ unit.file ∈ seen) :
    sight session wanted seen unit = ({ unit with state := .alreadyProcessed }, false) := by
  have hcond : (session.isProcessed unit.file || seen.contains unit.file) = true := by
    simpa using h
  simp only [sight, hcond, if_true]

/-- A unit that is wanted is handled then, if it was not before. -/
theorem sight_wanted {unit : CompilationUnit} (h : wanted unit.file = true) :
    session.isProcessed unit.file = true ∨
      unit.file ∈ (if (sight session wanted seen unit).2 then unit.file :: seen else seen) := by
  by_cases hold : session.isProcessed unit.file = true ∨ unit.file ∈ seen
  · rw [sight_handled hold]
    exact hold
  · have hcond : (session.isProcessed unit.file || seen.contains unit.file) = false := by
      simpa using hold
    simp only [sight, hcond, Bool.false_eq_true, if_false, h, if_true]
    exact .inr List.mem_cons_self

theorem mem_seenBehind {file : String} {slots : List (Option CompilationUnit)}
    (h : file ∈ seen) : file ∈ seenBehind session wanted seen slots := by
  induction slots generalizing seen with
  | nil => exact h
  | cons slot slots ih =>
      cases slot with
      | none => exact ih h
      | some unit =>
          refine ih ?_
          split
          · exact List.mem_cons_of_mem _ h
          · exact h

/-- A file that is wanted counts as handled behind its unit. -/
theorem handled_behind {slots : List (Option CompilationUnit)} {unit : CompilationUnit}
    (hunit : some unit ∈ slots) (hwanted : wanted unit.file = true) :
    session.isProcessed unit.file = true ∨
      unit.file ∈ seenBehind session wanted seen slots := by
  induction slots generalizing seen with
  | nil => cases hunit
  | cons slot slots ih =>
      rcases List.mem_cons.1 hunit with rfl | hlater
      · rw [seenBehind]
        exact (sight_wanted hwanted).imp_right mem_seenBehind
      · cases slot with
        | none => exact ih hlater
        | some first => exact ih hlater

theorem length_sights (seen : List String) (slots : List (Option CompilationUnit)) :
    (sights session wanted seen slots).length = slots.length := by
  induction slots generalizing seen with
  | nil => rfl
  | cons slot slots ih => cases slot <;> simp [sights, ih]

/-- A unit that is repeated is seen and passed over, and the others are seen as before. -/
theorem sights_repeated (session : Session) {ahead : List (Option CompilationUnit)}
    {unit extra : CompilationUnit} (hunit : some unit ∈ ahead) (hfile : unit.file = extra.file)
    (hwanted : wanted extra.file = true) (behind : List (Option CompilationUnit)) :
    ∃ first rest, first.length = ahead.length ∧
      sights session wanted [] (ahead ++ behind) = first ++ rest ∧
      sights session wanted [] (ahead ++ some extra :: behind) =
        first ++ some ({ extra with state := .alreadyProcessed }, false) :: rest := by
  have hhandled : session.isProcessed extra.file = true ∨
      extra.file ∈ seenBehind session wanted [] ahead := by
    rw [← hfile] at hwanted ⊢
    exact handled_behind hunit hwanted
  refine ⟨_, _, length_sights [] ahead, sights_append [] ahead behind, ?_⟩
  rw [sights_append, sights, sight_handled hhandled]
  rfl

/-- Where every file is there once, what a visit makes of a unit does not depend on the others. -/
theorem sights_distinct {slots : List (Option CompilationUnit)}
    (hdistinct : (slots.filterMap (Option.map CompilationUnit.file)).Nodup)
    (hseen : ∀ file ∈ slots.filterMap (Option.map CompilationUnit.file), file ∉ seen) :
    sights session wanted seen slots = slots.map (Option.map (sight session wanted [])) := by
  induction slots generalizing seen with
  | nil => rfl
  | cons slot slots ih =>
      cases slot with
      | none => exact congrArg (none :: ·) (ih hdistinct hseen)
      | some unit =>
          simp only [List.filterMap_cons, Option.map_some, List.nodup_cons,
            List.forall_mem_cons] at hdistinct hseen
          have hfirst : sight session wanted seen unit = sight session wanted [] unit := by
            have hnew : seen.contains unit.file = ([] : List String).contains unit.file := by
              simpa using hseen.1
            rw [sight, sight, hnew]
          rw [sights, hfirst, List.map_cons, ih hdistinct.2]
          · rfl
          · intro file hfile
            split
            · refine List.not_mem_cons_of_ne_of_not_mem ?_ (hseen.2 file hfile)
              rintro rfl
              exact hdistinct.1 hfile
            · exact hseen.2 file hfile

/-! ### Broken units -/

/-- Checking does not mend a unit. -/
theorem isBroken_sight {unit : CompilationUnit} (h : unit.isBroken = true) :
    (sight session wanted seen unit).1.isBroken = true := by
  unfold sight
  split
  · exact h
  · split
    · have hbodies : (completeBodies unit).isBroken = true := by
        unfold completeBodies
        split
        next outline source _ _ =>
          simp only [CompilationUnit.isBroken, CompilationUnit.hasSyntaxError,
            CompilationUnit.hasErrors, Bool.or_eq_true] at h ⊢
          cases (outline.complete source).2 with
          | nil => exact h
          | cons e errors => exact .inl (hasSyntaxError_recordSyntaxErrors _ e errors)
        next => exact h
      generalize completeBodies unit = completed at hbodies
      unfold check
      split
      · exact CompilationUnit.isBroken_recordAll _ hbodies
      · exact hbodies
    · exact h

/-- A visit sees that a unit is broken. -/
theorem exists_broken_sight {slots : List (Option CompilationUnit)} {unit : CompilationUnit}
    (hunit : some unit ∈ slots) (h : unit.isBroken = true) (seen : List String) :
    ∃ view, some view ∈ sights session wanted seen slots ∧ view.1.isBroken = true := by
  induction slots generalizing seen with
  | nil => cases hunit
  | cons slot slots ih =>
      rcases List.mem_cons.1 hunit with rfl | hlater
      · exact ⟨_, List.mem_cons_self, isBroken_sight h⟩
      · cases slot with
        | none =>
            obtain ⟨view, hview, hbroken⟩ := ih hlater seen
            exact ⟨view, List.mem_cons_of_mem _ hview, hbroken⟩
        | some first =>
            obtain ⟨view, hview, hbroken⟩ := ih hlater _
            exact ⟨view, List.mem_cons_of_mem _ hview, hbroken⟩

/-! ### A visit is what it sees -/

variable {σ : Type} {tree : FileTree} {ask : String → σ → Bool × σ}

section

variable (hask : ∀ file asked, (ask file asked).1 = wanted file)

include hask

/-- Where the answers depend on the file only, a visit of a unit is what it sees. -/
theorem visitUnit_sight {index : Nat} {unit : CompilationUnit} {front : SourceFrontEnd} {asked : σ}
    {visit : Visit SourceFrontEnd σ}
    (hvisit : (visitUnit (sourceFrontEnd tree) session ask index seen unit front asked).value =
      visit) :
    sight session wanted seen unit.unplaced = (visit.unit.unplaced, visit.isSelected) := by
  have hfile : unit.unplaced.file = unit.file := rfl
  have hnone (hnew : session.isProcessed unit.file = false) (hseen : unit.file ∉ seen) :
      (session.isProcessed unit.file || seen.contains unit.file) = false := by
    simpa [hnew] using hseen
  subst hvisit
  rcases visitUnit_cases (sourceFrontEnd tree) session ask index seen unit front asked with
    ⟨hold, hvalue⟩ | ⟨hnew, hseen, hanswer, hvalue⟩ | ⟨hnew, hseen, hanswer, hvalue⟩
  · rw [← hfile] at hold
    rw [hvalue, sight_handled hold]
    rfl
  · rw [hask] at hanswer
    rw [hvalue]
    simp only [sight, hfile, hnone hnew hseen, hanswer, Bool.false_eq_true, if_false]
    rfl
  · rw [hask] at hanswer
    rw [hvalue]
    simp only [sight, hfile, hnone hnew hseen, hanswer, Bool.false_eq_true, if_false, if_true]
    exact Prod.ext (unplaced_check unit).symm rfl

theorem sights_visit {index : Nat} {unit : CompilationUnit} {front : SourceFrontEnd} {asked : σ}
    {visit : Visit SourceFrontEnd σ}
    (hvisit : (visitUnit (sourceFrontEnd tree) session ask index seen unit front asked).value =
      visit) (slots : List (Option CompilationUnit)) :
    sights session wanted seen ((some unit :: slots).map (Option.map CompilationUnit.unplaced)) =
      some (visit.unit.unplaced, visit.isSelected) ::
        sights session wanted (if visit.isSelected then unit.file :: seen else seen)
          (slots.map (Option.map CompilationUnit.unplaced)) := by
  rw [List.map_cons, Option.map_some, sights, visitUnit_sight hask hvisit]
  rfl

/-- The units as a visit checks them are those that it sees. -/
theorem checkedFrom_sights (index : Nat) (seen : List String)
    (slots : List (Option CompilationUnit)) (front : SourceFrontEnd) (asked : σ) :
    (checkedFrom (sourceFrontEnd tree) session ask index seen slots front asked).map
        CompilationUnit.unplaced =
      ((sights session wanted seen (slots.map (Option.map CompilationUnit.unplaced))).filterMap
        id).map Prod.fst := by
  induction slots generalizing index seen front asked with
  | nil => rfl
  | cons slot slots ih =>
      cases slot with
      | none => exact ih _ _ _ _
      | some unit =>
          rw [checkedFrom]
          generalize hvisit : (visitUnit (sourceFrontEnd tree) session ask index seen unit front
            asked).value = visit
          rw [sights_visit hask hvisit, List.map_cons, ih]
          rfl

/-- The units that a visit chooses are those that it sees and selects. -/
theorem chosenFrom_sights (index : Nat) (seen : List String)
    (slots : List (Option CompilationUnit)) (front : SourceFrontEnd) (asked : σ) :
    (chosenFrom (sourceFrontEnd tree) session ask index seen slots front asked).map
        CompilationUnit.unplaced =
      (((sights session wanted seen (slots.map (Option.map CompilationUnit.unplaced))).filterMap
        id).filter Prod.snd).map Prod.fst := by
  induction slots generalizing index seen front asked with
  | nil => rfl
  | cons slot slots ih =>
      cases slot with
      | none => exact ih _ _ _ _
      | some unit =>
          rw [chosenFrom]
          generalize hvisit : (visitUnit (sourceFrontEnd tree) session ask index seen unit front
            asked).value = visit
          rw [sights_visit hask hvisit]
          cases hselected : visit.isSelected with
          | true => simp [ih]
          | false => simp [ih]

/-- The slots after a visit without errors hold what it sees. -/
theorem selectFrom_sights {index : Nat} {seen : List String}
    {slots : List (Option CompilationUnit)} {front : SourceFrontEnd} {asked : σ}
    {selected : List Nat}
    (h : (selectFrom (sourceFrontEnd tree) session ask index seen slots front
      asked).value.Selects selected) :
    (selectFrom (sourceFrontEnd tree) session ask index seen slots front asked).value.slots.map
        (Option.map CompilationUnit.unplaced) =
      (sights session wanted seen (slots.map (Option.map CompilationUnit.unplaced))).map
        (Option.map Prod.fst) := by
  induction slots generalizing index seen front asked selected with
  | nil => rfl
  | cons slot slots ih =>
      cases slot with
      | none =>
          obtain ⟨rest, hrest, -⟩ := Selection.selects_cons.1 h
          exact congrArg (none :: ·) (ih hrest)
      | some unit =>
          obtain ⟨rest, hslots, hrest, -⟩ := selectFrom_some rfl h
          rw [hslots, sights_visit hask rfl, List.map_cons, ih hrest]
          rfl

end

end Visiting

/-! ### Runs of a batch -/

section Running

open SourceFrontEnd

/-- What a run sees of the units of its batch. -/
def batchSights (session : Session) (batch : Batch) : List (Option (CompilationUnit × Bool)) :=
  sights session batch.isRequested [] batch.registry.unplaced

/-- A run finds no errors in a batch: all sources were read, and no unit that it sees is broken. -/
structure FindsNoErrors (session : Session) (batch : Batch) : Prop where
  read : batch.globalErrors = 0
  sound : ∀ view, some view ∈ batchSights session batch → view.1.isBroken = false

/-- The units that are selected among those that are seen. -/
def selectedViews (views : List (Option (CompilationUnit × Bool))) : List CompilationUnit :=
  ((views.filterMap id).filter Prod.snd).map Prod.fst

variable (tree : FileTree) {batch : Batch} {files added : List String}
  (before : RunState SourceFrontEnd TreeBuilder)

theorem askBuilder_trees (batch : Batch) (file : String) (asked : TreeBuilder) :
    (askBuilder treeBuilder batch file asked).1 = batch.isRequested file := rfl

theorem checkedUnits_sights :
    (checkedUnits (sourceFrontEnd tree) treeBuilder batch before).map CompilationUnit.unplaced =
      ((batchSights before.session batch).filterMap id).map Prod.fst :=
  checkedFrom_sights (askBuilder_trees batch) 0 [] batch.registry.slots before.front before.builder

theorem chosenUnits_sights :
    (chosenUnits (sourceFrontEnd tree) treeBuilder batch before).map CompilationUnit.unplaced =
      selectedViews (batchSights before.session batch) :=
  chosenFrom_sights (askBuilder_trees batch) 0 [] batch.registry.slots before.front before.builder

/-- The visit comes to its end if no unit that it sees is broken. -/
theorem visitBatch_ok_iff :
    (∃ selected, (visitBatch (sourceFrontEnd tree) treeBuilder batch before).answer = .ok selected) ↔
      ∀ view, some view ∈ batchSights before.session batch → view.1.isBroken = false := by
  have hanswer :
      (∃ e, (visitBatch (sourceFrontEnd tree) treeBuilder batch before).answer = .error e) ↔
        ∃ unit ∈ checkedUnits (sourceFrontEnd tree) treeBuilder batch before,
          unit.isBroken = true :=
    selectFrom_answer 0 [] batch.registry.slots before.front before.builder
  have hchecked (view : CompilationUnit × Bool)
      (hview : some view ∈ batchSights before.session batch) :
      ∃ unit ∈ checkedUnits (sourceFrontEnd tree) treeBuilder batch before,
        unit.unplaced = view.1 := by
    refine List.mem_map.1 ?_
    rw [checkedUnits_sights]
    exact List.mem_map.2 ⟨view, List.mem_filterMap.2 ⟨some view, hview, rfl⟩, rfl⟩
  constructor
  · rintro ⟨selected, hselected⟩ view hview
    obtain ⟨unit, hunit, hsame⟩ := hchecked view hview
    rw [← hsame]
    refine Bool.eq_false_iff.2 fun hbroken => ?_
    obtain ⟨e, herror⟩ := hanswer.2 ⟨unit, hunit, hbroken⟩
    rw [hselected] at herror
    cases herror
  · intro hsound
    cases hvisit : (visitBatch (sourceFrontEnd tree) treeBuilder batch before).answer with
    | ok selected => exact ⟨selected, rfl⟩
    | error e =>
        obtain ⟨unit, hunit, hbroken⟩ := hanswer.1 ⟨e, hvisit⟩
        have hmem : unit.unplaced ∈ ((batchSights before.session batch).filterMap id).map
            Prod.fst := by
          rw [← checkedUnits_sights]
          exact List.mem_map.2 ⟨unit, hunit, rfl⟩
        obtain ⟨view, hview, hsame⟩ := List.mem_map.1 hmem
        obtain ⟨slot, hslot, hsome⟩ := List.mem_filterMap.1 hview
        cases hsome
        have hseen : unit.unplaced.isBroken = true := hbroken
        rw [← hsame, hsound view hslot] at hseen
        cases hseen

/-- The trees of units do not depend on the places of the units. -/
theorem trees_unplaced (level : LanguageLevel) (units : List CompilationUnit) :
    (units.map CompilationUnit.unplaced).filterMap (CompilationUnit.tree? level) =
      units.filterMap (CompilationUnit.tree? level) := by
  rw [List.filterMap_map]
  rfl

/-- What a run gives when its visit comes to an end: the units that are selected. -/
theorem runBatch_selects (hholds : Holds files added batch.registry batch.globalErrors)
    (hpending : before.builder.pending = []) (hzero : batch.globalErrors = 0)
    {selected : List Nat}
    (hvisit : (visitBatch (sourceFrontEnd tree) treeBuilder batch before).answer = .ok selected) :
    let views := batchSights before.session batch
    ∃ outcome after,
      (runBatch (sourceFrontEnd tree) treeBuilder batch before).value = (.ok outcome, after) ∧
      outcome.selected = (selectedViews views).map CompilationUnit.file ∧
      outcome.rebuilt = (selectedViews views).map CompilationUnit.file ∧
      after.builder.units = before.builder.units ++
        (selectedViews views).filterMap (CompilationUnit.tree? batch.level) ∧
      (visitedRegistry (sourceFrontEnd tree) treeBuilder batch before).unplaced =
        views.map (Option.map Prod.fst) := by
  intro views
  have hasked := visitBatch_trees tree batch before
  have hready := chosenUnits_ready tree treeBuilder hzero hholds before
  have hchosen : (chosenUnits (sourceFrontEnd tree) treeBuilder batch before).map
      CompilationUnit.unplaced = selectedViews views := chosenUnits_sights tree before
  have hfiles : (selectedViews views).map CompilationUnit.file =
      (chosenUnits (sourceFrontEnd tree) treeBuilder batch before).map CompilationUnit.file := by
    rw [← hchosen, List.map_map]
    rfl
  -- What is rebuilt are the units that the visit chose, and all of them are ready.
  rw [← selected_visitedRegistry hvisit] at hready
  obtain ⟨outcome, after, hvalue, hselected, hrebuilt, -, -, -, hunits⟩ :=
    rebuildBatch_trees batch.level
      (before.visited (visitBatch (sourceFrontEnd tree) treeBuilder batch before)) hready
      (by rw [← hpending, ← hasked]; rfl)
  rw [filesAt_visitedRegistry hvisit] at hselected
  rw [selected_visitedRegistry hvisit] at hrebuilt hunits
  simp only [RunState.visited, hasked] at hunits
  refine ⟨outcome, after, (runBatch_selected hzero hvisit).trans hvalue,
    hselected.trans hfiles.symm, hrebuilt.trans hfiles.symm, ?_,
    selectFrom_sights (askBuilder_trees batch) hvisit⟩
  rw [← hchosen, trees_unplaced, hunits]

/-- A run of a batch comes to its end if it finds no errors, and what it gives then are the units that
are selected. -/
theorem runBatch_sights (hholds : Holds files added batch.registry batch.globalErrors)
    (hpending : before.builder.pending = []) :
    let after := (runBatch (sourceFrontEnd tree) treeBuilder batch before).value
    let views := batchSights before.session batch
    ((∃ outcome, after.1 = .ok outcome) ↔ FindsNoErrors before.session batch) ∧
    ∀ outcome, after.1 = .ok outcome →
      outcome.selected = (selectedViews views).map CompilationUnit.file ∧
      outcome.rebuilt = (selectedViews views).map CompilationUnit.file ∧
      after.2.builder.units = before.builder.units ++
        (selectedViews views).filterMap (CompilationUnit.tree? batch.level) ∧
      (visitedRegistry (sourceFrontEnd tree) treeBuilder batch before).unplaced =
        views.map (Option.map Prod.fst) := by
  rcases Nat.eq_zero_or_pos batch.globalErrors with hzero | hpos
  · cases hvisit : (visitBatch (sourceFrontEnd tree) treeBuilder batch before).answer with
    | error e =>
        rw [runBatch_diagnostics hzero hvisit]
        refine ⟨⟨by rintro ⟨_, ⟨⟩⟩, fun h => ?_⟩, by rintro _ ⟨⟩⟩
        obtain ⟨selected, hselected⟩ := (visitBatch_ok_iff tree before).2 h.sound
        rw [hvisit] at hselected
        cases hselected
    | ok selected =>
        obtain ⟨outcome, after, hvalue, hgives⟩ :=
          runBatch_selects tree before hholds hpending hzero hvisit
        rw [hvalue]
        refine ⟨⟨fun _ => ⟨hzero, (visitBatch_ok_iff tree before).1 ⟨selected, hvisit⟩⟩,
          fun _ => ⟨outcome, rfl⟩⟩, ?_⟩
        rintro _ ⟨⟩
        exact hgives
  · rw [runBatch_globalErrors hpos]
    refine ⟨⟨by rintro ⟨_, ⟨⟩⟩, fun h => ?_⟩, by rintro _ ⟨⟩⟩
    exact absurd h.read (Nat.pos_iff_ne_zero.1 hpos)

end Running

end JavaOutline
