/-
**No file is rebuilt twice.**

A file is emitted when the builder takes the end of its unit.  Whatever builders do, and however runs
end, the files that a run emits are noted in the session when it returns, and the files that were
noted are not selected again.  So over any number of runs that share a session no file is emitted
twice.

Main definitions:

* `emittedFiles` — the files that are emitted by some calls;
* `Emits` — what is emitted between two states of a run;
* `Invocation`, `emittedOver` — runs, and what is emitted over several that share a session.

Main results:

* `emitted_feed_unit` — telling of a unit emits its file, and only if the builder takes all of it;
* `rebuildFrom_emits`, `rebuildBatch_emits`, `run_emits` — what units, a batch and a run emit;
* `emittedOver_once` — over any runs no file is emitted twice, and every one is noted.
-/

import JavaOutline.Builder.Tree
import JavaOutline.Proofs.BuilderCalls
import JavaOutline.Proofs.Selection

set_option autoImplicit false

namespace JavaOutline

/-! ### Events inside a unit -/

/-- Whether an event is the end of a unit. -/
def NodeEvent.endsUnit : NodeEvent → Bool
  | .leaveUnit _ => true
  | _ => false

mutual

theorem Statement.nodeEvents_inside :
    ∀ (statement : Statement), ∀ event ∈ statement.nodeEvents, event.endsUnit = false
  | ⟨kind, label, expressions, children, span⟩, event, h => by
      simp only [Statement.nodeEvents, List.mem_cons, List.mem_append, List.mem_map,
        List.not_mem_nil, or_false] at h
      rcases h with rfl | (⟨e, -, rfl⟩ | hchild) | rfl
      · rfl
      · rfl
      · exact Statement.allNodeEvents_inside children event hchild
      · rfl

theorem Statement.allNodeEvents_inside :
    ∀ (statements : List Statement), ∀ event ∈ Statement.allNodeEvents statements,
      event.endsUnit = false
  | [], event, h => by cases h
  | statement :: statements, event, h => by
      rw [Statement.allNodeEvents] at h
      rcases List.mem_append.1 h with hfirst | hlater
      · exact Statement.nodeEvents_inside statement event hfirst
      · exact Statement.allNodeEvents_inside statements event hlater

end

theorem Body.nodeEvents_inside (body : Body) : ∀ event ∈ body.nodeEvents, event.endsUnit = false := by
  cases body with
  | parsed block => exact Statement.allNodeEvents_inside block.statements
  | absent => intro event h; cases h
  | unparsed span => intro event h; cases h

mutual

theorem TypeDecl.nodeEvents_inside :
    ∀ (decl : TypeDecl), ∀ event ∈ decl.nodeEvents, event.endsUnit = false
  | ⟨kind, name, modifiers, typeParameters, superclass, interfaces, members, span⟩, event, h => by
      simp only [TypeDecl.nodeEvents, List.mem_cons, List.mem_append, List.not_mem_nil,
        or_false] at h
      rcases h with rfl | hmember | rfl
      · rfl
      · exact Member.allNodeEvents_inside members event hmember
      · rfl

theorem Member.allNodeEvents_inside :
    ∀ (members : List Member), ∀ event ∈ Member.allNodeEvents members, event.endsUnit = false
  | [], event, h => by cases h
  | member :: members, event, h => by
      rw [Member.allNodeEvents] at h
      rcases List.mem_append.1 h with hfirst | hlater
      · exact Member.nodeEvents_inside member event hfirst
      · exact Member.allNodeEvents_inside members event hlater

theorem Member.nodeEvents_inside :
    ∀ (member : Member), ∀ event ∈ member.nodeEvents, event.endsUnit = false
  | .field decl, event, h => by
      rw [List.mem_singleton.1 h]
      rfl
  | .method decl, event, h => by
      simp only [Member.nodeEvents, List.mem_cons, List.mem_append, List.not_mem_nil,
        or_false] at h
      rcases h with rfl | hbody | rfl
      · rfl
      · exact decl.body.nodeEvents_inside event hbody
      · rfl
  | .initializer decl, event, h => by
      simp only [Member.nodeEvents, List.mem_cons, List.mem_append, List.not_mem_nil,
        or_false] at h
      rcases h with rfl | hbody | rfl
      · rfl
      · exact decl.body.nodeEvents_inside event hbody
      · rfl
  | .type decl, event, h => TypeDecl.nodeEvents_inside decl event h
  | .enumConstant ⟨name, arguments, none, span⟩, event, h => by
      rw [List.mem_singleton.1 h]
      rfl
  | .enumConstant ⟨name, arguments, some body, span⟩, event, h => by
      rw [Member.nodeEvents] at h
      rcases List.mem_cons.1 h with rfl | hbody
      · rfl
      · exact TypeDecl.nodeEvents_inside body event hbody

end

/-- A unit is told of by events inside it, and then its end. -/
theorem Outline.nodeEvents_split (outline : Outline) (file : String) (level : LanguageLevel) :
    ∃ inside, outline.nodeEvents file level = inside ++ [.leaveUnit file] ∧
      ∀ event ∈ inside, event.endsUnit = false := by
  refine ⟨.enterUnit file outline.packageName level ::
    (outline.package.toList.map .packageClause ++ outline.imports.map .importClause ++
      outline.types.flatMap TypeDecl.nodeEvents), by simp [Outline.nodeEvents], ?_⟩
  intro event h
  simp only [List.mem_cons, List.mem_append, List.mem_map, List.mem_flatMap] at h
  rcases h with rfl | (⟨clause, -, rfl⟩ | ⟨clause, -, rfl⟩) | ⟨decl, -, hdecl⟩
  · rfl
  · rfl
  · rfl
  · exact decl.nodeEvents_inside event hdecl

/-! ### What calls emit -/

/-- The file that a call emits. -/
def BuilderCall.emits? : BuilderCall → Option String
  | .node (.leaveUnit file) (.ok ()) => some file
  | _ => none

/-- The files that are emitted by some calls, in order. -/
def emittedFiles (calls : List BuilderCall) : List String := calls.filterMap BuilderCall.emits?

theorem emittedFiles_concat (calls : List BuilderCall) (call : BuilderCall) :
    emittedFiles (calls ++ [call]) = emittedFiles calls ++ call.emits?.toList := by
  cases h : call.emits? with
  | none => simp [emittedFiles, h]
  | some file => simp [emittedFiles, h]

section Rebuilding

variable {β : Type} {builder : Builder β} {level : LanguageLevel} {verbosity : Nat}

/-- Nothing is emitted before the end of a unit. -/
theorem emitted_feed_inside {events : List NodeEvent}
    (h : ∀ event ∈ events, event.endsUnit = false) (state : Recorded β) :
    emittedFiles (builder.recorded.feed events state).2.calls = emittedFiles state.calls := by
  induction events generalizing state with
  | nil => rfl
  | cons event events ih =>
      have hevent : event.endsUnit = false := h event List.mem_cons_self
      have hnode (answer : Except BuilderError Unit) :
          (BuilderCall.node event answer).emits? = none := by
        cases event <;> first | rfl | cases hevent
      have hcalls : emittedFiles (builder.recorded.node event state).2.calls =
          emittedFiles state.calls := by
        rw [Builder.recorded_node, emittedFiles_concat, hnode]
        simp
      rw [Builder.feed]
      rcases hstep : builder.recorded.node event state with ⟨answer, next⟩
      rw [hstep] at hcalls
      cases answer with
      | ok =>
          simp only
          rw [ih (fun other hother => h other (List.mem_cons_of_mem _ hother)), hcalls]
      | error => exact hcalls

/-- Telling of a unit emits its file, and only if the builder takes all of it. -/
theorem emitted_feed_unit (outline : Outline) (file : String) (state : Recorded β) :
    emittedFiles (builder.recorded.feed (outline.nodeEvents file level) state).2.calls =
      emittedFiles state.calls ++
        (if (builder.recorded.feed (outline.nodeEvents file level) state).1.isOk
          then [file] else []) := by
  obtain ⟨inside, hsplit, hinside⟩ := outline.nodeEvents_split file level
  have hcalls : emittedFiles (builder.recorded.feed inside state).2.calls =
      emittedFiles state.calls :=
    emitted_feed_inside hinside state
  rw [hsplit, Builder.feed_append, ← hcalls]
  rcases builder.recorded.feed inside state with ⟨answer, next⟩
  cases answer with
  | error => simp [Except.isOk, Except.toBool]
  | ok =>
      simp only [Builder.feed, Builder.recorded_node]
      obtain ⟨last, hlast⟩ : ∃ last, (builder.node (.leaveUnit file) next.inner).1 = last :=
        ⟨_, rfl⟩
      cases last with
      | error => simp [hlast, emittedFiles_concat, BuilderCall.emits?, Except.isOk, Except.toBool]
      | ok => simp [hlast, emittedFiles_concat, BuilderCall.emits?, Except.isOk, Except.toBool]

/-! ### What rebuilding emits -/

/-- A unit that is rebuilt is emitted; a unit that is not is not. -/
theorem rebuildUnit_emits {unit after : CompilationUnit} {shop next : Workshop (Recorded β)}
    {answer : Except UnitFailure Unit}
    (h : (rebuildUnit builder.recorded level verbosity unit shop).value = (answer, after, next)) :
    after.file = unit.file ∧
      emittedFiles next.builder.calls = emittedFiles shop.builder.calls ++
        (if answer.isOk then [unit.file] else []) ∧
      (answer.isOk = true → after.state = .rebuilt) := by
  cases hready : unit.readyOutline with
  | error e =>
      rw [rebuildUnit_unready hready] at h
      cases h
      simp [Except.isOk, Except.toBool]
  | ok outline =>
      have hcalls : emittedFiles
          (builder.recorded.feed (outline.nodeEvents unit.file level) shop.builder).2.calls = _ :=
        emitted_feed_unit outline unit.file shop.builder
      rcases hfeed : builder.recorded.feed (outline.nodeEvents unit.file level) shop.builder
        with ⟨told, state⟩
      rw [hfeed] at hcalls
      cases told with
      | error e =>
          rw [rebuildUnit_failed hready hfeed] at h
          cases h
          refine ⟨rfl, ?_, fun hok => by cases hok⟩
          have habort : (builder.recorded.abort unit.file state).calls =
              state.calls ++ [.abort unit.file] := rfl
          rw [habort, emittedFiles_concat, hcalls]
          simp [BuilderCall.emits?, Except.isOk, Except.toBool]
      | ok =>
          rw [rebuildUnit_rebuilt hready hfeed] at h
          cases h
          exact ⟨rfl, hcalls, fun _ => rfl⟩

/-- Rebuilding units emits some of their files, in order, and the units of these come back as
rebuilt. -/
theorem rebuildFrom_emits {units after : List CompilationUnit} {report : RebuildReport}
    {shop next : Workshop (Recorded β)} {found : Except LinkageError RebuildReport}
    (h : (rebuildFrom builder.recorded level verbosity units report shop).value =
      (found, after, next)) :
    after.length = units.length ∧
      ∃ files, files.Sublist (units.map CompilationUnit.file) ∧
        emittedFiles next.builder.calls = emittedFiles shop.builder.calls ++ files ∧
        ∀ file ∈ files, ∃ unit ∈ after, unit.file = file ∧ unit.state = .rebuilt := by
  induction units generalizing after report shop with
  | nil =>
      cases h
      exact ⟨rfl, [], List.Sublist.slnil, by simp, by simp⟩
  | cons unit units ih =>
      rcases hunit : (rebuildUnit builder.recorded level verbosity unit shop).value
        with ⟨answer, own, middle⟩
      obtain ⟨hfile, hcalls, hstate⟩ := rebuildUnit_emits hunit
      match answer with
      | .ok () =>
          rw [rebuildFrom_rebuilt hunit] at h
          cases h
          obtain ⟨hlength, files, hsub, hlater, hrebuilt⟩ := ih rfl
          refine ⟨by simp [hlength], unit.file :: files, hsub.cons_cons _, ?_, ?_⟩
          · rw [hlater, hcalls]
            simp [Except.isOk, Except.toBool]
          · intro file hmem
            rcases List.mem_cons.1 hmem with rfl | hmem
            · exact ⟨own, List.mem_cons_self, hfile, hstate rfl⟩
            · obtain ⟨other, hother, hboth⟩ := hrebuilt file hmem
              exact ⟨other, List.mem_cons_of_mem _ hother, hboth⟩
      | .error (.unit e) =>
          rw [rebuildFrom_failed hunit] at h
          cases h
          obtain ⟨hlength, files, hsub, hlater, hrebuilt⟩ := ih rfl
          refine ⟨by simp [hlength], files, hsub.cons _, ?_, ?_⟩
          · rw [hlater, hcalls]
            simp [Except.isOk, Except.toBool]
          · intro file hmem
            obtain ⟨other, hother, hboth⟩ := hrebuilt file hmem
            exact ⟨other, List.mem_cons_of_mem _ hother, hboth⟩
      | .error (.linkage e) =>
          -- A missing entry point ends the batch: the units behind it are not begun.
          rw [rebuildFrom_linkage hunit] at h
          cases h
          refine ⟨rfl, [], List.nil_sublist _, ?_, by simp⟩
          rw [hcalls]
          simp [Except.isOk, Except.toBool]

end Rebuilding

/-! ### What the session notes -/

/-- Marking files adds them and forgets none. -/
theorem Session.mem_processed_markAll (session : Session) (files : List String) (file : String) :
    file ∈ (session.markAll files).processed ↔ file ∈ files ∨ file ∈ session.processed := by
  unfold Session.markAll
  induction files generalizing session with
  | nil => simp
  | cons first files ih =>
      rw [List.foldl_cons, ih, Session.mem_processed_mark, List.mem_cons]
      constructor
      · rintro (h | h | h)
        · exact .inl (.inr h)
        · exact .inl (.inl h)
        · exact .inr h
      · rintro ((h | h) | h)
        · exact .inr (.inl h)
        · exact .inl h
        · exact .inr (.inr h)

/-- Units that are put back into the slots they came from are in the registry again. -/
theorem mem_putBackFrom {ordinals : List Nat} {index : Nat}
    {slots : List (Option CompilationUnit)} {units : List CompilationUnit}
    (hlength : units.length = (pickFrom ordinals index slots).length) {unit : CompilationUnit}
    (h : unit ∈ units) : some unit ∈ Registry.putBackFrom ordinals index slots units := by
  -- There are as many units as slots that take one, so none is left over at the end.
  induction slots generalizing index units with
  | nil =>
      have hnil : units = [] := List.length_eq_zero_iff.1 hlength
      rw [hnil] at h
      cases h
  | cons slot slots ih =>
      rw [pickFrom_cons] at hlength
      cases slot with
      | none =>
          have hlater : units.length = (pickFrom ordinals (index + 1) slots).length := by
            split at hlength <;> simpa using hlength
          exact List.mem_cons_of_mem _ (ih hlater h)
      | some held =>
          rw [Registry.putBackFrom]
          by_cases hindex : index ∈ ordinals
          · rw [if_pos (by simpa using hindex)]
            rw [if_pos hindex] at hlength
            cases units with
            | nil => cases h
            | cons first units =>
                rcases List.mem_cons.1 h with rfl | hmem
                · exact List.mem_cons_self
                · have hlater : units.length = (pickFrom ordinals (index + 1) slots).length := by
                    simpa using hlength
                  exact List.mem_cons_of_mem _ (ih hlater hmem)
          · rw [if_neg (by simpa using hindex)]
            rw [if_neg hindex] at hlength
            exact List.mem_cons_of_mem _ (ih hlength h)

/-- After a missing entry point, the session knows the units that came back as rebuilt. -/
theorem Session.mem_processed_afterLinkage {session : Session} {registry : Registry}
    {ordinals : List Nat} {units : List CompilationUnit}
    (hlength : units.length = (registry.selected ordinals).length) {unit : CompilationUnit}
    (hmem : unit ∈ units) (hstate : unit.state = .rebuilt) :
    unit.file ∈ (session.afterLinkage (registry.putBack ordinals units)).processed := by
  rw [Registry.selected_eq_pickFrom] at hlength
  have hslot : some unit ∈ (registry.putBack ordinals units).slots := mem_putBackFrom hlength hmem
  have hunit : unit ∈ (registry.putBack ordinals units).units :=
    List.mem_filterMap.2 ⟨some unit, hslot, rfl⟩
  refine (Session.mem_processed_markAll _ _ _).2 (.inl ?_)
  exact List.mem_map.2 ⟨unit, List.mem_filter.2 ⟨hunit, by simp [hstate]⟩, rfl⟩

theorem Session.mem_processed_afterRebuild {session : Session} {files : List String}
    {report : RebuildReport} {file : String} :
    file ∈ (session.afterRebuild files report).processed ↔
      file ∈ files ∨ file ∈ session.processed := by
  rw [← Session.mem_processed_markAll]
  unfold Session.afterRebuild
  simp only
  split <;> rfl

/-! ### What a run emits -/

section Running

variable {φ β : Type} {frontEnd : FrontEnd φ} {builder : Builder β}

/-- Between two states of a run files are emitted, and the session notes them. -/
structure Emits (before after : RunState φ (Recorded β)) (files : List String) : Prop where
  calls : emittedFiles after.builder.calls = emittedFiles before.builder.calls ++ files
  noted : ∀ file ∈ files, file ∈ after.session.processed
  kept : ∀ file ∈ before.session.processed, file ∈ after.session.processed

/-- The end of a batch emits nothing. -/
theorem finishBatch_emits (builder : Builder β) (level : LanguageLevel) (files : List String)
    (report : RebuildReport) (registry : Registry) (state : RunState φ (Recorded β)) :
    Emits state (finishBatch builder.recorded level files report registry state).value.2 [] := by
  have hcalls : emittedFiles (builder.recorded.endBatch state.builder).2.calls =
      emittedFiles state.builder.calls := by
    have hend : (builder.recorded.endBatch state.builder).2.calls = state.builder.calls ++
        [.endBatch (builder.endBatch state.builder.inner).1] := rfl
    rw [hend, emittedFiles_concat]
    simp [BuilderCall.emits?]
  rcases hend : builder.recorded.endBatch state.builder with ⟨answer, next⟩
  rw [hend] at hcalls
  cases answer with
  | error =>
      rw [finishBatch_refused hend]
      exact ⟨by simp [hcalls], by simp, fun _ h => h⟩
  | ok =>
      rw [finishBatch_ended hend]
      exact ⟨by simp [hcalls], by simp, fun _ h => h⟩

/-- A batch emits files of its units that were selected, whether or not it comes to its end. -/
theorem rebuildBatch_emits (builder : Builder β) (level : LanguageLevel) {registry : Registry}
    {selected : List Nat} (state : RunState φ (Recorded β))
    (hfiles : ∀ unit ∈ registry.selected selected, unit.file ∈ filesAt registry selected) :
    ∃ files, files.Sublist ((registry.selected selected).map CompilationUnit.file) ∧
      Emits state (rebuildBatch builder.recorded level registry selected state).value.2 files := by
  have hcalls : emittedFiles (builder.recorded.beginBatch state.builder).2.calls =
      emittedFiles state.builder.calls := by
    have hbegin : (builder.recorded.beginBatch state.builder).2.calls = state.builder.calls ++
        [.beginBatch (builder.beginBatch state.builder.inner).1] := rfl
    rw [hbegin, emittedFiles_concat]
    simp [BuilderCall.emits?]
  rcases hbegin : builder.recorded.beginBatch state.builder with ⟨answer, next⟩
  rw [hbegin] at hcalls
  cases answer with
  | error =>
      rw [rebuildBatch_refused hbegin]
      exact ⟨[], List.nil_sublist _, by simp [hcalls], by simp, fun _ h => h⟩
  | ok =>
      rcases hrebuild : (rebuildFrom builder.recorded level state.session.verbosity
        (registry.selected selected) {}
        { builder := next, conflicts := state.session.conflicts }).value with ⟨found, units, shop⟩
      obtain ⟨hlength, files, hsub, hemitted, hrebuilt⟩ := rebuildFrom_emits hrebuild
      rw [hcalls] at hemitted
      refine ⟨files, hsub, ?_⟩
      cases found with
      | error e =>
          -- The batch broke off, and only the units that came back as rebuilt are noted.
          rw [rebuildBatch_linkage hbegin hrebuild]
          refine ⟨hemitted, ?_, ?_⟩
          · intro file hfile
            obtain ⟨unit, hunit, rfl, hstate⟩ := hrebuilt file hfile
            exact Session.mem_processed_afterLinkage hlength hunit hstate
          · intro file hfile
            exact (Session.mem_processed_markAll _ _ _).2 (.inr hfile)
      | ok report =>
          -- The batch came through, and every file that was selected is noted.
          rw [rebuildBatch_rebuilt hbegin hrebuild]
          have hend := finishBatch_emits builder level (filesAt registry selected) report
            (registry.putBack selected units)
            { state with
              builder := shop.builder
              session := { state.session.beginBatch with
                conflicts := shop.conflicts }.afterRebuild (filesAt registry selected) report }
          refine ⟨by rw [hend.calls, hemitted, List.append_nil], ?_, ?_⟩
          · intro file hfile
            obtain ⟨unit, hunit, rfl⟩ := List.mem_map.1 (hsub.subset hfile)
            exact hend.kept _ (Session.mem_processed_afterRebuild.2 (.inl (hfiles unit hunit)))
          · intro file hfile
            exact hend.kept _ (Session.mem_processed_afterRebuild.2 (.inr hfile))

/-- A question about a file emits nothing. -/
theorem emitted_askBuilder (batch : Batch) (file : String) (state : Recorded β) :
    emittedFiles (askBuilder builder.recorded batch file state).2.calls =
      emittedFiles state.calls := by
  have hasked : (askBuilder builder.recorded batch file state).2.calls = state.calls ++
      [.isSpecified file (builder.isSpecified file state.inner).1] := rfl
  rw [hasked, emittedFiles_concat]
  simp [BuilderCall.emits?]

/-- The visit of a batch emits nothing and leaves the session alone. -/
theorem visitBatch_emits (frontEnd : FrontEnd φ) (builder : Builder β) (batch : Batch)
    (before : RunState φ (Recorded β)) :
    Emits before (before.visited (visitBatch frontEnd builder.recorded batch before)) [] := by
  have hcalls : emittedFiles (visitBatch frontEnd builder.recorded batch before).asked.calls =
      emittedFiles before.builder.calls :=
    selectFrom_asked (fun file state h => (emitted_askBuilder batch file state).trans h) 0 [] _ _
      rfl
  exact ⟨by rw [List.append_nil]; exact hcalls, by simp, fun _ h => h⟩

theorem Emits.trans {before middle after : RunState φ (Recorded β)} {first second : List String}
    (h : Emits before middle first) (hnext : Emits middle after second) :
    Emits before after (first ++ second) where
  calls := by rw [hnext.calls, h.calls, List.append_assoc]
  noted := by
    intro file hfile
    rcases List.mem_append.1 hfile with hfirst | hsecond
    · exact hnext.kept file (h.noted file hfirst)
    · exact hnext.noted file hsecond
  kept := fun file hfile => hnext.kept file (h.kept file hfile)

/-- A run of a batch emits files that were not handled before, none of them twice. -/
theorem runBatch_emits (frontEnd : FrontEnd φ) (builder : Builder β) (batch : Batch)
    (before : RunState φ (Recorded β)) :
    ∃ files, Emits before (runBatch frontEnd builder.recorded batch before).value.2 files ∧
      (frontEnd.KeepsFiles → files.Nodup ∧ ∀ file ∈ files, file ∉ before.session.processed) := by
  rcases Nat.eq_zero_or_pos batch.globalErrors with hzero | hpos
  · have hvisited := visitBatch_emits frontEnd builder batch before
    cases hvisit : (visitBatch frontEnd builder.recorded batch before).answer with
    | error e =>
        rw [runBatch_diagnostics hzero hvisit]
        exact ⟨[], hvisited, fun _ => ⟨List.nodup_nil, by simp⟩⟩
    | ok selected =>
        rw [runBatch_selected hzero hvisit]
        have hchosen := selected_visitedRegistry hvisit
        obtain ⟨files, hsub, hemits⟩ := rebuildBatch_emits builder batch.level
          (before.visited (visitBatch frontEnd builder.recorded batch before))
          (fun unit hunit => by
            rw [filesAt_visitedRegistry hvisit]
            exact List.mem_map.2 ⟨unit, hchosen ▸ hunit, rfl⟩)
        refine ⟨files, hvisited.trans hemits, fun hkeeps => ?_⟩
        rw [hchosen] at hsub
        refine ⟨hsub.nodup (chosenFrom_nodup hkeeps _ _ _ _ _), fun file hfile => ?_⟩
        obtain ⟨unit, hunit, rfl⟩ := List.mem_map.1 (hsub.subset hfile)
        exact (chosenFrom_file_new hkeeps hunit).1
  · rw [runBatch_globalErrors hpos]
    exact ⟨[], ⟨by simp, by simp, fun _ h => h⟩, fun _ => ⟨List.nodup_nil, by simp⟩⟩

/-- A run notes the files that it emits and forgets none; if the front end leaves the files of units
alone, these files are new, and none is emitted twice. -/
theorem run_emits (frontEnd : FrontEnd φ) (builder : Builder β) (tree : FileTree)
    (settings : RunSettings) (arguments : List String) (state : RunState φ β) :
    Emits state.recorded
        (run frontEnd builder.recorded tree settings arguments state.recorded).value.2
        (emittedFiles (builderCalls frontEnd builder tree settings arguments state)) ∧
      (frontEnd.KeepsFiles →
        (emittedFiles (builderCalls frontEnd builder tree settings arguments state)).Nodup ∧
        ∀ file ∈ emittedFiles (builderCalls frontEnd builder tree settings arguments state),
          file ∉ state.session.processed) := by
  obtain ⟨level, hsession, hbuilder⟩ :=
    commandLine_state frontEnd tree settings arguments state.recorded
  have hline : Emits state.recorded
      (commandLine frontEnd tree settings arguments state.recorded).2 [] :=
    ⟨by rw [hbuilder, List.append_nil], by simp, fun _ h => by rw [hsession]; exact h⟩
  have hnew : (commandLine frontEnd tree settings arguments state.recorded).2.session.processed =
      state.session.processed := by rw [hsession]; rfl
  unfold builderCalls
  rw [value_run]
  -- Nothing is emitted before the command line is read, so only its answer matters from here on.
  generalize commandLine frontEnd tree settings arguments state.recorded = line at hline hnew ⊢
  rcases line with ⟨answer, before⟩
  cases answer with
  | error =>
      have hnone : emittedFiles before.builder.calls = [] := hline.calls
      simp only [hnone]
      exact ⟨hline, fun _ => ⟨List.nodup_nil, by simp⟩⟩
  | ok batch =>
      obtain ⟨files, hemits, hfiles⟩ := runBatch_emits frontEnd builder batch before
      have hboth := hline.trans hemits
      have hcalls : emittedFiles
          (runBatch frontEnd builder.recorded batch before).value.2.builder.calls = files :=
        hboth.calls
      simp only at hnew
      simp only [hcalls, ← hnew]
      exact ⟨hboth, hfiles⟩

end Running

/-! ### Runs that share a session -/

/-- A call of the tool, with everything it is given but the session. -/
structure Invocation where
  {φ β : Type}
  frontEnd : FrontEnd φ
  builder : Builder β
  tree : FileTree
  settings : RunSettings
  arguments : List String
  /-- The state of the front end at the start. -/
  front : φ
  /-- The state of the builder at the start. -/
  start : β

namespace Invocation

/-- The state in which the run starts in a session. -/
def state (call : Invocation) (session : Session) : RunState call.φ call.β where
  front := call.front
  builder := call.start
  session := session

/-- The session when the run returns. -/
def sessionAfter (call : Invocation) (session : Session) : Session :=
  (run call.frontEnd call.builder call.tree call.settings call.arguments
    (call.state session)).value.2.session

/-- The files that the run emits in a session. -/
def emitted (call : Invocation) (session : Session) : List String :=
  emittedFiles (builderCalls call.frontEnd call.builder call.tree call.settings call.arguments
    (call.state session))

/-- What a run emits is noted when it returns, and what was noted stays. -/
theorem noted (call : Invocation) (session : Session) (file : String)
    (h : file ∈ call.emitted session ∨ file ∈ session.processed) :
    file ∈ (call.sessionAfter session).processed := by
  obtain ⟨hemits, -⟩ := run_emits call.frontEnd call.builder call.tree call.settings
    call.arguments (call.state session)
  unfold sessionAfter
  rw [run_recorded]
  rcases h with hfile | hfile
  · exact hemits.noted file hfile
  · exact hemits.kept file hfile

end Invocation

/-- The files that runs emit one after another, each in the session that the one before left. -/
def emittedOver : List Invocation → Session → List String
  | [], _ => []
  | call :: calls, session => call.emitted session ++ emittedOver calls (call.sessionAfter session)

/-- Runs emit no file that was handled before them. -/
theorem emittedOver_new {calls : List Invocation} (hkeeps : ∀ call ∈ calls, call.frontEnd.KeepsFiles)
    {session : Session} {file : String} (h : file ∈ emittedOver calls session) :
    file ∉ session.processed := by
  induction calls generalizing session with
  | nil => cases h
  | cons call calls ih =>
      have hcall := (run_emits call.frontEnd call.builder call.tree call.settings call.arguments
        (call.state session)).2 (hkeeps call List.mem_cons_self)
      rcases List.mem_append.1 h with hown | hlater
      · exact hcall.2 file hown
      · intro hold
        refine ih (fun other hother => hkeeps other (List.mem_cons_of_mem _ hother)) hlater ?_
        exact call.noted session file (.inr hold)

/-- Over runs that share a session, whatever they are given and however they end, every file that a
run emits is noted when the run returns; and no file is emitted twice, if front ends leave the files
of units alone. -/
theorem emittedOver_once (calls : List Invocation) (session : Session) :
    ((∀ call ∈ calls, call.frontEnd.KeepsFiles) → (emittedOver calls session).Nodup) ∧
      ∀ call ∈ calls, ∀ before : Session, ∀ file ∈ call.emitted before,
        file ∈ (call.sessionAfter before).processed := by
  refine ⟨?_, fun call _ before file hfile => call.noted before file (.inl hfile)⟩
  intro hkeeps
  induction calls generalizing session with
  | nil => exact List.nodup_nil
  | cons call calls ih =>
      have hlater : ∀ other ∈ calls, other.frontEnd.KeepsFiles := fun other hother =>
        hkeeps other (List.mem_cons_of_mem _ hother)
      have hcall := (run_emits call.frontEnd call.builder call.tree call.settings call.arguments
        (call.state session)).2 (hkeeps call List.mem_cons_self)
      refine List.nodup_append.2 ⟨hcall.1, ih _ hlater, ?_⟩
      rintro file hown _ hagain rfl
      exact emittedOver_new hlater hagain (call.noted session file (.inl hown))

/-- A run that is asked for a file. -/
def repeatedCall : Invocation :=
  let tree : FileTree := { entries := [(["A.java"], .file "class A { }".toUTF8)] }
  { frontEnd := sourceFrontEnd tree, builder := treeBuilder, tree, settings := {}
    arguments := ["A.java"], front := {}, start := {} }

/-- Two runs that are asked for the same file emit it once. -/
theorem emittedOver_repeatedCall :
    (∀ call ∈ [repeatedCall, repeatedCall], call.frontEnd.KeepsFiles) ∧
      (emittedOver [repeatedCall, repeatedCall] {}).Nodup ∧
      emittedOver [repeatedCall, repeatedCall] {} = ["A.java"] := by
  have hkeeps : ∀ call ∈ [repeatedCall, repeatedCall], call.frontEnd.KeepsFiles := by
    intro call hcall
    have hcall : call = repeatedCall := by simpa using hcall
    rw [hcall]
    exact sourceFrontEnd_keepsFiles _
  exact ⟨hkeeps, (emittedOver_once _ {}).1 hkeeps, by decide +kernel⟩

end JavaOutline
