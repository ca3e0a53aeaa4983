/-
**What a session holds after any runs.**

A session changes in three places while a run is made: the conflict index inside the rebuilding of a
unit, the list of handled files behind it, and the mark of failures on several ways out.  Still the
three agree after every run, whatever front end and builder do: a file in the index was handled, and
as long as nothing failed the index holds just the files that were handled.

Main definitions:

* `Session.Extends` — a session that has forgotten nothing;
* `Session.Consistent` — the list of files, the index and the mark agree;
* `sessionOver` — the session after several runs.

Main results:

* `rebuildUnit_records`, `rebuildFrom_records` — what the index holds after units were rebuilt;
* `rebuildBatch_session`, `run_session` — a batch and a run keep a session consistent;
* `sessionOver_consistent` — so do any runs.
-/

import Mathlib.Data.Finset.Card
import JavaOutline.Builder.Scripted
import JavaOutline.Proofs.Emission

set_option autoImplicit false

namespace JavaOutline

/-! ### Sessions -/

namespace Session

/-- A session knows all files of another one, and its mark is raised if the other's is. -/
structure Extends (before after : Session) : Prop where
  processed : ∀ file ∈ before.processed, file ∈ after.processed
  failed : before.failed = true → after.failed = true

theorem Extends.refl (session : Session) : Extends session session := ⟨fun _ h => h, id⟩

theorem Extends.trans {before middle after : Session} (h : Extends before middle)
    (hnext : Extends middle after) : Extends before after where
  processed := fun file hfile => hnext.processed file (h.processed file hfile)
  failed := fun hfailed => hnext.failed (h.failed hfailed)

/-- The list of files, the index and the mark of failures agree. -/
structure Consistent (session : Session) : Prop where
  nodup : session.processed.Nodup
  /-- A file in the index was handled. -/
  handled : ∀ file, session.conflicts.contains file = true → file ∈ session.processed
  /-- Where nothing failed, a file that was handled is in the index. -/
  indexed : session.failed = false → ∀ file ∈ session.processed,
    session.conflicts.contains file = true

theorem consistent_new : Consistent {} where
  nodup := List.nodup_nil
  handled := fun file h => by cases h
  indexed := fun _ file h => by cases h

/-- The mark of failures only weakens what is said of a session. -/
theorem Consistent.fail {session : Session} (h : session.Consistent) : session.fail.Consistent where
  nodup := h.nodup
  handled := h.handled
  indexed := fun hfailed => nomatch hfailed

/-- Verbosity and the number of batches do not count. -/
theorem Consistent.congr {session other : Session} (h : session.Consistent)
    (hprocessed : other.processed = session.processed)
    (hconflicts : other.conflicts = session.conflicts) (hfailed : other.failed = session.failed) :
    other.Consistent where
  nodup := by rw [hprocessed]; exact h.nodup
  handled := by rw [hprocessed, hconflicts]; exact h.handled
  indexed := by rw [hprocessed, hconflicts, hfailed]; exact h.indexed

end Session

/-- A file is in the index once it was recorded, and other files are there as before. -/
theorem ConflictIndex.contains_record (index : ConflictIndex) (file other : String)
    (outline : Outline) :
    (index.record file outline).contains other = true ↔
      other = file ∨ index.contains other = true := by
  unfold ConflictIndex.contains
  rw [ConflictIndex.scope?_record]
  by_cases h : other = file
  · simp [h]
  · simp [h]

/-! ### The index while units are rebuilt -/

section Rebuilding

variable {β : Type} {builder : Builder β} {level : LanguageLevel} {verbosity : Nat}

/-- The file of a unit enters the index exactly if the unit is rebuilt. -/
theorem rebuildUnit_records {unit after : CompilationUnit} {shop next : Workshop β}
    {answer : Except UnitFailure Unit}
    (h : (rebuildUnit builder level verbosity unit shop).value = (answer, after, next)) :
    after.file = unit.file ∧ (answer = .ok () → after.state = .rebuilt) ∧
      ∀ file, next.conflicts.contains file = true ↔
        (answer = .ok () ∧ file = unit.file) ∨ shop.conflicts.contains file = true := by
  cases hready : unit.readyOutline with
  | error e =>
      rw [rebuildUnit_unready hready] at h
      cases h
      simp
  | ok outline =>
      rcases hfeed : builder.feed (outline.nodeEvents unit.file level) shop.builder
        with ⟨told, state⟩
      cases told with
      | error e =>
          rw [rebuildUnit_failed hready hfeed] at h
          cases h
          simp
      | ok =>
          rw [rebuildUnit_rebuilt hready hfeed] at h
          cases h
          refine ⟨rfl, fun _ => rfl, fun file => ?_⟩
          rw [ConflictIndex.contains_record]
          simp

/-- Between two states of the index, files of units that came back as rebuilt were added. -/
structure Records (units after : List CompilationUnit) (before next : ConflictIndex) : Prop where
  files : after.map CompilationUnit.file = units.map CompilationUnit.file
  kept : ∀ file, before.contains file = true → next.contains file = true
  added : ∀ file, next.contains file = true → before.contains file = true ∨
    ∃ unit ∈ after, unit.file = file ∧ unit.state = .rebuilt

/-- Rebuilding units adds files of units to the index; if none fails, it adds all of them. -/
theorem rebuildFrom_records {units after : List CompilationUnit} {report : RebuildReport}
    {shop next : Workshop β} {found : Except LinkageError RebuildReport}
    (h : (rebuildFrom builder level verbosity units report shop).value = (found, after, next)) :
    Records units after shop.conflicts next.conflicts ∧
      ∀ last, found = .ok last → last.failures = [] →
        report.failures = [] ∧ ∀ unit ∈ units, next.conflicts.contains unit.file = true := by
  induction units generalizing after report shop found next with
  | nil =>
      cases h
      refine ⟨⟨rfl, fun _ h => h, fun _ h => .inl h⟩, ?_⟩
      rintro last ⟨⟩ hnone
      exact ⟨hnone, by simp⟩
  | cons unit units ih =>
      rcases hunit : (rebuildUnit builder level verbosity unit shop).value
        with ⟨answer, own, middle⟩
      obtain ⟨hfile, hstate, hindex⟩ := rebuildUnit_records hunit
      -- The unit in front of what the others add.
      have hcons {later : List CompilationUnit} {last : ConflictIndex}
          (hlater : Records units later middle.conflicts last) :
          Records (unit :: units) (own :: later) shop.conflicts last := by
        refine ⟨by simp [hfile, hlater.files], ?_, ?_⟩
        · intro file hold
          exact hlater.kept file ((hindex file).2 (.inr hold))
        · intro file hlast
          rcases hlater.added file hlast with hmiddle | ⟨other, hother, hboth⟩
          · rcases (hindex file).1 hmiddle with ⟨hok, rfl⟩ | hold
            · exact .inr ⟨own, List.mem_cons_self, hfile, hstate hok⟩
            · exact .inl hold
          · exact .inr ⟨other, List.mem_cons_of_mem _ hother, hboth⟩
      match answer with
      | .ok () =>
          rw [rebuildFrom_rebuilt hunit] at h
          cases h
          obtain ⟨hrecords, hall⟩ := ih rfl
          refine ⟨hcons hrecords, fun last hlast hnone => ?_⟩
          obtain ⟨hreport, hunits⟩ := hall last hlast hnone
          refine ⟨hreport, fun other hother => ?_⟩
          rcases List.mem_cons.1 hother with rfl | hother
          · exact hrecords.kept _ ((hindex _).2 (.inl ⟨rfl, rfl⟩))
          · exact hunits other hother
      | .error (.unit e) =>
          rw [rebuildFrom_failed hunit] at h
          cases h
          obtain ⟨hrecords, hall⟩ := ih rfl
          refine ⟨hcons hrecords, fun last hlast hnone => ?_⟩
          have hreport := (hall last hlast hnone).1
          simp at hreport
      | .error (.linkage e) =>
          rw [rebuildFrom_linkage hunit] at h
          cases h
          exact ⟨hcons ⟨rfl, fun _ h => h, fun _ h => .inl h⟩, fun last hlast => nomatch hlast⟩

end Rebuilding

/-! ### The session of a run -/

section Running

variable {φ β : Type}

/-- The session after a missing entry point is consistent: the units that entered the index came
back as rebuilt. -/
theorem Session.Consistent.afterLinkage {session : Session} (h : session.Consistent)
    {registry : Registry} {selected : List Nat} {units : List CompilationUnit}
    {index : ConflictIndex}
    (hrecords : Records (registry.selected selected) units session.conflicts index) :
    ({ session with conflicts := index }.afterLinkage
      (registry.putBack selected units)).Consistent := by
  have hlength : units.length = (registry.selected selected).length := by
    simpa using congrArg List.length hrecords.files
  have hnodup : { session with conflicts := index }.processed.Nodup := h.nodup
  refine ⟨Session.nodup_markAll hnodup _, ?_, fun hfailed => nomatch hfailed⟩
  · intro file hfile
    unfold Session.afterLinkage Session.fail at hfile
    rw [Session.markAll_eq] at hfile
    rcases hrecords.added file hfile with hold | ⟨unit, hunit, rfl, hstate⟩
    · exact (Session.mem_processed_markAll _ _ _).2 (.inr (h.handled file hold))
    · exact Session.mem_processed_afterLinkage hlength hunit hstate

/-- The session after a batch was rebuilt is consistent: all files that were selected count as
handled, and they are in the index unless a unit failed. -/
theorem Session.Consistent.afterRebuild {session : Session} (h : session.Consistent)
    {units after : List CompilationUnit} {index : ConflictIndex} {report : RebuildReport}
    (hrecords : Records units after session.conflicts index)
    (hall : report.failures = [] → ∀ unit ∈ units, index.contains unit.file = true) :
    ({ session with conflicts := index }.afterRebuild (units.map CompilationUnit.file)
      report).Consistent := by
  have hconflicts : ({ session with conflicts := index }.afterRebuild
      (units.map CompilationUnit.file) report).conflicts = index := by
    unfold Session.afterRebuild
    rw [Session.markAll_eq]
    simp only
    split <;> rfl
  refine ⟨?_, ?_, ?_⟩
  · have hnodup : { session with conflicts := index }.processed.Nodup := h.nodup
    unfold Session.afterRebuild
    simp only
    split <;> exact Session.nodup_markAll hnodup _
  · intro file hfile
    rw [hconflicts] at hfile
    refine Session.mem_processed_afterRebuild.2 ?_
    rcases hrecords.added file hfile with hold | ⟨unit, hunit, rfl, -⟩
    · exact .inr (h.handled file hold)
    · rw [← hrecords.files]
      exact .inl (List.mem_map.2 ⟨unit, hunit, rfl⟩)
  · intro hfailed file hfile
    rw [hconflicts]
    -- Without a mark no unit failed, now or before.
    have hnone : report.hasFailures = false := by
      cases hfailures : report.hasFailures with
      | false => rfl
      | true => simp [Session.afterRebuild, hfailures, Session.fail] at hfailed
    have hbefore : session.failed = false := by
      rw [← hfailed]
      simp only [Session.afterRebuild, hnone, Bool.false_eq_true, if_false]
      rw [Session.markAll_eq]
    rcases Session.mem_processed_afterRebuild.1 hfile with hnew | hold
    · obtain ⟨unit, hunit, rfl⟩ := List.mem_map.1 hnew
      exact hall (by simpa [RebuildReport.hasFailures] using hnone) unit hunit
    · exact hrecords.kept file (h.indexed hbefore file hold)

theorem Session.extends_afterLinkage (session : Session) (registry : Registry) :
    session.Extends (session.afterLinkage registry) :=
  ⟨fun _ hfile => (Session.mem_processed_markAll _ _ _).2 (.inr hfile), fun _ => rfl⟩

theorem Session.extends_afterRebuild (session : Session) (files : List String)
    (report : RebuildReport) : session.Extends (session.afterRebuild files report) := by
  refine ⟨fun _ hfile => Session.mem_processed_afterRebuild.2 (.inr hfile), fun hfailed => ?_⟩
  unfold Session.afterRebuild
  rw [Session.markAll_eq]
  simp only
  split
  · rfl
  · exact hfailed

/-- The end of a batch changes at most the mark of failures. -/
theorem finishBatch_session (builder : Builder β) (level : LanguageLevel) (files : List String)
    (report : RebuildReport) (registry : Registry) (state : RunState φ β) :
    let after := (finishBatch builder level files report registry state).value.2.session
    after = state.session ∨ after = state.session.fail := by
  rcases hend : builder.endBatch state.builder with ⟨answer, next⟩
  cases answer with
  | ok =>
      rw [finishBatch_ended hend]
      exact .inl rfl
  | error e =>
      rw [finishBatch_refused hend]
      exact .inr rfl

/-- However a batch goes, the session forgets nothing and stays consistent. -/
theorem rebuildBatch_session (builder : Builder β) (level : LanguageLevel) {registry : Registry}
    {selected : List Nat} (state : RunState φ β) (h : state.session.Consistent)
    (hfiles : filesAt registry selected =
      (registry.selected selected).map CompilationUnit.file) :
    let after := (rebuildBatch builder level registry selected state).value.2.session
    state.session.Extends after ∧ after.Consistent := by
  have hbegun : state.session.beginBatch.Consistent := h.congr rfl rfl rfl
  rcases hbegin : builder.beginBatch state.builder with ⟨answer, next⟩
  cases answer with
  | error e =>
      rw [rebuildBatch_refused hbegin]
      exact ⟨.refl _, h⟩
  | ok =>
      rcases hrebuild : (rebuildFrom builder level state.session.verbosity
        (registry.selected selected) {}
        { builder := next, conflicts := state.session.conflicts }).value with ⟨found, units, shop⟩
      obtain ⟨hrecords, hall⟩ := rebuildFrom_records hrebuild
      cases found with
      | error e =>
          rw [rebuildBatch_linkage hbegin hrebuild]
          obtain ⟨hprocessed, hfailed⟩ :=
            Session.extends_afterLinkage { state.session.beginBatch with conflicts := shop.conflicts }
              (registry.putBack selected units)
          exact ⟨⟨hprocessed, hfailed⟩, hbegun.afterLinkage hrecords⟩
      | ok report =>
          rw [rebuildBatch_rebuilt hbegin hrebuild, hfiles]
          have hrebuilt := hbegun.afterRebuild hrecords fun hnone => (hall report rfl hnone).2
          obtain ⟨hprocessed, hfailed⟩ :=
            Session.extends_afterRebuild { state.session.beginBatch with conflicts := shop.conflicts }
              ((registry.selected selected).map CompilationUnit.file) report
          rcases finishBatch_session builder level
              ((registry.selected selected).map CompilationUnit.file) report
              (registry.putBack selected units)
              { state with
                builder := shop.builder
                session := { state.session.beginBatch with
                  conflicts := shop.conflicts }.afterRebuild
                    ((registry.selected selected).map CompilationUnit.file) report }
            with hsame | hmarked
          · rw [hsame]
            exact ⟨⟨hprocessed, hfailed⟩, hrebuilt⟩
          · rw [hmarked]
            exact ⟨⟨hprocessed, fun _ => rfl⟩, hrebuilt.fail⟩

/-- A run of a batch. -/
theorem runBatch_session (frontEnd : FrontEnd φ) (builder : Builder β) (batch : Batch)
    {before : RunState φ β} (h : before.session.Consistent) :
    let after := (runBatch frontEnd builder batch before).value.2.session
    before.session.Extends after ∧ after.Consistent := by
  rcases Nat.eq_zero_or_pos batch.globalErrors with hzero | hpos
  · cases hvisit : (visitBatch frontEnd builder batch before).answer with
    | error e =>
        rw [runBatch_diagnostics hzero hvisit]
        exact ⟨.refl _, h⟩
    | ok selected =>
        rw [runBatch_selected hzero hvisit]
        refine rebuildBatch_session builder batch.level
          (before.visited (visitBatch frontEnd builder batch before)) h ?_
        rw [filesAt_visitedRegistry hvisit, selected_visitedRegistry hvisit]
  · rw [runBatch_globalErrors hpos]
    exact ⟨.refl _, h⟩

/-- However a run goes, the session forgets nothing and stays consistent. -/
theorem run_session (frontEnd : FrontEnd φ) (builder : Builder β) (tree : FileTree)
    (settings : RunSettings) (arguments : List String) (state : RunState φ β)
    (h : state.session.Consistent) :
    let after := (run frontEnd builder tree settings arguments state).value.2.session
    state.session.Extends after ∧ after.Consistent := by
  obtain ⟨level, hsession, -⟩ := commandLine_state frontEnd tree settings arguments state
  rw [value_run]
  generalize commandLine frontEnd tree settings arguments state = line at hsession ⊢
  rcases line with ⟨answer, before⟩
  simp only at hsession
  -- Reading the command line changes the verbosity only.
  have hline : state.session.Extends before.session := by rw [hsession]; exact ⟨fun _ h => h, id⟩
  have hbefore : before.session.Consistent := by rw [hsession]; exact h.congr rfl rfl rfl
  cases answer with
  | error => exact ⟨hline, hbefore⟩
  | ok batch =>
      obtain ⟨hbatch, hafter⟩ := runBatch_session frontEnd builder batch hbefore
      exact ⟨hline.trans hbatch, hafter⟩

end Running

/-! ### Runs that share a session -/

/-- The session after runs that were made one after another. -/
def sessionOver (calls : List Invocation) (session : Session) : Session :=
  calls.foldl (fun session call => call.sessionAfter session) session

/-- Runs forget nothing and keep a session consistent. -/
theorem sessionOver_extends (calls : List Invocation) {session : Session}
    (h : session.Consistent) :
    session.Extends (sessionOver calls session) ∧ (sessionOver calls session).Consistent := by
  induction calls generalizing session with
  | nil => exact ⟨.refl _, h⟩
  | cons call calls ih =>
      obtain ⟨hrun, hafter⟩ := run_session call.frontEnd call.builder call.tree call.settings
        call.arguments (call.state session) h
      obtain ⟨hlater, hlast⟩ := ih hafter
      exact ⟨hrun.trans hlater, hlast⟩

/-- Over any runs from a new session on, whatever they are given and however they end: the files
that were handled and the mark of failures only grow, the count is that of the different files, a
file in the index was handled, and as long as nothing failed the index holds just the files that
were handled. -/
theorem sessionOver_consistent (calls more : List Invocation) :
    let before := sessionOver calls {}
    let after := sessionOver (calls ++ more) {}
    (∀ file, before.isProcessed file = true → after.isProcessed file = true) ∧
      (before.failed = true → after.failed = true) ∧
      after.processedCount = after.processed.toFinset.card ∧
      (∀ file, after.conflicts.contains file = true → after.isProcessed file = true) ∧
      (after.failed = false → ∀ file, after.conflicts.contains file = after.isProcessed file) := by
  obtain ⟨-, hbefore⟩ := sessionOver_extends calls Session.consistent_new
  obtain ⟨hextends, hafter⟩ := sessionOver_extends more hbefore
  have hsplit : sessionOver more (sessionOver calls {}) = sessionOver (calls ++ more) {} := by
    simp [sessionOver]
  rw [hsplit] at hextends hafter
  simp only [Session.isProcessed, List.contains_iff_mem]
  refine ⟨hextends.processed, hextends.failed, ?_, hafter.handled, ?_⟩
  · exact (List.toFinset_card_of_nodup hafter.nodup).symm
  · intro hfailed file
    rw [Bool.eq_iff_iff, List.contains_iff_mem]
    exact ⟨hafter.handled file, hafter.indexed hfailed file⟩

/-- A run whose builder rejects the types of its file. -/
def rejectingCall : Invocation :=
  let tree : FileTree := { entries := [(["B.java"], .file "class B { }".toUTF8)] }
  { frontEnd := sourceFrontEnd tree, builder := scriptedBuilder treeBuilder, tree, settings := {}
    arguments := ["B.java"], front := {}
    start := { inner := {}, script := { failure := some { entryPoint := "enter_type" } } } }

/-- After a run without failures the index holds the file that was handled; a failure adds a file
that is not in the index, and raises the mark. -/
theorem sessionOver_consistent_rejecting :
    (sessionOver [repeatedCall] {}).failed = false ∧
      (sessionOver [repeatedCall] {}).conflicts.contains "A.java" =
        (sessionOver [repeatedCall] {}).isProcessed "A.java" ∧
      (sessionOver [repeatedCall, rejectingCall] {}).isProcessed "A.java" = true ∧
      (sessionOver [repeatedCall, rejectingCall] {}).processed = ["A.java", "B.java"] ∧
      (sessionOver [repeatedCall, rejectingCall] {}).conflicts.contains "B.java" = false ∧
      (sessionOver [repeatedCall, rejectingCall] {}).failed = true := by
  have hclean : (sessionOver [repeatedCall] {}).failed = false := by decide +kernel
  have hhandled : (sessionOver [repeatedCall] {}).isProcessed "A.java" = true := by decide +kernel
  obtain ⟨-, -, -, -, hindexed⟩ := sessionOver_consistent [repeatedCall] []
  obtain ⟨hgrows, -⟩ := sessionOver_consistent [repeatedCall] [rejectingCall]
  exact ⟨hclean, hindexed hclean "A.java", hgrows "A.java" hhandled, by decide +kernel,
    by decide +kernel, by decide +kernel⟩

end JavaOutline
