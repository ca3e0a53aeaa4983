/-
**What a host can ask after any history of calls.**

A host program starts the tool, runs batches with entry points of its own, and shuts the tool down, in
any order and as often as it likes.  In between it may ask whether something went wrong.  The answer
is read off a mark in the session, which a run sets where a node of a unit or the end of the batch is
not taken, and nothing but a shutdown takes it back.  Whether the beginning of a batch is taken does
not matter for the mark.

Main definitions:

* `BuilderCall.isFailure` — a node or the end of a batch that a builder does not take;
* `HostEntry`, `hostAfter` — calls of the entry points, and what is remembered after them;
* `HostEntry.heard` — what the builder of the host is told by a call;
* `SinceShutdown`, `Started`, `Failed` — what happened since the last shutdown.

Main results:

* `rebuildFrom_failures`, `rebuildBatch_failed`, `run_failed` — **a run sets the mark exactly if its
  builder fails at a node or at the end of the batch**;
* `errorStatus_history` — what the host is told after any history;
* `not_failed_beginBatch` — a host that lacks the entry point for the beginning of a batch is told
  that nothing went wrong.
-/

import Mathlib.Data.List.Induction
import JavaOutline.Host
import JavaOutline.Proofs.CallOrder
import JavaOutline.Proofs.TreeRun

set_option autoImplicit false

namespace JavaOutline

/-! ### Failures -/

/-- Whether a call tells of a node or of the end of a batch and is not taken. -/
def BuilderCall.isFailure : BuilderCall → Bool
  | .node _ (.error _) => true
  | .endBatch (.error _) => true
  | _ => false

/-- Among the calls for a unit one is a failure exactly if the block has an error. -/
theorem UnitBlock.any_isFailure {block : List BuilderCall} {error : Option BuilderError}
    (h : UnitBlock block error) : block.any BuilderCall.isFailure = error.isSome := by
  have htaken (events : List NodeEvent) :
      (takenCalls events).any BuilderCall.isFailure = false := by
    simp [takenCalls, BuilderCall.isFailure]
  cases h with
  | taken => exact htaken _
  | failed => simp [List.any_append, htaken, BuilderCall.isFailure]

theorem OnlyAsked.any_isFailure {β : Type} {state : Recorded β} (h : OnlyAsked state) :
    state.calls.any BuilderCall.isFailure = false := by
  refine List.any_eq_false.2 fun call hcall => ?_
  have hquery := h call hcall
  cases call <;> simp_all [BuilderCall.isQuery, BuilderCall.isFailure]

section Rebuilding

variable {β : Type} {builder : Builder β} {level : LanguageLevel} {verbosity : Nat}

/-- Units that are ready fail exactly where a call for them fails. -/
theorem rebuildFrom_failures {units after : List CompilationUnit}
    (hready : ∀ unit ∈ units, ∃ outline, unit.readyOutline = .ok outline)
    {report : RebuildReport} {shop next : Workshop (Recorded β)}
    {found : Except LinkageError RebuildReport}
    (h : (rebuildFrom builder.recorded level verbosity units report shop).value =
      (found, after, next)) :
    ∃ calls, next.builder.calls = shop.builder.calls ++ calls ∧
      (∀ e, found = .error e → calls.any BuilderCall.isFailure = true) ∧
      ∀ last, found = .ok last →
        last.hasFailures = (report.hasFailures || calls.any BuilderCall.isFailure) := by
  induction units generalizing after report shop found next with
  | nil =>
      cases h
      refine ⟨[], by simp, nofun, ?_⟩
      rintro _ ⟨⟩
      simp
  | cons unit units ih =>
      obtain ⟨⟨outline, hunit⟩, hunits⟩ := List.forall_mem_cons.1 hready
      rcases hvalue : (rebuildUnit builder.recorded level verbosity unit shop).value
        with ⟨answer, own, middle⟩
      -- What the units behind this one add, whatever the report says of it.
      have hlater (report : RebuildReport) :=
        ih hunits (Eq.refl (rebuildFrom builder.recorded level verbosity units report middle).value)
      obtain ⟨block, hown, ⟨rfl, hblock⟩ | ⟨e, rfl, hblock⟩⟩ :=
        rebuildUnit_calls_ready hunit hvalue
      · rw [rebuildFrom_rebuilt hvalue] at h
        cases h
        obtain ⟨calls, hcalls, hbroken, hended⟩ := hlater _
        refine ⟨block ++ calls, by rw [hcalls, hown, List.append_assoc], ?_, ?_⟩
        · simpa [hblock.any_isFailure] using hbroken
        · intro last hlast
          rw [hended last hlast]
          simp [RebuildReport.hasFailures, hblock.any_isFailure]
      · cases e with
        | rejected node message =>
            rw [rebuildFrom_failed hvalue] at h
            cases h
            obtain ⟨calls, hcalls, -, hended⟩ := hlater _
            refine ⟨block ++ calls, by rw [hcalls, hown, List.append_assoc], ?_, ?_⟩
            · simp [hblock.any_isFailure]
            · intro last hlast
              rw [hended last hlast]
              simp [RebuildReport.hasFailures, hblock.any_isFailure]
        | linkage entryPoint =>
            rw [rebuildFrom_linkage hvalue] at h
            cases h
            exact ⟨block, hown, fun _ _ => hblock.any_isFailure, nofun⟩

end Rebuilding

/-! ### The mark of a session -/

section Running

variable {β : Type}

/-- Noting what was rebuilt sets the mark exactly if a unit failed. -/
theorem Session.failed_afterRebuild (session : Session) (files : List String)
    (report : RebuildReport) :
    (session.afterRebuild files report).failed = (session.failed || report.hasFailures) := by
  unfold Session.afterRebuild
  cases hfailures : report.hasFailures with
  | true => simp [Session.fail]
  | false => simp [Session.failed_markAll]

/-- Rebuilding a batch sets the mark exactly if the builder fails at a node or at the end of the
batch. -/
theorem rebuildBatch_failed {φ : Type} (builder : Builder β) (level : LanguageLevel)
    {registry : Registry} {selected : List Nat} {state : RunState φ (Recorded β)}
    (hready : ∀ unit ∈ registry.selected selected, ∃ outline, unit.readyOutline = .ok outline)
    (h : OnlyAsked state.builder) :
    let after := (rebuildBatch builder.recorded level registry selected state).value.2
    after.session.failed =
      (state.session.failed || after.builder.calls.any BuilderCall.isFailure) := by
  rcases hbegin : builder.beginBatch state.builder.inner with ⟨answer, inner⟩
  have hrecorded : builder.recorded.beginBatch state.builder =
      (answer, { inner, calls := state.builder.calls ++ [.beginBatch answer] }) := by
    simp [Builder.recorded, hbegin]
  cases answer with
  | error e =>
      rw [rebuildBatch_refused hrecorded]
      simp [List.any_append, h.any_isFailure, BuilderCall.isFailure]
  | ok =>
      rcases hrebuild : (rebuildFrom builder.recorded level state.session.verbosity
        (registry.selected selected) {}
        { builder := { inner, calls := state.builder.calls ++ [.beginBatch (.ok ())] }
          conflicts := state.session.conflicts }).value with ⟨found, units, shop⟩
      obtain ⟨calls, hcalls, hbroken, hended⟩ := rebuildFrom_failures hready hrebuild
      have hany : shop.builder.calls.any BuilderCall.isFailure =
          calls.any BuilderCall.isFailure := by
        simp [hcalls, List.any_append, h.any_isFailure, BuilderCall.isFailure]
      cases found with
      | error e =>
          rw [rebuildBatch_linkage hrecorded hrebuild]
          simp [hany, hbroken e rfl, Session.afterLinkage, Session.fail]
      | ok report =>
          rw [rebuildBatch_rebuilt hrecorded hrebuild]
          rcases hend : builder.endBatch shop.builder.inner with ⟨answer, last⟩
          have hlast : builder.recorded.endBatch shop.builder =
              (answer, { inner := last, calls := shop.builder.calls ++ [.endBatch answer] }) := by
            simp [Builder.recorded, hend]
          have hreport : report.hasFailures = calls.any BuilderCall.isFailure := by
            rw [hended report rfl]
            simp [RebuildReport.hasFailures]
          cases answer with
          | error e =>
              rw [finishBatch_refused hlast]
              simp [List.any_append, BuilderCall.isFailure, Session.fail]
          | ok =>
              rw [finishBatch_ended hlast]
              simp [List.any_append, hany, BuilderCall.isFailure, Session.failed_afterRebuild,
                hreport, Session.beginBatch]

variable (tree : FileTree) (builder : Builder β)

/-- A run of a batch whose builder was not called before. -/
theorem runBatch_failed {batch : Batch} {files added : List String}
    (hholds : Holds files added batch.registry batch.globalErrors)
    {before : RunState SourceFrontEnd (Recorded β)} (h : OnlyAsked before.builder) :
    let after := (runBatch (sourceFrontEnd tree) builder.recorded batch before).value.2
    after.session.failed =
      (before.session.failed || after.builder.calls.any BuilderCall.isFailure) := by
  rcases Nat.eq_zero_or_pos batch.globalErrors with hzero | hpos
  · have hasked : OnlyAsked (visitBatch (sourceFrontEnd tree) builder.recorded batch before).asked :=
      selectFrom_asked (onlyAsked_askBuilder builder batch) 0 [] _ _ h
    cases hvisit : (visitBatch (sourceFrontEnd tree) builder.recorded batch before).answer with
    | error e =>
        rw [runBatch_diagnostics hzero hvisit]
        simp [RunState.visited, hasked.any_isFailure]
    | ok selected =>
        rw [runBatch_selected hzero hvisit]
        refine rebuildBatch_failed builder batch.level ?_ hasked
        rw [selected_visitedRegistry hvisit]
        exact chosenUnits_ready tree builder.recorded hzero hholds before
  · rw [runBatch_globalErrors hpos]
    simp [h.any_isFailure]

/-- **A run sets the mark exactly if its builder fails at a node or at the end of the batch.** -/
theorem run_failed (settings : RunSettings) (arguments : List String)
    (state : RunState SourceFrontEnd β) :
    (run (sourceFrontEnd tree) builder tree settings arguments state).value.2.session.failed =
      (state.session.failed ||
        (builderCalls (sourceFrontEnd tree) builder tree settings arguments state).any
          BuilderCall.isFailure) := by
  obtain ⟨level, hsession, hbuilder⟩ :=
    commandLine_state (sourceFrontEnd tree) tree settings arguments state.recorded
  rw [run_recorded, builderCalls, value_run]
  rcases hline : commandLine (sourceFrontEnd tree) tree settings arguments state.recorded
    with ⟨answer, before⟩
  rw [hline] at hsession hbuilder
  have hasked : OnlyAsked before.builder := by
    rw [hbuilder]
    exact List.forall_mem_nil _
  have hfailed : before.session.failed = state.session.failed := by
    rw [hsession]
    rfl
  cases answer with
  | error e =>
      simp only [RunState.mapBuilder, hfailed, hasked.any_isFailure, Bool.or_false]
  | ok batch =>
      obtain ⟨remaining, -, hcompile⟩ := commandLine_ok hline
      obtain ⟨options, added, -, -, hholds⟩ := compile_holds hcompile
      rw [← hfailed]
      exact runBatch_failed tree builder hholds hasked

end Running

/-! ### Histories -/

/-- A call of an entry point.  Every run comes with entry points of its own and with the files that
are there. -/
inductive HostEntry : Type 1 where
  | start (environment : Environment) (time : String)
  | run {η : Type} (tree : FileTree) (time : String) (count : Int)
      (texts : Option (List HostText)) (table : Option (HostTable η)) (state : η)
  | errorStatus
  | conflictStatus (time : String) (file package name : HostText)
  | shutdown

namespace HostEntry

/-- What is remembered after a call. -/
def after (host : Host) : HostEntry → Host
  | .start environment time => (host.start environment time).2
  | .run tree time count texts table state => (host.run tree time count texts table state).2.2
  | .errorStatus => host
  | .conflictStatus time file package name => (host.conflictStatus time file package name).2
  | .shutdown => host.shutdown.2

/-- What the builder of the host is told by a call.  A run that is refused tells it nothing. -/
def heard (host : Host) : HostEntry → List BuilderCall
  | .run tree _ count texts table state =>
      match hostArguments count texts, table, host.session with
      | .ok arguments, some table, some remembered =>
          builderCalls (sourceFrontEnd tree) (hostBuilder table) tree remembered.settings arguments
            { front := remembered.front, builder := { host := state }
              session := remembered.session }
      | _, _, _ => []
  | _ => []

/-- Whether the tool is started. -/
def isStart : HostEntry → Bool
  | .start _ _ => true
  | _ => false

/-- Whether the tool is shut down. -/
def isShutdown : HostEntry → Bool
  | .shutdown => true
  | _ => false

end HostEntry

/-- What is remembered after calls from a new process on. -/
def hostAfter (entries : List HostEntry) : Host := entries.foldl HostEntry.after {}

/-- Something holds of a call since the last shutdown and of the calls before it. -/
def SinceShutdown (holds : List HostEntry → HostEntry → Prop) (entries : List HostEntry) : Prop :=
  ∃ before entry later, entries = before ++ entry :: later ∧
    (∀ other ∈ later, other.isShutdown = false) ∧ holds before entry

/-- The tool was started since the last shutdown. -/
def Started (entries : List HostEntry) : Prop :=
  SinceShutdown (fun _ entry => entry.isStart = true) entries

/-- Since the last shutdown a run told its builder of a node or of the end of a batch that was not
taken. -/
def Failed (entries : List HostEntry) : Prop :=
  SinceShutdown (fun before entry =>
    (entry.heard (hostAfter before)).any BuilderCall.isFailure = true) entries

theorem not_sinceShutdown_nil (holds : List HostEntry → HostEntry → Prop) :
    ¬ SinceShutdown holds [] := by
  rintro ⟨before, entry, later, hsplit, -⟩
  simp at hsplit

/-- What happened with one more call: the call itself counts, and what happened before counts unless
the call is a shutdown. -/
theorem sinceShutdown_snoc {holds : List HostEntry → HostEntry → Prop}
    (entries : List HostEntry) (entry : HostEntry) :
    SinceShutdown holds (entries ++ [entry]) ↔
      holds entries entry ∨ (entry.isShutdown = false ∧ SinceShutdown holds entries) := by
  constructor
  · rintro ⟨before, found, later, hsplit, hlater, hholds⟩
    rcases List.eq_nil_or_concat later with rfl | ⟨middle, last, rfl⟩
    · obtain ⟨rfl, hlast⟩ := List.append_inj' hsplit rfl
      cases hlast
      exact .inl hholds
    · rw [List.concat_eq_append, ← List.cons_append, ← List.append_assoc] at hsplit
      obtain ⟨rfl, hlast⟩ := List.append_inj' hsplit rfl
      cases hlast
      refine .inr ⟨hlater entry (by simp), before, found, middle, rfl, fun other hother => ?_, hholds⟩
      exact hlater other (by simp [hother])
  · rintro (hholds | ⟨hshutdown, before, found, later, rfl, hlater, hholds⟩)
    · exact ⟨entries, entry, [], rfl, nofun, hholds⟩
    · refine ⟨before, found, later ++ [entry], by simp, fun other hother => ?_, hholds⟩
      rcases List.mem_append.1 hother with hold | hnew
      · exact hlater other hold
      · rw [List.mem_singleton.1 hnew, hshutdown]

/-! ### What one call does -/

namespace Host

/-- The mark of the session, if there is one. -/
def mark (host : Host) : Option Bool := host.session.map fun remembered => remembered.session.failed

theorem errorStatus_mark (host : Host) :
    host.errorStatus = match host.mark with
      | none => -1
      | some failed => if failed then 1 else 0 := by
  unfold errorStatus mark
  cases host.session <;> rfl

theorem mark_print (host : Host) (time : String) (records : List LogRecord) :
    (host.print time records).2.mark = host.mark := by
  unfold print
  split <;> rfl

theorem mark_refuse (host : Host) (time : String) (error : HostError) (status : Int) :
    (host.refuse time error status).2.mark = host.mark :=
  host.mark_print time _

/-- A run that is not refused leaves the mark of its session. -/
theorem mark_runWith {η : Type} (tree : FileTree) (time : String) (arguments : List String)
    (table : HostTable η) (state : η) (remembered : HostSession) (host : Host) :
    (host.runWith tree time arguments table state remembered).2.2.mark =
      some (remembered.session.failed ||
        (builderCalls (sourceFrontEnd tree) (hostBuilder table) tree remembered.settings arguments
          { front := remembered.front, builder := { host := state }
            session := remembered.session }).any BuilderCall.isFailure) := by
  have hfailed := run_failed tree (hostBuilder table) remembered.settings arguments
    { front := remembered.front, builder := { host := state }, session := remembered.session }
  refine Eq.trans ?_ (congrArg some hfailed)
  unfold runWith
  simp only
  split
  · exact mark_print ..
  · exact mark_print ..

end Host

namespace HostEntry

/-- **What a call does to the mark**: a shutdown takes it back, a start sets it up, and every other
call adds what its builder was told. -/
theorem mark_after (host : Host) (entry : HostEntry) :
    (entry.after host).mark =
      if entry.isShutdown then none
      else if entry.isStart then some (host.mark.getD false)
      else host.mark.map fun failed =>
        failed || (entry.heard host).any BuilderCall.isFailure := by
  cases entry with
  | start environment time =>
      obtain ⟨terminal, session⟩ := host
      cases terminal <;> cases session <;> rfl
  | run tree time count texts table state =>
      simp only [after, heard, Host.run, isShutdown, isStart, Bool.false_eq_true, if_false]
      cases hostArguments count texts with
      | error e => simp [Host.mark_refuse]
      | ok arguments =>
          cases table with
          | none => simp [Host.mark_refuse]
          | some table =>
              cases hsession : host.session with
              | none => simp [Host.mark_refuse]
              | some remembered =>
                  simp only [Host.mark_runWith]
                  simp [Host.mark, hsession]
  | errorStatus => simp [after, heard, isShutdown, isStart]
  | conflictStatus time file package name =>
      have hmark : (host.conflictStatus time file package name).2.mark = host.mark := by
        unfold Host.conflictStatus
        simp only
        split
        · exact host.mark_refuse ..
        · rfl
        · rfl
      simp [after, heard, isShutdown, isStart, hmark]
  | shutdown => rfl

/-- Only a run tells the builder anything. -/
theorem heard_start_shutdown {entry : HostEntry}
    (h : entry.isStart = true ∨ entry.isShutdown = true) (host : Host) : entry.heard host = [] := by
  cases entry with
  | run => simp [isStart, isShutdown] at h
  | _ => rfl

/-- A call tells the builder nothing while the tool is not started. -/
theorem heard_unstarted {host : Host} (h : host.mark = none) (entry : HostEntry) :
    entry.heard host = [] := by
  have hsession : host.session = none := by simpa [Host.mark] using h
  cases entry with
  | run tree time count texts table state =>
      simp only [heard, hsession]
      cases hostArguments count texts <;> cases table <;> rfl
  | _ => rfl

end HostEntry

/-! ### What a host is told -/

theorem hostAfter_snoc (entries : List HostEntry) (entry : HostEntry) :
    hostAfter (entries ++ [entry]) = entry.after (hostAfter entries) := by
  simp [hostAfter]

/-- The mark after any history: there is none unless the tool was started, and it says whether
something failed. -/
theorem mark_history (entries : List HostEntry) :
    ((hostAfter entries).mark = none ∧ ¬ Started entries ∧ ¬ Failed entries) ∨
      ∃ failed, (hostAfter entries).mark = some failed ∧ Started entries ∧
        (failed = true ↔ Failed entries) := by
  induction entries using List.reverseRecOn with
  | nil => exact .inl ⟨rfl, not_sinceShutdown_nil _, not_sinceShutdown_nil _⟩
  | append_singleton entries entry ih =>
      have hmark := entry.mark_after (hostAfter entries)
      rw [← hostAfter_snoc] at hmark
      unfold Started Failed at ih ⊢
      simp only [sinceShutdown_snoc]
      cases hshutdown : entry.isShutdown with
      | true =>
          have hstart : entry.isStart = false := by
            cases entry <;> first | rfl | cases hshutdown
          have hheard := HostEntry.heard_start_shutdown (.inr hshutdown) (hostAfter entries)
          simp [hmark, hshutdown, hstart, hheard]
      | false =>
          simp only [hshutdown, Bool.false_eq_true, if_false, true_and] at hmark ⊢
          cases hstart : entry.isStart with
          | true =>
              have hheard := HostEntry.heard_start_shutdown (.inl hstart) (hostAfter entries)
              rw [hstart, if_pos rfl] at hmark
              simp only [hheard, List.any_nil, Bool.false_eq_true, false_or]
              rcases ih with ⟨hnone, -, hfailed⟩ | ⟨failed, hsome, -, hfailed⟩
              · exact .inr ⟨false, by simp [hmark, hnone], .inl trivial, by simpa using hfailed⟩
              · exact .inr ⟨failed, by simp [hmark, hsome], .inl trivial, hfailed⟩
          | false =>
              rw [hstart, if_neg Bool.false_ne_true] at hmark
              rcases ih with ⟨hnone, hstarted, hfailed⟩ | ⟨failed, hsome, hstarted, hfailed⟩
              · have hheard := HostEntry.heard_unstarted hnone entry
                simp only [hheard, List.any_nil, Bool.false_eq_true, false_or]
                exact .inl ⟨by simp [hmark, hnone], hstarted, hfailed⟩
              · refine .inr ⟨_, by rw [hmark, hsome]; rfl, .inr hstarted, ?_⟩
                rw [Bool.or_eq_true, hfailed, or_comm]

/-- **What a host is told after any history of calls**: that the tool was not started, or else
whether, since the last shutdown, a run told its builder of a node or of the end of a batch that was
not taken. -/
theorem errorStatus_history (entries : List HostEntry) :
    ((hostAfter entries).errorStatus = -1 ↔ ¬ Started entries) ∧
      (Started entries →
        ((hostAfter entries).errorStatus = 1 ↔ Failed entries) ∧
          ((hostAfter entries).errorStatus = 0 ↔ ¬ Failed entries)) := by
  rw [Host.errorStatus_mark]
  rcases mark_history entries with ⟨hmark, hstarted, -⟩ | ⟨failed, hmark, hstarted, hfailed⟩
  · simp [hmark, hstarted]
  · rw [hmark]
    cases failed <;> simp_all

/-- Whether the beginning of a batch is not taken. -/
def BuilderCall.isRefusal : BuilderCall → Bool
  | .beginBatch (.error _) => true
  | _ => false

/-- A host that lacks the entry point for the beginning of a batch is told that nothing went wrong,
although its run fails for that. -/
theorem not_failed_beginBatch :
    let tree : FileTree := { entries := [(["A.java"], .file "class A \x7b \x7d".toUTF8)] }
    let table := recordingHost { missing := ["begin_batch"] }
    let start : HostEntry := .start [] ""
    let entry : HostEntry :=
      .run tree "" 1 (some [some "A.java".toUTF8.toList]) (some table) ([] : List HostCall)
    (hostAfter [start, entry]).errorStatus = 0 ∧
      ((hostAfter [start]).run tree "" 1 (some [some "A.java".toUTF8.toList]) (some table)
        []).1.status = 1 ∧
      ∃ e, .beginBatch (.error e) ∈ entry.heard (hostAfter [start]) := by
  intro tree table start entry
  have hrefused : (entry.heard (hostAfter [start])).any BuilderCall.isRefusal = true := by
    decide +kernel
  refine ⟨by decide +kernel, by decide +kernel, ?_⟩
  obtain ⟨call, hcall, hrefusal⟩ := List.any_eq_true.1 hrefused
  unfold BuilderCall.isRefusal at hrefusal
  split at hrefusal
  · exact ⟨_, hcall⟩
  · cases hrefusal

end JavaOutline
