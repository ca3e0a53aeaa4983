/-
**The order in which a run calls its builder.**

A builder may answer every call as it likes.  Whatever it answers, a run first only asks about files,
then begins a batch, tells of its units one after another and ends the batch.  What is told about a
unit is nested: every node that is entered is left again.  The first call that fails ends the unit,
and the builder is told to forget it; a missing entry point ends the run.

Main definitions:

* `Balanced`, `TellsUnit` — what may be told inside a unit, and about a whole one;
* `UnitBlock`, `UnitBlocks` — the calls for one unit, and for the units of a batch;
* `RunCalls` — the calls of a run.

Main results:

* `Outline.nodeEvents_tellsUnit` — what is told about an outline is nested;
* `feed_calls`, `rebuildUnit_calls_ready`, `rebuildUnit_calls`, `rebuildFrom_calls` — the calls for
  events, a unit and units;
* `RunCalls.endBatch_iff`, `RunCalls.linkage_last` — when a batch is ended, and what follows a
  missing entry point;
* `builderCalls_order` — the calls of every run are in this order.
-/

import Mathlib.Data.List.Basic
import JavaOutline.Builder.Scripted
import JavaOutline.Proofs.Rejection

set_option autoImplicit false

namespace JavaOutline

/-! ### Balanced events -/

/-- Whether an event tells of a node that has no parts of its own. -/
def NodeEvent.isSingle : NodeEvent → Bool
  | .packageClause _ => true
  | .importClause _ => true
  | .field _ => true
  | .enumConstant _ => true
  | .expression _ => true
  | _ => false

/-- The event that leaves the node inside a unit which an event enters. -/
def NodeEvent.leaving? : NodeEvent → Option NodeEvent
  | .enterType decl => some (.leaveType decl.name)
  | .enterMethod decl => some (.leaveMethod decl.name)
  | .enterInitializer _ => some .leaveInitializer
  | .enterStatement statement => some (.leaveStatement statement.kind)
  | _ => none

/-- Events inside a unit that leave every node they enter, the innermost one first. -/
inductive Balanced : List NodeEvent → Prop where
  | nil : Balanced []
  | single {event : NodeEvent} (h : event.isSingle = true) : Balanced [event]
  | append {front back : List NodeEvent} (hfront : Balanced front) (hback : Balanced back) :
      Balanced (front ++ back)
  | node {enter leave : NodeEvent} {inside : List NodeEvent} (h : enter.leaving? = some leave)
      (hinside : Balanced inside) : Balanced (enter :: (inside ++ [leave]))

/-- All that is told about a unit of a file, from its beginning to its end. -/
def TellsUnit (file : String) (events : List NodeEvent) : Prop :=
  ∃ package level inside,
    Balanced inside ∧ events = .enterUnit file package level :: (inside ++ [.leaveUnit file])

theorem Balanced.map_single {α : Type} {event : α → NodeEvent} (h : ∀ a, (event a).isSingle = true)
    (items : List α) : Balanced (items.map event) := by
  induction items with
  | nil => exact Balanced.nil
  | cons item items ih => exact (Balanced.single (h item)).append ih

mutual

theorem Statement.nodeEvents_balanced : ∀ statement : Statement, Balanced statement.nodeEvents
  | ⟨kind, label, expressions, children, span⟩ => by
      rw [Statement.nodeEvents]
      refine Balanced.node rfl (Balanced.append ?_ (Statement.allNodeEvents_balanced children))
      exact Balanced.map_single (fun _ => rfl) expressions

theorem Statement.allNodeEvents_balanced :
    ∀ statements : List Statement, Balanced (Statement.allNodeEvents statements)
  | [] => Balanced.nil
  | statement :: statements => by
      rw [Statement.allNodeEvents]
      exact (Statement.nodeEvents_balanced statement).append
        (Statement.allNodeEvents_balanced statements)

end

theorem Body.nodeEvents_balanced (body : Body) : Balanced body.nodeEvents := by
  cases body with
  | parsed block => exact Statement.allNodeEvents_balanced block.statements
  | absent => exact Balanced.nil
  | unparsed span => exact Balanced.nil

mutual

theorem TypeDecl.nodeEvents_balanced : ∀ decl : TypeDecl, Balanced decl.nodeEvents
  | ⟨kind, name, modifiers, typeParameters, superclass, interfaces, members, span⟩ => by
      rw [TypeDecl.nodeEvents]
      exact Balanced.node rfl (Member.allNodeEvents_balanced members)

theorem Member.allNodeEvents_balanced :
    ∀ members : List Member, Balanced (Member.allNodeEvents members)
  | [] => Balanced.nil
  | member :: members => by
      rw [Member.allNodeEvents]
      exact (Member.nodeEvents_balanced member).append (Member.allNodeEvents_balanced members)

theorem Member.nodeEvents_balanced : ∀ member : Member, Balanced member.nodeEvents
  | .field decl => Balanced.single rfl
  | .method decl => by
      rw [Member.nodeEvents]
      exact Balanced.node rfl decl.body.nodeEvents_balanced
  | .initializer decl => by
      rw [Member.nodeEvents]
      exact Balanced.node rfl decl.body.nodeEvents_balanced
  | .type decl => TypeDecl.nodeEvents_balanced decl
  | .enumConstant ⟨name, arguments, none, span⟩ => Balanced.single rfl
  | .enumConstant ⟨name, arguments, some body, span⟩ => by
      rw [Member.nodeEvents]
      exact (Balanced.single rfl).append (TypeDecl.nodeEvents_balanced body)

end

/-- What is told about an outline is nested, from the beginning of the unit to its end. -/
theorem Outline.nodeEvents_tellsUnit (outline : Outline) (file : String) (level : LanguageLevel) :
    TellsUnit file (outline.nodeEvents file level) := by
  have htypes (types : List TypeDecl) : Balanced (types.flatMap TypeDecl.nodeEvents) := by
    induction types with
    | nil => exact Balanced.nil
    | cons decl types ih => exact decl.nodeEvents_balanced.append ih
  have hpackage : Balanced (outline.package.toList.map .packageClause) :=
    Balanced.map_single (fun _ => rfl) _
  have himports : Balanced (outline.imports.map .importClause) :=
    Balanced.map_single (fun _ => rfl) _
  exact ⟨outline.packageName, level, _, (hpackage.append himports).append (htypes outline.types),
    rfl⟩

/-! ### Calls -/

/-- The calls for events that a builder takes. -/
def takenCalls (events : List NodeEvent) : List BuilderCall := events.map (.node · (.ok ()))

/-- The calls for one unit, with the error of the call that fails.  Either the builder takes
everything, or the last thing it is told fails and it is told to forget the unit. -/
inductive UnitBlock : List BuilderCall → Option BuilderError → Prop where
  | taken {file : String} {events : List NodeEvent} (h : TellsUnit file events) :
      UnitBlock (takenCalls events) none
  | failed {file : String} {done later : List NodeEvent} {event : NodeEvent} {e : BuilderError}
      (h : TellsUnit file (done ++ event :: later)) :
      UnitBlock (takenCalls done ++ [.node event (.error e), .abort file]) (some e)

/-- Whether an error is a missing entry point. -/
def BuilderError.isLinkage : BuilderError → Bool
  | .linkage _ => true
  | .rejected _ _ => false

/-- The calls for the units of a batch, block by block, and whether an entry point was missing.
That can happen in the last block only. -/
inductive UnitBlocks : List BuilderCall → Bool → Prop where
  | nil : UnitBlocks [] false
  | cons {block calls : List BuilderCall} {error : Option BuilderError} {isBroken : Bool}
      (hblock : UnitBlock block error) (herror : ∀ e ∈ error, e.isLinkage = false)
      (hcalls : UnitBlocks calls isBroken) : UnitBlocks (block ++ calls) isBroken
  | missing {block : List BuilderCall} {e : BuilderError} (hblock : UnitBlock block (some e))
      (herror : e.isLinkage = true) : UnitBlocks block true

/-- The calls of a run: questions about files, then at most one batch, whose end is told unless an
entry point was missing. -/
inductive RunCalls : List BuilderCall → Prop where
  | asked {queries : List BuilderCall} (h : ∀ call ∈ queries, call.isQuery = true) :
      RunCalls queries
  | refused {queries : List BuilderCall} {e : BuilderError}
      (h : ∀ call ∈ queries, call.isQuery = true) :
      RunCalls (queries ++ [.beginBatch (.error e)])
  | ended {queries blocks : List BuilderCall} {answer : Except BuilderError Unit}
      (h : ∀ call ∈ queries, call.isQuery = true) (hblocks : UnitBlocks blocks false) :
      RunCalls (queries ++ .beginBatch (.ok ()) :: (blocks ++ [.endBatch answer]))
  | broken {queries blocks : List BuilderCall} (h : ∀ call ∈ queries, call.isQuery = true)
      (hblocks : UnitBlocks blocks true) :
      RunCalls (queries ++ .beginBatch (.ok ()) :: blocks)

/-! ### What the order says -/

/-- Whether a call is about a node, and fails because an entry point is missing. -/
def BuilderCall.lacksEntry : BuilderCall → Bool
  | .node _ (.error e) => e.isLinkage
  | _ => false

theorem lacksEntry_eq_true {call : BuilderCall} :
    call.lacksEntry = true ↔
      ∃ event entryPoint, call = .node event (.error (.linkage entryPoint)) := by
  constructor
  · intro h
    match call, h with
    | .node event (.error (.linkage entryPoint)), _ => exact ⟨event, entryPoint, rfl⟩
  · rintro ⟨event, entryPoint, rfl⟩
    rfl

/-- Whether a call is about a unit. -/
def BuilderCall.isOfUnit : BuilderCall → Bool
  | .node _ _ => true
  | .abort _ => true
  | _ => false

theorem isOfUnit_of_mem_takenCalls {events : List NodeEvent} {call : BuilderCall}
    (h : call ∈ takenCalls events) : call.isOfUnit = true ∧ call.lacksEntry = false := by
  obtain ⟨event, -, rfl⟩ := List.mem_map.1 h
  exact ⟨rfl, rfl⟩

/-- A block holds calls about a unit, and no entry point is missing but for the error of the
block. -/
theorem UnitBlock.calls {block : List BuilderCall} {error : Option BuilderError}
    (h : UnitBlock block error) : ∀ call ∈ block, call.isOfUnit = true ∧
      (call.lacksEntry = true → ∃ e ∈ error, e.isLinkage = true) := by
  intro call hcall
  cases h with
  | taken =>
      obtain ⟨hunit, hentry⟩ := isOfUnit_of_mem_takenCalls hcall
      exact ⟨hunit, by simp [hentry]⟩
  | @failed file done later event e =>
      simp only [List.mem_append, List.mem_cons, List.not_mem_nil, or_false] at hcall
      rcases hcall with htaken | rfl | rfl
      · obtain ⟨hunit, hentry⟩ := isOfUnit_of_mem_takenCalls htaken
        exact ⟨hunit, by simp [hentry]⟩
      · exact ⟨rfl, fun hentry => ⟨e, rfl, hentry⟩⟩
      · exact ⟨rfl, fun hentry => nomatch hentry⟩

theorem UnitBlocks.isOfUnit {calls : List BuilderCall} {isBroken : Bool}
    (h : UnitBlocks calls isBroken) : ∀ call ∈ calls, call.isOfUnit = true := by
  induction h with
  | nil => simp
  | cons hblock _ _ ih =>
      intro call hcall
      rcases List.mem_append.1 hcall with hown | hlater
      · exact (hblock.calls call hown).1
      · exact ih call hlater
  | missing hblock _ => exact fun call hcall => (hblock.calls call hcall).1

/-- No entry point is missing in blocks that go on to the end; in others one is, and what follows is
that the unit is to be forgotten. -/
theorem UnitBlocks.lacksEntry {calls : List BuilderCall} {isBroken : Bool}
    (h : UnitBlocks calls isBroken) :
    (isBroken = false → ∀ call ∈ calls, call.lacksEntry = false) ∧
      (isBroken = true → ∃ done event e file,
        calls = done ++ [.node event (.error e), .abort file] ∧ e.isLinkage = true ∧
          ∀ call ∈ done, call.lacksEntry = false) := by
  induction h with
  | nil => simp
  | @cons block calls error isBroken hblock herror hcalls ih =>
      have hclean : ∀ call ∈ block, call.lacksEntry = false := by
        intro call hcall
        refine Bool.eq_false_iff.2 fun hentry => ?_
        obtain ⟨e, he, hlinkage⟩ := (hblock.calls call hcall).2 hentry
        rw [herror e he] at hlinkage
        cases hlinkage
      constructor
      · intro hwhole call hcall
        rcases List.mem_append.1 hcall with hown | hlater
        · exact hclean call hown
        · exact ih.1 hwhole call hlater
      · intro hbroken
        obtain ⟨done, event, e, file, rfl, hlinkage, hdone⟩ := ih.2 hbroken
        refine ⟨block ++ done, event, e, file, by simp, hlinkage, ?_⟩
        intro call hcall
        rcases List.mem_append.1 hcall with hown | hlater
        · exact hclean call hown
        · exact hdone call hlater
  | missing hblock herror =>
      refine ⟨nofun, fun _ => ?_⟩
      cases hblock with
      | failed htells =>
          exact ⟨_, _, _, _, rfl, herror, fun call hcall => (isOfUnit_of_mem_takenCalls hcall).2⟩

namespace RunCalls

variable {calls : List BuilderCall}

theorem not_mem_of_queries {queries : List BuilderCall} {call : BuilderCall}
    (h : ∀ other ∈ queries, other.isQuery = true) (hcall : call.isQuery = false) :
    call ∉ queries := by
  intro hmem
  rw [h call hmem] at hcall
  cases hcall

theorem not_mem_of_blocks {blocks : List BuilderCall} {isBroken : Bool} {call : BuilderCall}
    (h : UnitBlocks blocks isBroken) (hcall : call.isOfUnit = false) : call ∉ blocks := by
  intro hmem
  rw [h.isOfUnit call hmem] at hcall
  cases hcall

/-- The end of a batch is told exactly if the batch was begun and no entry point was missing. -/
theorem endBatch_iff (h : RunCalls calls) :
    (∃ answer, .endBatch answer ∈ calls) ↔
      .beginBatch (.ok ()) ∈ calls ∧
        ∀ event entryPoint, .node event (.error (.linkage entryPoint)) ∉ calls := by
  cases h with
  | asked hqueries =>
      have hbegin : .beginBatch (.ok ()) ∉ calls := not_mem_of_queries hqueries rfl
      simp only [hbegin, false_and, iff_false, not_exists]
      exact fun answer => not_mem_of_queries hqueries rfl
  | @refused queries e hqueries =>
      have hbegin : .beginBatch (.ok ()) ∉ queries := not_mem_of_queries hqueries rfl
      simp only [List.mem_append, hbegin, List.mem_singleton, reduceCtorEq,
        BuilderCall.beginBatch.injEq, false_and, or_false, iff_false, not_exists]
      exact fun answer => not_mem_of_queries hqueries rfl
  | @ended queries blocks answer hqueries hblocks =>
      refine ⟨fun _ => ⟨by simp, ?_⟩, fun _ => ⟨answer, by simp⟩⟩
      intro event entryPoint hmem
      have hnot : .node event (.error (.linkage entryPoint)) ∉ queries :=
        not_mem_of_queries hqueries rfl
      simp only [List.mem_append, hnot, List.mem_cons, reduceCtorEq, List.not_mem_nil, or_false,
        false_or] at hmem
      have hclean := hblocks.lacksEntry.1 rfl _ hmem
      cases hclean
  | @broken queries blocks hqueries hblocks =>
      obtain ⟨done, event, e, file, rfl, hlinkage, -⟩ := hblocks.lacksEntry.2 rfl
      constructor
      · rintro ⟨answer, hmem⟩
        rcases List.mem_append.1 hmem with hquery | hlater
        · exact absurd hquery (not_mem_of_queries hqueries rfl)
        · rcases List.mem_cons.1 hlater with hbegin | hunit
          · cases hbegin
          · exact absurd hunit (not_mem_of_blocks hblocks rfl)
      · rintro ⟨-, hnone⟩
        cases e with
        | rejected => cases hlinkage
        | linkage entryPoint => exact absurd (by simp) (hnone event entryPoint)

/-- Behind a call whose entry point is missing there is only the call to forget the unit. -/
theorem linkage_last (h : RunCalls calls) {before after : List BuilderCall} {event : NodeEvent}
    {entryPoint : String}
    (hcalls : calls = before ++ .node event (.error (.linkage entryPoint)) :: after) :
    ∃ file, after = [.abort file] := by
  have hmem : .node event (.error (.linkage entryPoint)) ∈ calls := by simp [hcalls]
  cases h with
  | asked hqueries => exact absurd hmem (not_mem_of_queries hqueries rfl)
  | refused hqueries =>
      rcases List.mem_append.1 hmem with hquery | hlast
      · exact absurd hquery (not_mem_of_queries hqueries rfl)
      · cases List.mem_singleton.1 hlast
  | @ended queries blocks answer hqueries hblocks =>
      have hended : RunCalls (queries ++ .beginBatch (.ok ()) :: (blocks ++ [.endBatch answer])) :=
        .ended hqueries hblocks
      exact absurd hmem ((hended.endBatch_iff.1 ⟨answer, by simp⟩).2 event entryPoint)
  | @broken queries blocks hqueries hblocks =>
      obtain ⟨done, last, e, file, rfl, hlinkage, hdone⟩ := hblocks.lacksEntry.2 rfl
      -- The call is the only one that fails for this, so it is the last but one.
      have hsplit : (queries ++ .beginBatch (.ok ()) :: done) ++
          .node last (.error e) :: [.abort file] =
            before ++ .node event (.error (.linkage entryPoint)) :: after := by
        rw [← hcalls]
        simp
      refine ⟨file, ((List.append_cons_inj_of_notMem ?_ ?_).1 hsplit).2.2.symm⟩
      · intro hfront
        rcases List.mem_append.1 hfront with hquery | hlater
        · exact not_mem_of_queries hqueries rfl hquery
        · rcases List.mem_cons.1 hlater with hbegin | hunit
          · cases hbegin
          · cases hdone _ hunit
      · simp

end RunCalls

section Rebuilding

variable {β : Type} {builder : Builder β} {level : LanguageLevel} {verbosity : Nat}

/-! ### The calls for a unit -/

/-- A builder that is told events hears all of them, or those up to the first that fails. -/
theorem feed_calls {events : List NodeEvent} {state next : Recorded β}
    {answer : Except BuilderError Unit} (h : builder.recorded.feed events state = (answer, next)) :
    (answer = .ok () ∧ next.calls = state.calls ++ takenCalls events) ∨
      ∃ e done event later, answer = .error e ∧ events = done ++ event :: later ∧
        next.calls = state.calls ++ (takenCalls done ++ [.node event (.error e)]) := by
  induction events generalizing state with
  | nil =>
      cases h
      exact .inl ⟨rfl, by simp [takenCalls]⟩
  | cons event events ih =>
      rw [Builder.feed, Builder.recorded_node] at h
      rcases hnode : builder.node event state.inner with ⟨own, inner⟩
      rw [hnode] at h
      cases own with
      | error e =>
          cases h
          exact .inr ⟨e, [], event, events, rfl, rfl, rfl⟩
      | ok =>
          rcases ih h with ⟨hanswer, hcalls⟩ | ⟨e, done, bad, later, hanswer, hevents, hcalls⟩
          · refine .inl ⟨hanswer, ?_⟩
            rw [hcalls]
            simp [takenCalls]
          · refine .inr ⟨e, event :: done, bad, later, hanswer, by rw [hevents]; rfl, ?_⟩
            rw [hcalls]
            simp [takenCalls]

/-- For a unit that is ready there is one block of calls, and the unit fails as the block does. -/
theorem rebuildUnit_calls_ready {unit after : CompilationUnit} {shop next : Workshop (Recorded β)}
    {outline : Outline} {answer : Except UnitFailure Unit}
    (hready : unit.readyOutline = .ok outline)
    (h : (rebuildUnit builder.recorded level verbosity unit shop).value = (answer, after, next)) :
    ∃ block, next.builder.calls = shop.builder.calls ++ block ∧
      ((answer = .ok () ∧ UnitBlock block none) ∨
        ∃ e, answer = .error (e.unitFailure unit.file) ∧ UnitBlock block (some e)) := by
  have htells := outline.nodeEvents_tellsUnit unit.file level
  rcases hfeed : builder.recorded.feed (outline.nodeEvents unit.file level) shop.builder
    with ⟨told, state⟩
  rcases feed_calls hfeed with ⟨rfl, hcalls⟩ | ⟨e, done, event, later, rfl, hevents, hcalls⟩
  · rw [rebuildUnit_rebuilt hready hfeed] at h
    cases h
    exact ⟨_, hcalls, .inl ⟨rfl, .taken htells⟩⟩
  · rw [rebuildUnit_failed hready hfeed] at h
    cases h
    rw [hevents] at htells
    refine ⟨_, ?_, .inr ⟨e, rfl, .failed htells⟩⟩
    have habort : (builder.recorded.abort unit.file state).calls =
        state.calls ++ [.abort unit.file] := rfl
    rw [habort, hcalls]
    simp

/-- A unit that is not ready is not told of; otherwise there is one block of calls, and the unit
fails as the block does. -/
theorem rebuildUnit_calls {unit after : CompilationUnit} {shop next : Workshop (Recorded β)}
    {answer : Except UnitFailure Unit}
    (h : (rebuildUnit builder.recorded level verbosity unit shop).value = (answer, after, next)) :
    (∃ e, answer = .error (.unit e) ∧ next.builder.calls = shop.builder.calls) ∨
      ∃ block, next.builder.calls = shop.builder.calls ++ block ∧
        ((answer = .ok () ∧ UnitBlock block none) ∨
          ∃ e, answer = .error (e.unitFailure unit.file) ∧ UnitBlock block (some e)) := by
  cases hready : unit.readyOutline with
  | error e =>
      rw [rebuildUnit_unready hready] at h
      cases h
      exact .inl ⟨e, rfl, rfl⟩
  | ok outline => exact .inr (rebuildUnit_calls_ready hready h)

/-- Units are told of block by block, until an entry point is missing. -/
theorem rebuildFrom_calls {units after : List CompilationUnit} {report : RebuildReport}
    {shop next : Workshop (Recorded β)} {found : Except LinkageError RebuildReport}
    (h : (rebuildFrom builder.recorded level verbosity units report shop).value =
      (found, after, next)) :
    ∃ calls, next.builder.calls = shop.builder.calls ++ calls ∧ UnitBlocks calls (!found.isOk) := by
  induction units generalizing after report shop found next with
  | nil =>
      cases h
      exact ⟨[], by simp, .nil⟩
  | cons unit units ih =>
      rcases hunit : (rebuildUnit builder.recorded level verbosity unit shop).value
        with ⟨answer, own, middle⟩
      -- What the units behind this one add, whatever the report says of it.
      have hlater (report : RebuildReport) :
          ∃ calls, (rebuildFrom builder.recorded level verbosity units report
              middle).value.2.2.builder.calls = middle.builder.calls ++ calls ∧
            UnitBlocks calls
              (!(rebuildFrom builder.recorded level verbosity units report middle).value.1.isOk) :=
        ih rfl
      rcases rebuildUnit_calls hunit with ⟨e, rfl, hsame⟩ |
        ⟨block, hown, ⟨rfl, hblock⟩ | ⟨e, rfl, hblock⟩⟩
      · rw [rebuildFrom_failed hunit] at h
        cases h
        obtain ⟨calls, hcalls, hblocks⟩ := hlater _
        exact ⟨calls, by rw [hcalls, hsame], hblocks⟩
      · rw [rebuildFrom_rebuilt hunit] at h
        cases h
        obtain ⟨calls, hcalls, hblocks⟩ := hlater _
        exact ⟨block ++ calls, by rw [hcalls, hown, List.append_assoc],
          .cons hblock (by simp) hblocks⟩
      · cases e with
        | rejected node message =>
            rw [rebuildFrom_failed hunit] at h
            cases h
            obtain ⟨calls, hcalls, hblocks⟩ := hlater _
            exact ⟨block ++ calls, by rw [hcalls, hown, List.append_assoc],
              .cons hblock (by simp [BuilderError.isLinkage]) hblocks⟩
        | linkage entryPoint =>
            rw [rebuildFrom_linkage hunit] at h
            cases h
            exact ⟨block, hown, .missing hblock rfl⟩

end Rebuilding

/-! ### The calls of a run -/

section Running

variable {φ β : Type}

/-- A batch that is rebuilt behind questions about files. -/
theorem rebuildBatch_calls (builder : Builder β) (level : LanguageLevel) (registry : Registry)
    (selected : List Nat) {state : RunState φ (Recorded β)} (h : OnlyAsked state.builder) :
    RunCalls
      (rebuildBatch builder.recorded level registry selected state).value.2.builder.calls := by
  rcases hbegin : builder.beginBatch state.builder.inner with ⟨answer, inner⟩
  have hrecorded : builder.recorded.beginBatch state.builder =
      (answer, { inner, calls := state.builder.calls ++ [.beginBatch answer] }) := by
    simp [Builder.recorded, hbegin]
  cases answer with
  | error e =>
      rw [rebuildBatch_refused hrecorded]
      exact .refused h
  | ok =>
      rcases hrebuild : (rebuildFrom builder.recorded level state.session.verbosity
        (registry.selected selected) {}
        { builder := { inner, calls := state.builder.calls ++ [.beginBatch (.ok ())] }
          conflicts := state.session.conflicts }).value with ⟨found, units, shop⟩
      obtain ⟨blocks, hcalls, hblocks⟩ := rebuildFrom_calls hrebuild
      simp only [List.append_assoc, List.singleton_append] at hcalls
      cases found with
      | error e =>
          rw [rebuildBatch_linkage hrecorded hrebuild]
          simp only
          rw [hcalls]
          exact .broken h hblocks
      | ok report =>
          rw [rebuildBatch_rebuilt hrecorded hrebuild]
          -- The last call is the end of the batch, whatever the builder answers.
          rcases hend : builder.endBatch shop.builder.inner with ⟨answer, last⟩
          have hlast : builder.recorded.endBatch shop.builder =
              (answer, { inner := last, calls := shop.builder.calls ++ [.endBatch answer] }) := by
            simp [Builder.recorded, hend]
          have hall : shop.builder.calls ++ [.endBatch answer] = state.builder.calls ++
              .beginBatch (.ok ()) :: (blocks ++ [.endBatch answer]) := by
            rw [hcalls]
            simp
          cases answer with
          | error e =>
              rw [finishBatch_refused hlast]
              simp only
              rw [hall]
              exact .ended h hblocks
          | ok =>
              rw [finishBatch_ended hlast]
              simp only
              rw [hall]
              exact .ended h hblocks

/-- A run of a batch whose builder was not called before. -/
theorem runBatch_calls (frontEnd : FrontEnd φ) (builder : Builder β) (batch : Batch)
    {before : RunState φ (Recorded β)} (h : OnlyAsked before.builder) :
    RunCalls (runBatch frontEnd builder.recorded batch before).value.2.builder.calls := by
  rcases Nat.eq_zero_or_pos batch.globalErrors with hzero | hpos
  · have hasked : OnlyAsked (visitBatch frontEnd builder.recorded batch before).asked :=
      selectFrom_asked (onlyAsked_askBuilder builder batch) 0 [] _ _ h
    cases hvisit : (visitBatch frontEnd builder.recorded batch before).answer with
    | error e =>
        rw [runBatch_diagnostics hzero hvisit]
        exact .asked hasked
    | ok selected =>
        rw [runBatch_selected hzero hvisit]
        exact rebuildBatch_calls builder batch.level _ selected hasked
  · rw [runBatch_globalErrors hpos]
    exact .asked h

/-- However a builder answers, a run calls it in order: it asks about files, and then begins at most
one batch.  If that is taken, the units follow, each told of in full, or up to the call that fails
and then forgotten.  The end of the batch comes last, and is told exactly if the batch was begun and
no entry point was missing; behind a missing one there is only the unit to forget. -/
theorem builderCalls_order (frontEnd : FrontEnd φ) (builder : Builder β) (tree : FileTree)
    (settings : RunSettings) (arguments : List String) (state : RunState φ β) :
    let calls := builderCalls frontEnd builder tree settings arguments state
    RunCalls calls ∧
      ((∃ answer, .endBatch answer ∈ calls) ↔
        .beginBatch (.ok ()) ∈ calls ∧
          ∀ event entryPoint, .node event (.error (.linkage entryPoint)) ∉ calls) ∧
      ∀ before event entryPoint after,
        calls = before ++ .node event (.error (.linkage entryPoint)) :: after →
          ∃ file, after = [.abort file] := by
  have hcalls : RunCalls (builderCalls frontEnd builder tree settings arguments state) := by
    obtain ⟨level, -, hbuilder⟩ :=
      commandLine_state frontEnd tree settings arguments state.recorded
    have hasked : OnlyAsked
        (commandLine frontEnd tree settings arguments state.recorded).2.builder := by
      rw [hbuilder]
      exact fun call hcall => nomatch hcall
    unfold builderCalls
    rw [value_run]
    generalize commandLine frontEnd tree settings arguments state.recorded = line at hasked ⊢
    rcases line with ⟨answer, before⟩
    cases answer with
    | error => exact .asked hasked
    | ok batch => exact runBatch_calls frontEnd builder batch hasked
  exact ⟨hcalls, hcalls.endBatch_iff, fun _ _ _ _ => hcalls.linkage_last⟩

end Running

/-- Two files that a run is asked for. -/
def twoFiles : FileTree where
  entries := [(["A.java"], .file "class A { }".toUTF8), (["B.java"], .file "class B { }".toUTF8)]

/-- The state of a run whose builder lacks the entry point for the types of the second file. -/
def lackingState : RunState SourceFrontEnd (ScriptedBuilder TreeBuilder) :=
  let failure : FailureScript :=
    { entryPoint := "enter_type", file := some "B.java", isLinkage := true }
  { front := {}, builder := { inner := {}, script := { failure := some failure } } }

/-- The run breaks off inside the second file: the file is to be forgotten, and the batch is not
ended. -/
theorem builderCalls_order_lacking :
    let calls := builderCalls (sourceFrontEnd twoFiles) (scriptedBuilder treeBuilder) twoFiles {}
      ["A.java", "B.java"] lackingState
    (∃ before event entryPoint after file,
      calls = before ++ .node event (.error (.linkage entryPoint)) :: after ∧
        after = [.abort file]) ∧
      ¬ ∃ answer, .endBatch answer ∈ calls := by
  have hlacks : (builderCalls (sourceFrontEnd twoFiles) (scriptedBuilder treeBuilder) twoFiles {}
      ["A.java", "B.java"] lackingState).any BuilderCall.lacksEntry = true := by decide +kernel
  obtain ⟨-, hend, hlast⟩ := builderCalls_order (sourceFrontEnd twoFiles)
    (scriptedBuilder treeBuilder) twoFiles {} ["A.java", "B.java"] lackingState
  -- From here on the calls need not be computed.
  generalize builderCalls (sourceFrontEnd twoFiles) (scriptedBuilder treeBuilder) twoFiles {}
    ["A.java", "B.java"] lackingState = calls at hlacks hend hlast ⊢
  obtain ⟨call, hcall, hentry⟩ := List.any_eq_true.1 hlacks
  obtain ⟨event, entryPoint, rfl⟩ := lacksEntry_eq_true.1 hentry
  obtain ⟨before, after, hsplit⟩ := List.append_of_mem hcall
  obtain ⟨file, hafter⟩ := hlast before event entryPoint after hsplit
  exact ⟨⟨before, event, entryPoint, after, file, hsplit, hafter⟩,
    fun hended => (hend.1 hended).2 event entryPoint hcall⟩

end JavaOutline
