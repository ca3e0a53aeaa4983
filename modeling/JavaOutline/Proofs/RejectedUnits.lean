/-
**Units of which something is rejected.**

A builder that keeps trees stands behind one that objects: it counts what it is told, and at some
places of the count, whichever these are, it rejects the event instead of handing it on.  A unit that
meets an objection leaves nothing behind: its failure is reported and the next unit begins as if the
unit had not been there.  So the trees that are kept are those of the units that met none, just as a
run without objections builds them.

Main definitions:

* `objectingBuilder` — a builder that rejects events at some places before it hands them on;
* `firstObjection` — the first objection to events that are told from some place on;
* `Fate`, `fates` — which units of a batch meet an objection, and which.

Main results:

* `feed_objecting` — what is told reaches the builder behind up to the first objection;
* `abort_feed_inside` — a unit that is given up before its end leaves nothing behind;
* `rebuildFrom_objecting` — what becomes of the units, one after another;
* `rebuildAll_objecting` — **objections to some units leave the others alone**.
-/

import JavaOutline.Proofs.SessionGrowth
import JavaOutline.Proofs.TreeRun

set_option autoImplicit false

namespace JavaOutline

/-! ### A builder that objects -/

/-- The state of a builder behind one that counts the events that it is told. -/
structure Objecting (β : Type) where
  inner : β
  /-- The number of events so far, those that were rejected included. -/
  told : Nat

/-- Objections to events by their place: the sort of node and the message of the rejection. -/
abbrev Objections : Type := Nat → Option (String × String)

/-- The builder that rejects an event at a place with an objection, and hands on all others. -/
def objectingBuilder {β : Type} (objections : Objections) (builder : Builder β) :
    Builder (Objecting β) where
  beginBatch state :=
    ((builder.beginBatch state.inner).1, { state with inner := (builder.beginBatch state.inner).2 })
  endBatch state :=
    ((builder.endBatch state.inner).1, { state with inner := (builder.endBatch state.inner).2 })
  isSpecified file state :=
    ((builder.isSpecified file state.inner).1,
      { state with inner := (builder.isSpecified file state.inner).2 })
  abort file state := { state with inner := builder.abort file state.inner }
  node event state :=
    match objections state.told with
    | some (node, message) => (.error (.rejected node message), { state with told := state.told + 1 })
    | none =>
        ((builder.node event state.inner).1,
          { inner := (builder.node event state.inner).2, told := state.told + 1 })

/-- The first objection to some number of events that are told from a place on, with the place
behind it. -/
def firstObjection (objections : Objections) : Nat → Nat → Option (Nat × String × String)
  | _, 0 => none
  | told, count + 1 =>
      match objections told with
      | some objection => some (told + 1, objection)
      | none => firstObjection objections (told + 1) count

section

variable {β : Type} {builder : Builder β} (objections : Objections)

theorem objecting_node_ok {told : Nat} (h : objections told = none) (event : NodeEvent)
    (inner : β) :
    (objectingBuilder objections builder).node event ⟨inner, told⟩ =
      ((builder.node event inner).1, ⟨(builder.node event inner).2, told + 1⟩) := by
  simp [objectingBuilder, h]

theorem objecting_node_rejected {told : Nat} {node message : String}
    (h : objections told = some (node, message)) (event : NodeEvent) (inner : β) :
    (objectingBuilder objections builder).node event ⟨inner, told⟩ =
      (.error (.rejected node message), ⟨inner, told + 1⟩) := by
  simp [objectingBuilder, h]

/-- Events that a builder takes are taken if there is no objection to them; else they reach the
builder up to the first objection. -/
theorem feed_objecting {events : List NodeEvent} {inner next : β}
    (h : builder.feed events inner = (.ok (), next)) (told : Nat) :
    match firstObjection objections told events.length with
    | none =>
        (objectingBuilder objections builder).feed events ⟨inner, told⟩ =
          (.ok (), ⟨next, told + events.length⟩)
    | some (later, node, message) =>
        ∃ reached < events.length,
          (objectingBuilder objections builder).feed events ⟨inner, told⟩ =
            (.error (.rejected node message),
              ⟨(builder.feed (events.take reached) inner).2, later⟩) := by
  induction events generalizing inner told with
  | nil =>
      cases h
      rfl
  | cons event events ih =>
      rw [List.length_cons, firstObjection]
      cases hhere : objections told with
      | some objection =>
          obtain ⟨node, message⟩ := objection
          refine ⟨0, Nat.succ_pos _, ?_⟩
          rw [Builder.feed, objecting_node_rejected objections hhere]
          rfl
      | none =>
          rcases hnode : builder.node event inner with ⟨answer, middle⟩
          rw [Builder.feed, hnode] at h
          cases answer with
          | error e => cases h
          | ok =>
              have hlater := ih h (told + 1)
              simp only [Builder.feed, objecting_node_ok objections hhere, hnode]
              split
              · rename_i hnone
                rw [hnone] at hlater
                rw [hlater, Nat.add_assoc, Nat.add_comm 1]
              · rename_i later node message hsome
                rw [hsome] at hlater
                obtain ⟨reached, hreached, hfeed⟩ := hlater
                refine ⟨reached + 1, Nat.succ_lt_succ hreached, ?_⟩
                rw [hfeed, List.take_succ_cons, Builder.feed, hnode]

end

/-! ### Giving up a unit -/

theorem abort_enter (node : TreeNode) (state : TreeBuilder) :
    (state.enter node).2.abort = state.abort := by
  unfold TreeBuilder.enter
  split <;> rfl

theorem abort_leaf (node : TreeNode) (state : TreeBuilder) :
    (state.leaf node).2.abort = state.abort := by
  unfold TreeBuilder.leaf
  split <;> rfl

theorem abort_leaves (nodes : List TreeNode) (state : TreeBuilder) :
    (TreeBuilder.leaves nodes state).2.abort = state.abort := by
  induction nodes generalizing state with
  | nil => rfl
  | cons node nodes ih =>
      have hleaf := abort_leaf node state
      rw [TreeBuilder.leaves]
      rcases hnext : state.leaf node with ⟨answer, next⟩
      rw [hnext] at hleaf
      cases answer with
      | error e => exact hleaf
      | ok => exact (ih next).trans hleaf

theorem abort_close (kind : String) (state : TreeBuilder) :
    (state.close kind).2.abort = state.abort := by
  unfold TreeBuilder.close
  split
  · rfl
  · split <;> rfl

theorem abort_leave (kind : String) (state : TreeBuilder) :
    (state.leave kind).2.abort = state.abort := by
  have hclose := abort_close kind state
  unfold TreeBuilder.leave
  rcases hnext : state.close kind with ⟨answer, next⟩
  rw [hnext] at hclose
  cases answer with
  | error e => exact hclose
  | ok node => exact (abort_leaf node next).trans hclose

/-- An event inside a unit changes nothing but the nodes that are pending. -/
theorem abort_node {event : NodeEvent} (h : event.endsUnit = false) (state : TreeBuilder) :
    (treeBuilder.node event state).2.abort = state.abort := by
  cases event with
  | leaveUnit file => cases h
  | enterUnit file package level =>
      change (TreeBuilder.enterUnit _ state).2.abort = _
      unfold TreeBuilder.enterUnit
      split
      · exact abort_enter _ state
      · rfl
  | leaveType name =>
      change state.leaveType.2.abort = _
      unfold TreeBuilder.leaveType
      split
      · exact abort_leave _ state
      · rfl
  | field decl => exact abort_leaves decl.treeNodes state
  | packageClause | importClause | enumConstant | expression => exact abort_leaf _ state
  | enterType | enterMethod | enterInitializer | enterStatement => exact abort_enter _ state
  | leaveMethod | leaveInitializer | leaveStatement => exact abort_leave _ state

/-- A unit that is given up before its end leaves nothing behind. -/
theorem abort_feed_inside {events : List NodeEvent} (h : ∀ event ∈ events, event.endsUnit = false)
    (state : TreeBuilder) : (treeBuilder.feed events state).2.abort = state.abort := by
  induction events generalizing state with
  | nil => rfl
  | cons event events ih =>
      have hnode := abort_node (h event List.mem_cons_self) state
      rw [Builder.feed]
      rcases hnext : treeBuilder.node event state with ⟨answer, next⟩
      rw [hnext] at hnode
      cases answer with
      | error e => exact hnode
      | ok => exact (ih (fun other hother => h other (List.mem_cons_of_mem _ hother)) next).trans hnode

/-- The end of a unit is its last event, so that a unit cut short by an objection is inside. -/
theorem abort_feed_cut (outline : Outline) (file : String) (level : LanguageLevel) {reached : Nat}
    (hreached : reached < (outline.nodeEvents file level).length) {state : TreeBuilder}
    (hpending : state.pending = []) :
    (treeBuilder.feed ((outline.nodeEvents file level).take reached) state).2.abort = state := by
  obtain ⟨inside, hsplit, hinside⟩ := outline.nodeEvents_split file level
  rw [hsplit, List.length_append, List.length_singleton] at hreached
  rw [hsplit, List.take_append_of_le_length (Nat.le_of_lt_succ hreached),
    abort_feed_inside fun event hevent => hinside event (List.mem_of_mem_take hevent)]
  unfold TreeBuilder.abort
  rw [← hpending]

/-! ### The fate of units -/

/-- What becomes of a unit: the objection to it, if there is one. -/
structure Fate where
  unit : CompilationUnit
  objection : Option (String × String)

namespace Fate

/-- Whether no event of the unit was rejected. -/
def isSpared (fate : Fate) : Bool := fate.objection.isNone

/-- The unit behind the batch. -/
def after (fate : Fate) : CompilationUnit :=
  if fate.isSpared then { fate.unit with state := .rebuilt } else fate.unit

/-- The failure of a unit that met an objection. -/
def failure? (fate : Fate) : Option RebuildError :=
  fate.objection.map fun objection =>
    .rejected fate.unit.file (objection.1 ++ ": " ++ objection.2)

end Fate

/-- The number of events of a unit. -/
def CompilationUnit.eventCount (level : LanguageLevel) (unit : CompilationUnit) : Nat :=
  (unit.outline.map fun outline => (outline.nodeEvents unit.file level).length).getD 0

/-- The fates of units the first of which begins at a place of the count.  The events of a unit that
stand behind the first objection to it are never told. -/
def fates (objections : Objections) (level : LanguageLevel) :
    Nat → List CompilationUnit → List Fate
  | _, [] => []
  | told, unit :: units =>
      match firstObjection objections told (unit.eventCount level) with
      | none =>
          { unit, objection := none } ::
            fates objections level (told + unit.eventCount level) units
      | some (later, objection) =>
          { unit, objection := some objection } :: fates objections level later units

/-- The units that meet no objection. -/
def sparedUnits (fates : List Fate) : List CompilationUnit :=
  (fates.filter Fate.isSpared).map Fate.unit

@[simp] theorem sparedUnits_nil : sparedUnits [] = [] := rfl

@[simp] theorem sparedUnits_cons_spared (unit : CompilationUnit) (fates : List Fate) :
    sparedUnits ({ unit, objection := none } :: fates) = unit :: sparedUnits fates := rfl

@[simp] theorem sparedUnits_cons_rejected (unit : CompilationUnit) (objection : String × String)
    (fates : List Fate) :
    sparedUnits ({ unit, objection := some objection } :: fates) = sparedUnits fates := rfl

/-- The units that meet an objection. -/
def rejectedUnits (fates : List Fate) : List CompilationUnit :=
  (fates.filter fun fate => !fate.isSpared).map Fate.unit

/-- The failures name the files of the units that met an objection. -/
theorem files_failures (fates : List Fate) :
    (fates.filterMap Fate.failure?).map RebuildError.file =
      (rejectedUnits fates).map CompilationUnit.file := by
  unfold rejectedUnits
  induction fates with
  | nil => rfl
  | cons fate fates ih =>
      obtain ⟨unit, objection⟩ := fate
      cases objection with
      | none => exact ih
      | some objection => exact congrArg (unit.file :: ·) ih

section

variable (objections : Objections) (level : LanguageLevel)

theorem fates_spared {told : Nat} {unit : CompilationUnit}
    (h : firstObjection objections told (unit.eventCount level) = none)
    (units : List CompilationUnit) :
    fates objections level told (unit :: units) =
      { unit, objection := none } ::
        fates objections level (told + unit.eventCount level) units := by
  rw [fates, h]

theorem fates_rejected {told later : Nat} {unit : CompilationUnit} {objection : String × String}
    (h : firstObjection objections told (unit.eventCount level) = some (later, objection))
    (units : List CompilationUnit) :
    fates objections level told (unit :: units) =
      { unit, objection := some objection } :: fates objections level later units := by
  rw [fates, h]

/-- Every unit has a fate, in order. -/
theorem map_unit_fates (told : Nat) (units : List CompilationUnit) :
    (fates objections level told units).map Fate.unit = units := by
  induction units generalizing told with
  | nil => rfl
  | cons unit units ih =>
      rw [fates]
      split
      · rw [List.map_cons, ih]
      · rw [List.map_cons, ih]

theorem eventCount_of_ready {unit : CompilationUnit} {outline : Outline}
    (h : unit.readyOutline = .ok outline) :
    unit.eventCount level = (outline.nodeEvents unit.file level).length := by
  unfold CompilationUnit.readyOutline at h
  split at h
  · cases h
  · rename_i found hfound
    split at h
    · cases h
    · cases h
      simp [CompilationUnit.eventCount, hfound]

/-- The files of the index behind units with some fates. -/
def recordedIn (conflicts : ConflictIndex) (fates : List Fate) (next : ConflictIndex) : Prop :=
  ∀ file, next.contains file = true ↔
    file ∈ (sparedUnits fates).map CompilationUnit.file ∨ conflicts.contains file = true

/-- Units that are ready become trees if they meet no objection, and leave nothing behind if they
meet one. -/
theorem rebuildFrom_objecting (verbosity : Nat) {units : List CompilationUnit}
    (hready : ∀ unit ∈ units, ∃ outline, unit.readyOutline = .ok outline) (report : RebuildReport)
    {inner : TreeBuilder} (hpending : inner.pending = []) (told : Nat) (conflicts : ConflictIndex) :
    ∃ last next,
      (rebuildFrom (objectingBuilder objections treeBuilder) level verbosity units report
          { builder := ⟨inner, told⟩, conflicts }).value =
        (.ok
          { rebuilt := report.rebuilt ++
              (sparedUnits (fates objections level told units)).map CompilationUnit.file
            failures := report.failures ++
              (fates objections level told units).filterMap Fate.failure? },
          (fates objections level told units).map Fate.after,
          { builder :=
              ⟨{ inner with
                  units := inner.units ++ (sparedUnits (fates objections level told units)).filterMap
                    (CompilationUnit.tree? level) }, last⟩
            conflicts := next }) ∧
      recordedIn conflicts (fates objections level told units) next := by
  induction units generalizing report inner told conflicts with
  | nil => exact ⟨told, conflicts, by simp [rebuildFrom_nil, fates], by
      intro file
      simp [fates]⟩
  | cons unit units ih =>
      obtain ⟨outline, houtline⟩ := hready unit List.mem_cons_self
      have hlater := fun other hother => hready other (List.mem_cons_of_mem _ hother)
      have hfeed := feed_objecting objections (feed_nodeEvents outline unit.file level hpending) told
      rw [← eventCount_of_ready level houtline] at hfeed
      cases hfirst : firstObjection objections told (unit.eventCount level) with
      | none =>
          simp only [hfirst] at hfeed
          rw [fates_spared objections level hfirst]
          have hgrown : TreeBuilder.pending
              { inner with units := inner.units ++ [outline.tree unit.file level] } = [] := hpending
          obtain ⟨last, next, hvalue, hrecorded⟩ := ih hlater
            { report with rebuilt := report.rebuilt ++ [unit.file] }
            hgrown (told + unit.eventCount level) (conflicts.record unit.file outline)
          refine ⟨last, next, ?_, ?_⟩
          · rw [rebuildFrom_rebuilt (rebuildUnit_rebuilt houtline hfeed), hvalue]
            simp [List.filterMap_cons, Fate.isSpared, Fate.after, Fate.failure?,
              tree?_of_ready houtline level]
          · intro file
            rw [hrecorded file, ConflictIndex.contains_record]
            simp only [sparedUnits_cons_spared, List.map_cons, List.mem_cons]
            tauto
      | some found =>
          obtain ⟨later, node, message⟩ := found
          simp only [hfirst] at hfeed
          rw [fates_rejected objections level hfirst]
          obtain ⟨reached, hreached, hfeed⟩ := hfeed
          rw [eventCount_of_ready level houtline] at hreached
          have hback := abort_feed_cut outline unit.file level hreached hpending
          obtain ⟨last, next, hvalue, hrecorded⟩ := ih hlater
            { report with failures := report.failures ++
                [.rejected unit.file (node ++ ": " ++ message)] }
            hpending later conflicts
          have hunit : (rebuildUnit (objectingBuilder objections treeBuilder) level verbosity unit
              { builder := ⟨inner, told⟩, conflicts }).value =
                (.error (.unit (.rejected unit.file (node ++ ": " ++ message))), unit,
                  { builder := ⟨inner, later⟩, conflicts }) := by
            rw [rebuildUnit_failed houtline hfeed]
            simp only [BuilderError.unitFailure, objectingBuilder, treeBuilder] at hback ⊢
            rw [hback]
          refine ⟨last, next, ?_, ?_⟩
          · rw [rebuildFrom_failed hunit, hvalue]
            simp [Fate.isSpared, Fate.after, Fate.failure?]
          · intro file
            rw [hrecorded file, sparedUnits_cons_rejected]

/-! ### Objections to a batch -/

/-- A unit is spared or rejected, and not both: with files of their own, no rejected unit shares its
file with a spared one. -/
theorem file_of_rejected {told : Nat} {units : List CompilationUnit}
    (hdistinct : (units.map CompilationUnit.file).Nodup) {unit : CompilationUnit}
    (h : unit ∈ rejectedUnits (fates objections level told units)) :
    unit.file ∉ (sparedUnits (fates objections level told units)).map CompilationUnit.file := by
  intro hmem
  obtain ⟨other, hother, hsame⟩ := List.mem_map.1 hmem
  obtain ⟨rejected, hrejected, rfl⟩ := List.mem_map.1 h
  obtain ⟨spared, hspared, rfl⟩ := List.mem_map.1 hother
  obtain ⟨hin, hnot⟩ := List.mem_filter.1 hrejected
  obtain ⟨hin', hyes⟩ := List.mem_filter.1 hspared
  rw [← map_unit_fates objections level told units, List.map_map] at hdistinct
  rw [List.inj_on_of_nodup_map hdistinct hin' hin hsame] at hyes
  rw [hyes] at hnot
  cases hnot

/-- **Objections to some units leave the others alone.**  Units with outlines whose bodies are parsed
are rebuilt by a builder that rejects events at any places, in front of one that keeps trees.  The
trees that are kept are those of the units that met no objection, in order, and they are the trees
that these units have among all those that a run without objections keeps.  The other units come back
as they were, with a failure that names their file, and the index does not know them; and no node
stays pending. -/
theorem rebuildAll_objecting (verbosity : Nat) {units : List CompilationUnit}
    (hdistinct : (units.map CompilationUnit.file).Nodup)
    (hbound : ∀ unit ∈ units, unit.state = .bound)
    (houtlines : ∀ unit ∈ units, ∃ outline, unit.outline = some outline ∧
      outline.hasUnparsedBodies = false)
    {inner : TreeBuilder} (hpending : inner.pending = []) (told : Nat) :
    ∃ report after shop plainReport plainAfter plainShop,
      (rebuildAll (objectingBuilder objections treeBuilder) level verbosity units
        { builder := ⟨inner, told⟩, conflicts := {} }).value = (.ok report, after, shop) ∧
      (rebuildAll treeBuilder level verbosity units
        { builder := inner, conflicts := {} }).value = (.ok plainReport, plainAfter, plainShop) ∧
      plainShop.builder.units = inner.units ++ units.filterMap (CompilationUnit.tree? level) ∧
      shop.builder.inner.units = inner.units ++
        (sparedUnits (fates objections level told units)).filterMap (CompilationUnit.tree? level) ∧
      shop.builder.inner.pending = [] ∧
      report.rebuilt = (sparedUnits (fates objections level told units)).map CompilationUnit.file ∧
      report.failures = (fates objections level told units).filterMap Fate.failure? ∧
      report.failures.map RebuildError.file =
        (rejectedUnits (fates objections level told units)).map CompilationUnit.file ∧
      after = (fates objections level told units).map Fate.after ∧
      (∀ unit ∈ rejectedUnits (fates objections level told units),
        unit ∈ after ∧ unit.state ≠ .rebuilt ∧ shop.conflicts.contains unit.file = false) ∧
      ∀ unit ∈ sparedUnits (fates objections level told units),
        { unit with state := .rebuilt } ∈ after ∧ shop.conflicts.contains unit.file = true := by
  have hready : ∀ unit ∈ units, ∃ outline, unit.readyOutline = .ok outline := by
    intro unit hunit
    obtain ⟨outline, houtline, hparsed⟩ := houtlines unit hunit
    exact ⟨outline, by simp [CompilationUnit.readyOutline, houtline, hparsed]⟩
  obtain ⟨last, next, hvalue, hrecorded⟩ :=
    rebuildFrom_objecting objections level verbosity hready {} hpending told {}
  obtain ⟨plainAfter, plainConflicts, hplain⟩ := rebuildFrom_trees level verbosity hready {}
    { builder := inner, conflicts := {} } hpending
  have hknown (file : String) : next.contains file = true ↔
      file ∈ (sparedUnits (fates objections level told units)).map CompilationUnit.file := by
    rw [hrecorded file]
    exact or_iff_left (by simp [ConflictIndex.contains, ConflictIndex.scope?])
  refine ⟨_, _, _, _, _, _, (value_rebuildAll ..).trans hvalue, (value_rebuildAll ..).trans hplain,
    rfl, rfl, hpending, rfl, rfl, ?_, rfl, ?_, ?_⟩
  · exact files_failures (fates objections level told units)
  · intro unit hunit
    have hunits := map_unit_fates objections level told units
    obtain ⟨fate, hfate, rfl⟩ := List.mem_map.1 hunit
    obtain ⟨hmem, hrejected⟩ := List.mem_filter.1 hfate
    refine ⟨List.mem_map.2 ⟨fate, hmem, ?_⟩, ?_, ?_⟩
    · rw [Fate.after, if_neg (by simpa using hrejected)]
    · rw [hbound fate.unit (hunits ▸ List.mem_map_of_mem hmem)]
      decide
    · rw [Bool.eq_false_iff, Ne, hknown]
      exact file_of_rejected objections level hdistinct hunit
  · intro unit hunit
    obtain ⟨fate, hfate, rfl⟩ := List.mem_map.1 hunit
    obtain ⟨hmem, hspared⟩ := List.mem_filter.1 hfate
    refine ⟨List.mem_map.2 ⟨fate, hmem, ?_⟩, (hknown _).2 (List.mem_map_of_mem hunit)⟩
    rw [Fate.after, if_pos hspared]

end

/-- A unit that declares one class. -/
def loneClass (file name : String) : CompilationUnit where
  file := file
  origin := .requested
  report := { file, maxProblems := 0 }
  ordinal := 0
  state := .bound
  source := none
  outline := some { types := [{ kind := .classType, name, span := {} }], span := {} }

/-- An objection to the class of the second of three units. -/
def objectionToSecond : Objections := fun place =>
  if place = 5 then some ("class", "no") else none

/-- The units around the one that is rejected are kept. -/
theorem rebuildAll_objecting_second :
    let units := [loneClass "A.java" "A", loneClass "B.java" "B", loneClass "C.java" "C"]
    ∃ report after shop,
      (rebuildAll (objectingBuilder objectionToSecond treeBuilder) .jdk8 0 units
        { builder := ⟨{}, 0⟩, conflicts := {} }).value = (.ok report, after, shop) ∧
      shop.builder.inner.units.map TreeNode.name = [some "A.java", some "C.java"] ∧
      report.failures = [.rejected "B.java" "class: no"] ∧
      shop.conflicts.contains "B.java" = false := by
  intro units
  have hfates : fates objectionToSecond .jdk8 0 units =
      [⟨loneClass "A.java" "A", none⟩, ⟨loneClass "B.java" "B", some ("class", "no")⟩,
        ⟨loneClass "C.java" "C", none⟩] := rfl
  have hdistinct : (units.map CompilationUnit.file).Nodup := by decide
  have hpending : ({} : TreeBuilder).pending = [] := rfl
  obtain ⟨report, after, shop, _, _, _, hvalue, -, -, htrees, -, -, hfailures, -, -, hrejected, -⟩ :=
    rebuildAll_objecting objectionToSecond .jdk8 0 hdistinct (by decide)
      (by simp [units, loneClass]; decide) hpending 0
  rw [hfates] at htrees hfailures hrejected
  refine ⟨report, after, shop, hvalue, ?_, hfailures, ?_⟩
  · rw [htrees]
    rfl
  · exact (hrejected (loneClass "B.java" "B") List.mem_cons_self).2.2

end JavaOutline
