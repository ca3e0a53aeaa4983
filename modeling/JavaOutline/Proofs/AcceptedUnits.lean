/-
**What a run accounts for.**

Units are selected in one pass over a batch, rebuilt in a second and accepted in a third.  The passes
know of each other only by the numbers of slots, the states of units and lists of files.  Between them
no unit gets lost, doubled or out of order: every unit of the batch is accepted once, at its place, and
the files that were selected are those that were rebuilt and those that failed, each at its place.

Main definitions:

* `CompilationUnit.IsCompiled` — a unit as compiling a batch leaves it;
* `RebuildReport.Accounts` — what a report says of the units that were rebuilt;
* `acceptedRegistry` — the registry of a batch when its units are accepted;
* `Outcome.Accounts` — what an outcome says of that registry.

Main results:

* `compiled_isCompiled`, `selectFrom_isCompiled` — compiling and visiting a batch;
* `rebuildFrom_accounts`, `units_putBackFrom` — rebuilding units and putting them back;
* `foldl_accept`, `acceptAll_slots` — accepting units empties their slots;
* `run_accounts` — **a run that ends accounts for every unit of its batch**.
-/

import Mathlib.Algebra.GroupWithZero.Nat
import JavaOutline.Builder.Scripted
import JavaOutline.Proofs.RepeatedRun
import JavaOutline.Proofs.TidyBatch

set_option autoImplicit false

namespace JavaOutline

open SourceFrontEnd

/-! ### Units as compiling leaves them -/

/-- A unit as compiling a batch leaves it: the report is about its file, and it is not rebuilt. -/
structure CompilationUnit.IsCompiled (unit : CompilationUnit) : Prop where
  report_file : unit.report.file = unit.file
  not_rebuilt : unit.state ≠ .rebuilt

/-- Problems do not change what file a report is about. -/
@[simp] theorem UnitReport.file_record (report : UnitReport) (problem : Problem) :
    (report.record problem).file = report.file := by
  unfold record
  split
  · rfl
  · split <;> rfl

@[simp] theorem UnitReport.file_recordAll (report : UnitReport) (problems : List Problem) :
    (report.recordAll problems).file = report.file := by
  induction problems generalizing report with
  | nil => rfl
  | cons problem problems ih => exact (ih _).trans (report.file_record problem)

@[simp] theorem file_recordSyntaxErrors (report : UnitReport) (errors : List SyntaxError) :
    (recordSyntaxErrors report errors).file = report.file := by
  induction errors generalizing report with
  | nil => rfl
  | cons e errors ih => exact (ih _).trans (UnitReport.file_record _ _)

theorem CompilationUnit.IsCompiled.recordAll {unit : CompilationUnit} (h : unit.IsCompiled)
    (problems : List Problem) : (unit.recordAll problems).IsCompiled :=
  ⟨(unit.report.file_recordAll problems).trans h.report_file, h.not_rebuilt⟩

/-- A unit is entered with a report about its file. -/
theorem enteredUnit_isCompiled (tree : FileTree) {source : SourceFile} {report : UnitReport}
    (h : report.file = source.file) (diet : Bool) (front : SourceFrontEnd) :
    (enteredUnit tree source report diet front).1.IsCompiled := by
  unfold enteredUnit SourceFrontEnd.parse SourceFrontEnd.bind
  cases source.contents tree front.sizeLimit with
  | error e => exact ⟨h, nofun⟩
  | ok text =>
      simp only
      refine ⟨?_, nofun⟩
      have hparsed : (reportParse report (Outline.parse text diet)).file = source.file := by
        unfold reportParse
        simp only
        split
        · exact (file_recordSyntaxErrors _ _).trans h
        · exact (file_recordSyntaxErrors _ _).trans h
      exact (UnitReport.file_recordAll _ _).trans hparsed

theorem CompilationUnit.IsCompiled.notePackage {unit : CompilationUnit} (h : unit.IsCompiled) :
    (Batch.notePackage unit).IsCompiled := by
  unfold Batch.notePackage
  split
  · exact ⟨h.report_file, h.not_rebuilt⟩
  · exact h

/-- All units of a registry are as compiling leaves them. -/
def Registry.IsCompiled (registry : Registry) : Prop :=
  ∀ place unit, registry.get? place = some unit → unit.IsCompiled

/-- **The units of a batch have reports about their files and are not rebuilt.** -/
theorem compiled_isCompiled (tree : FileTree) (reading : ReadingPreferences) (files : List String)
    (front : SourceFrontEnd) : (compiled tree reading files front).registry.IsCompiled := by
  have hkept : KeptByCompiling tree CompilationUnit.IsCompiled :=
    { entered := fun _ _ _ _ diet front => enteredUnit_isCompiled tree rfl diet front
      package := fun _ h => h.notePackage
      ordinal := fun _ _ h => ⟨h.report_file, h.not_rebuilt⟩
      record := fun _ problems h => h.recordAll problems }
  exact hkept.compiled reading files front

/-! ### Visiting units -/

/-- A visit leaves a unit what it is. -/
theorem visitUnit_isCompiled {σ : Type} (tree : FileTree) (session : Session)
    (ask : String → σ → Bool × σ) (index : Nat) (seen : List String) {unit : CompilationUnit}
    (h : unit.IsCompiled) (front : SourceFrontEnd) (asked : σ) :
    let visit := (visitUnit (sourceFrontEnd tree) session ask index seen unit front asked).value
    visit.unit.IsCompiled ∧ visit.unit.file = unit.file := by
  have hprocess : ((sourceFrontEnd tree).process unit index front).value.1.IsCompiled := by
    have hbodies : (completeBodies unit).IsCompiled := by
      unfold completeBodies
      split
      · exact ⟨(file_recordSyntaxErrors _ _).trans h.report_file, h.not_rebuilt⟩
      · exact h
    show (check (completeBodies unit)).IsCompiled
    unfold check
    split
    · exact hbodies.recordAll _
    · exact hbodies
  rcases visitUnit_cases (sourceFrontEnd tree) session ask index seen unit front asked with
    ⟨-, hvalue⟩ | ⟨-, -, -, hvalue⟩ | ⟨-, -, -, hvalue⟩
  · rw [hvalue]
    exact ⟨⟨h.report_file, nofun⟩, rfl⟩
  · rw [hvalue]
    exact ⟨⟨h.report_file, nofun⟩, rfl⟩
  · rw [hvalue]
    exact ⟨hprocess, sourceFrontEnd_keepsFiles tree unit index front⟩

/-- A visit without errors leaves the units in their slots, and leaves them what they are. -/
theorem selectFrom_isCompiled {σ : Type} (tree : FileTree) {session : Session}
    {ask : String → σ → Bool × σ} {index : Nat} {seen : List String}
    {slots : List (Option CompilationUnit)} {front : SourceFrontEnd} {asked : σ}
    {selected : List Nat} (h : ∀ unit, some unit ∈ slots → unit.IsCompiled)
    (hvisit : (selectFrom (sourceFrontEnd tree) session ask index seen slots front
      asked).value.Selects selected) :
    let found := (selectFrom (sourceFrontEnd tree) session ask index seen slots front asked).value
    (∀ unit, some unit ∈ found.slots → unit.IsCompiled) ∧
      found.slots.map (Option.map CompilationUnit.file) =
        slots.map (Option.map CompilationUnit.file) := by
  induction slots generalizing index seen front asked selected with
  | nil => exact ⟨h, rfl⟩
  | cons slot slots ih =>
      have hlater (unit : CompilationUnit) (hunit : some unit ∈ slots) : unit.IsCompiled :=
        h unit (List.mem_cons_of_mem _ hunit)
      cases slot with
      | none =>
          obtain ⟨rest, hrest, -⟩ := Selection.selects_cons.1 hvisit
          obtain ⟨hunits, hfiles⟩ := ih hlater hrest
          refine ⟨fun unit hunit => ?_, congrArg (none :: ·) hfiles⟩
          rcases List.mem_cons.1 hunit with hnone | hmem
          · cases hnone
          · exact hunits unit hmem
      | some unit =>
          obtain ⟨rest, hslots, hrest, -, -⟩ := selectFrom_some rfl hvisit
          obtain ⟨hunits, hfiles⟩ := ih hlater hrest
          obtain ⟨hunit, hfile⟩ := visitUnit_isCompiled tree session ask index seen
            (h unit List.mem_cons_self) front asked
          simp only [hslots]
          refine ⟨fun other hother => ?_, ?_⟩
          · rcases List.mem_cons.1 hother with hsame | hmem
            · cases hsame
              exact hunit
            · exact hunits other hmem
          · rw [List.map_cons, List.map_cons, hfiles, Option.map_some, hfile, Option.map_some]

/-! ### Rebuilding units -/

/-- Whether a unit was rebuilt. -/
def CompilationUnit.isRebuilt (unit : CompilationUnit) : Bool := unit.state == .rebuilt

theorem CompilationUnit.IsCompiled.isRebuilt_eq {unit : CompilationUnit} (h : unit.IsCompiled) :
    unit.isRebuilt = false := by
  simpa [CompilationUnit.isRebuilt] using h.not_rebuilt

/-- What a report says of units that were rebuilt in order behind others: each of them was rebuilt or
failed, and they are what they were. -/
structure RebuildReport.Accounts (before report : RebuildReport)
    (units after : List CompilationUnit) : Prop where
  same : after.map (fun unit => (unit.file, unit.report)) =
    units.map fun unit => (unit.file, unit.report)
  rebuilt : report.rebuilt = before.rebuilt ++
    (after.filter CompilationUnit.isRebuilt).map CompilationUnit.file
  failed : report.failures.map RebuildError.file = before.failures.map RebuildError.file ++
    (after.filter (!·.isRebuilt)).map CompilationUnit.file

section

variable {β : Type} {builder : Builder β} {level : LanguageLevel} {verbosity : Nat}

/-- Rebuilding a unit marks it, or it fails with an error of its file, or the batch ends. -/
theorem rebuildUnit_marks {unit after : CompilationUnit} {shop next : Workshop β}
    {answer : Except UnitFailure Unit}
    (h : (rebuildUnit builder level verbosity unit shop).value = (answer, after, next)) :
    (answer = .ok () ∧ after = { unit with state := .rebuilt }) ∨
      (∃ e, answer = .error (.unit e) ∧ e.file = unit.file ∧ after = unit) ∨
      ∃ e, answer = .error (.linkage e) := by
  cases hready : unit.readyOutline with
  | error e =>
      rw [rebuildUnit_unready hready] at h
      cases h
      refine .inr (.inl ⟨e, rfl, ?_, rfl⟩)
      unfold CompilationUnit.readyOutline at hready
      split at hready
      · cases hready
        rfl
      · split at hready
        · cases hready
          rfl
        · cases hready
  | ok outline =>
      rcases hfeed : builder.feed (outline.nodeEvents unit.file level) shop.builder
        with ⟨fed, state⟩
      cases fed with
      | ok =>
          rw [rebuildUnit_rebuilt hready hfeed] at h
          cases h
          exact .inl ⟨rfl, rfl⟩
      | error e =>
          rw [rebuildUnit_failed hready hfeed] at h
          cases h
          cases e with
          | rejected node message => exact .inr (.inl ⟨_, rfl, rfl, rfl⟩)
          | linkage entryPoint => exact .inr (.inr ⟨_, rfl⟩)

/-- **Of units that are rebuilt in order each one is rebuilt or fails**, unless the batch ends. -/
theorem rebuildFrom_accounts {units after : List CompilationUnit} {before report : RebuildReport}
    {shop next : Workshop β} (hunits : ∀ unit ∈ units, unit.IsCompiled)
    (h : (rebuildFrom builder level verbosity units before shop).value =
      (.ok report, after, next)) : before.Accounts report units after := by
  induction units generalizing before after shop with
  | nil =>
      cases h
      exact ⟨rfl, by simp, by simp⟩
  | cons unit units ih =>
      obtain ⟨hunit, hothers⟩ := List.forall_mem_cons.1 hunits
      rcases hrebuild : (rebuildUnit builder level verbosity unit shop).value
        with ⟨answer, own, middle⟩
      rcases rebuildUnit_marks hrebuild with ⟨rfl, rfl⟩ | ⟨e, rfl, hfile, rfl⟩ | ⟨e, rfl⟩
      · rw [rebuildFrom_rebuilt hrebuild] at h
        rcases hlater : (rebuildFrom builder level verbosity units
          { before with rebuilt := before.rebuilt ++ [unit.file] } middle).value
          with ⟨found, later, last⟩
        rw [hlater] at h
        cases h
        have haccounts := ih hothers hlater
        refine ⟨by rw [List.map_cons, haccounts.same, List.map_cons], ?_, ?_⟩
        · rw [haccounts.rebuilt]
          simp [CompilationUnit.isRebuilt]
        · rw [haccounts.failed]
          simp [CompilationUnit.isRebuilt]
      · rw [rebuildFrom_failed hrebuild] at h
        rcases hlater : (rebuildFrom builder level verbosity units
          { before with failures := before.failures ++ [e] } middle).value
          with ⟨found, later, last⟩
        rw [hlater] at h
        cases h
        have haccounts := ih hothers hlater
        refine ⟨by rw [List.map_cons, haccounts.same, List.map_cons], ?_, ?_⟩
        · rw [haccounts.rebuilt]
          simp [hunit.isRebuilt_eq]
        · rw [haccounts.failed]
          simp [hunit.isRebuilt_eq, hfile]
      · rw [rebuildFrom_linkage hrebuild] at h
        cases h

end

/-! ### Putting units back -/

/-- Units that are put back are those of the slots they came from, in the order of the slots; what is
the same of the units that are put back is the same of all. -/
theorem units_putBackFrom {α : Type} (view : CompilationUnit → α) {ordinals : List Nat} {index : Nat}
    {slots : List (Option CompilationUnit)} {after : List CompilationUnit}
    (hsame : after.map view = (pickFrom ordinals index slots).map view) :
    (Registry.putBackFrom ordinals index slots after).map (Option.map view) =
      slots.map (Option.map view) := by
  induction slots generalizing index after with
  | nil => rfl
  | cons slot slots ih =>
      rw [pickFrom_cons] at hsame
      cases slot with
      | none =>
          refine congrArg (none :: ·) (ih ?_)
          split at hsame <;> exact hsame
      | some held =>
          rw [Registry.putBackFrom]
          by_cases hindex : index ∈ ordinals
          · rw [if_pos hindex] at hsame
            rw [if_pos (by simpa using hindex)]
            cases after with
            | nil => cases hsame
            | cons first after =>
                obtain ⟨hfirst, hlater⟩ := List.cons.inj hsame
                rw [List.map_cons, List.map_cons, List.tail_cons, ih hlater]
                exact congrArg (· :: _) (congrArg some hfirst)
          · rw [if_neg hindex] at hsame
            rw [if_neg (by simpa using hindex), List.map_cons, List.map_cons, ih hsame]

/-- If none of the units in their slots was rebuilt, those that were rebuilt afterwards are among the
units that are put back. -/
theorem rebuilt_putBackFrom {ordinals : List Nat} {index : Nat}
    {slots : List (Option CompilationUnit)} {after : List CompilationUnit}
    (hlength : after.length = (pickFrom ordinals index slots).length)
    (hslots : ∀ unit, some unit ∈ slots → unit.isRebuilt = false) :
    ((Registry.putBackFrom ordinals index slots after).filterMap id).filter
        CompilationUnit.isRebuilt = after.filter CompilationUnit.isRebuilt := by
  induction slots generalizing index after with
  | nil =>
      have hnil : after = [] := List.length_eq_zero_iff.1 hlength
      rw [hnil]
      rfl
  | cons slot slots ih =>
      have hlater (unit : CompilationUnit) (hunit : some unit ∈ slots) : unit.isRebuilt = false :=
        hslots unit (List.mem_cons_of_mem _ hunit)
      rw [pickFrom_cons] at hlength
      cases slot with
      | none =>
          refine ih ?_ hlater
          split at hlength <;> simpa using hlength
      | some held =>
          rw [Registry.putBackFrom]
          by_cases hindex : index ∈ ordinals
          · rw [if_pos hindex] at hlength
            rw [if_pos (by simpa using hindex)]
            cases after with
            | nil => simp at hlength
            | cons first after =>
                have hrest := @ih (index + 1) after (by simpa using hlength) hlater
                rw [List.head?_cons, Option.getD_some, List.tail_cons,
                  List.filterMap_cons_some (show id (some first) = some first from rfl),
                  List.filter_cons, List.filter_cons, hrest]
          · rw [if_neg hindex] at hlength
            rw [if_neg (by simpa using hindex),
              List.filterMap_cons_some (show id (some held) = some held from rfl), List.filter_cons,
              if_neg (by simp [hslots held List.mem_cons_self])]
            exact ih hlength hlater

/-! ### Accepting units -/

/-- The entry for a unit with which the batch is done. -/
def acceptance (failed : List String) (unit : CompilationUnit) : Acceptance where
  file := unit.report.file
  disposition := dispositionOf failed unit
  problemCount := unit.report.problemCount
  lineCount := unit.report.lineCount

/-- Accepting units in order adds an entry for each of them, and counts them and their lines. -/
theorem foldl_accept (failed : List String) (units : List CompilationUnit) (tally : Tally) :
    let last := units.foldl (Tally.accept failed) tally
    last.accepted = tally.accepted ++ units.map (acceptance failed) ∧
      last.unitsAccepted = tally.unitsAccepted + units.length ∧
      last.lineCount = tally.lineCount + (units.map (·.report.lineCount)).sum := by
  induction units generalizing tally with
  | nil => simp
  | cons unit units ih =>
      obtain ⟨haccepted, hunits, hlines⟩ := ih (tally.accept failed unit)
      refine ⟨?_, ?_, ?_⟩
      · rw [List.foldl_cons, haccepted]
        simp [Tally.accept, acceptance, CompilationUnit.release, CompilationUnit.accept,
          UnitReport.accept, UnitReport.problemCount, UnitReport.lineCount]
      · rw [List.foldl_cons, hunits]
        simp only [Tally.accept, List.length_cons]
        omega
      · rw [List.foldl_cons, hlines]
        simp only [Tally.accept, CompilationUnit.release, CompilationUnit.accept, UnitReport.accept,
          UnitReport.lineCount, List.map_cons, List.sum_cons]
        omega

/-- Accepting the units behind some slots empties their slots. -/
theorem acceptFrom_slots (failed : List String) (ahead behind : List (Option CompilationUnit))
    {registry : Registry} (h : registry.slots = ahead ++ behind) (tally : Tally) :
    (acceptFrom failed (List.range' ahead.length behind.length) registry tally).2.slots =
      ahead ++ List.replicate behind.length none := by
  induction behind generalizing ahead registry tally with
  | nil => exact h
  | cons slot behind ih =>
      have hget : registry.get? ahead.length = slot := by
        simp [Registry.get?, h]
      have htaken : (registry.take ahead.length).2.slots = (ahead ++ [none]) ++ behind := by
        rw [Registry.take, h, modify_append_right _ _ (Nat.le_refl _), Nat.sub_self]
        simp
      have hlater := ih (ahead ++ [none]) htaken
      rw [List.length_append, List.length_singleton] at hlater
      have htake : registry.take ahead.length = (slot, (registry.take ahead.length).2) :=
        Prod.ext hget rfl
      rw [List.length_cons, List.range'_succ, acceptFrom, htake, List.replicate_succ,
        ← List.singleton_append, ← List.append_assoc]
      cases slot with
      | none => exact hlater tally
      | some unit => exact hlater (tally.accept failed unit)

/-- Accepting the units of a batch empties all slots. -/
theorem acceptAll_slots (failed : List String) (registry : Registry) :
    (acceptAll failed registry).2.slots = List.replicate registry.size none := by
  rw [acceptAll, List.range_eq_range']
  exact acceptFrom_slots failed [] registry.slots rfl {}

/-! ### The registry that is accepted -/

section

variable {φ β : Type} {frontEnd : FrontEnd φ} {builder : Builder β} {level : LanguageLevel}
  {registry : Registry} {selected : List Nat} {state after : RunState φ β} {outcome : Outcome}

/-- A registry with the units that were selected back in their slots, after a builder was told of
them. -/
def rebuiltRegistry (builder : Builder β) (level : LanguageLevel) (registry : Registry)
    (selected : List Nat) (state : RunState φ β) : Registry :=
  registry.putBack selected
    (rebuildFrom builder level state.session.verbosity (registry.selected selected) {}
      { builder := (builder.beginBatch state.builder).2
        conflicts := state.session.conflicts }).value.2.1

/-- The registry of a batch when its units are accepted: behind the visit, and with the units that
were selected back in their slots. -/
def acceptedRegistry (frontEnd : FrontEnd φ) (builder : Builder β) (batch : Batch)
    (state : RunState φ β) : Registry :=
  let visit := visitBatch frontEnd builder batch state
  let visited := visitedRegistry frontEnd builder batch state
  match visit.answer with
  | .error _ => visited
  | .ok selected => rebuiltRegistry builder batch.level visited selected (state.visited visit)

/-- What an outcome says of the registry whose units were accepted. -/
structure Outcome.Accounts (outcome : Outcome) (registry : Registry) : Prop where
  /-- What was counted when the units were accepted is what the outcome tells. -/
  tally : (acceptAll (outcome.failures.map RebuildError.file) registry).1 =
    { accepted := outcome.accepted, skipped := outcome.skipped
      unitsAccepted := outcome.unitsAccepted, lineCount := outcome.lineCount }
  /-- All slots are empty then. -/
  released : (acceptAll (outcome.failures.map RebuildError.file) registry).2.slots =
    List.replicate registry.size none
  /-- There is one entry for every unit, in the order of the slots. -/
  entries : outcome.accepted.map (fun entry => (entry.file, entry.problemCount, entry.lineCount)) =
    registry.units.map fun unit =>
      (unit.file, unit.report.problemCount, unit.report.separators.length)
  unitsAccepted : outcome.unitsAccepted = outcome.accepted.length
  lineCount : outcome.lineCount = (outcome.accepted.map Acceptance.lineCount).sum
  /-- The entries of units that were rebuilt name the files that were rebuilt. -/
  rebuilt : (outcome.accepted.filter (·.disposition = .rebuilt)).map Acceptance.file =
    outcome.rebuilt
  /-- The files that were selected come in the order of the slots, and each once. -/
  selected : outcome.selected.Sublist (registry.units.map CompilationUnit.file)
  nodup : outcome.selected.Nodup
  /-- Each of them was rebuilt or failed, and not both. -/
  rebuilt_eq : outcome.rebuilt = outcome.selected.filter (· ∈ outcome.rebuilt)
  failed_eq : outcome.failures.map RebuildError.file =
    outcome.selected.filter (· ∉ outcome.rebuilt)

/-- What is the same of all slots is the same of the units in them. -/
theorem Registry.map_units_congr {α : Type} {view : CompilationUnit → α} (other : Registry)
    (h : registry.slots.map (Option.map view) = other.slots.map (Option.map view)) :
    registry.units.map view = other.units.map view := by
  have hunits (slots : List (Option CompilationUnit)) :
      (slots.filterMap id).map view = (slots.map (Option.map view)).filterMap id := by
    rw [List.map_filterMap, List.filterMap_map]
    rfl
  rw [Registry.units, Registry.units, hunits, hunits, h]

/-- The units that are picked are units of the registry, in their order. -/
theorem Registry.selected_sublist (registry : Registry) (numbers : List Nat) :
    (registry.selected numbers).Sublist registry.units := by
  have hfirst : registry.slots.zipIdx.filterMap Prod.fst = registry.units := by
    rw [Registry.units]
    conv_rhs => rw [← List.zipIdx_map_fst 0 registry.slots, List.filterMap_map]
    rfl
  rw [registry.selected_eq_pickFrom, ← hfirst]
  exact List.filter_sublist.filterMap _

/-- Where each item has a name of its own, the name of an item is among those of the items of some
kind if it is one of them. -/
theorem mem_map_filter_iff {α γ : Type} {name : α → γ} {items : List α} {kind : α → Bool}
    (h : (items.map name).Nodup) {item : α} (hitem : item ∈ items) :
    name item ∈ (items.filter kind).map name ↔ kind item = true := by
  constructor
  · intro hname
    obtain ⟨other, hother, hsame⟩ := List.mem_map.1 hname
    obtain ⟨hmem, hkind⟩ := List.mem_filter.1 hother
    rwa [← List.inj_on_of_nodup_map h hmem hitem hsame]
  · intro hkind
    exact List.mem_map_of_mem (List.mem_filter.2 ⟨hitem, hkind⟩)

/-- The entries for units whose reports are about their files. -/
theorem acceptance_entries (failed : List String) {units : List CompilationUnit}
    (h : ∀ unit ∈ units, unit.report.file = unit.file) :
    (units.map (acceptance failed)).map
        (fun entry => (entry.file, entry.problemCount, entry.lineCount)) =
      units.map (fun unit => (unit.file, unit.report.problemCount, unit.report.separators.length)) ∧
    ((units.map (acceptance failed)).filter (·.disposition = .rebuilt)).map Acceptance.file =
      (units.filter CompilationUnit.isRebuilt).map CompilationUnit.file := by
  constructor
  · rw [List.map_map]
    refine List.map_congr_left fun unit hunit => ?_
    simp [acceptance, h unit hunit, UnitReport.lineCount]
  · have hrebuilt (unit : CompilationUnit) :
        decide ((acceptance failed unit).disposition = .rebuilt) = unit.isRebuilt := by
      unfold acceptance dispositionOf CompilationUnit.isRebuilt
      split
      next hstate => simp [hstate]
      next hstate => split <;> simp [hstate]
    rw [List.filter_map, List.map_map]
    have hkind : ((fun entry : Acceptance => decide (entry.disposition = .rebuilt)) ∘
        acceptance failed) = CompilationUnit.isRebuilt := funext hrebuilt
    rw [hkind]
    exact List.map_congr_left fun unit hunit => h unit (List.mem_filter.1 hunit).1

/-- What a report says of the units that are put back, and of the registry they come back to. -/
theorem putBack_accounts {units : List CompilationUnit} {report : RebuildReport}
    (hunits : ∀ unit ∈ registry.units, unit.IsCompiled)
    (haccounts : RebuildReport.Accounts {} report (registry.selected selected) units) :
    (registry.putBack selected units).slots.map (Option.map fun unit => (unit.file, unit.report)) =
      registry.slots.map (Option.map fun unit => (unit.file, unit.report)) ∧
    (∀ unit ∈ (registry.putBack selected units).units, unit.report.file = unit.file) ∧
    (registry.putBack selected units).units.filter CompilationUnit.isRebuilt =
      units.filter CompilationUnit.isRebuilt := by
  rw [registry.selected_eq_pickFrom] at haccounts
  have hslots := units_putBackFrom (fun unit => (unit.file, unit.report)) haccounts.same
  refine ⟨hslots, fun unit hunit => ?_, rebuilt_putBackFrom ?_ fun unit hunit => ?_⟩
  · have hview := List.mem_map_of_mem (f := fun unit => (unit.file, unit.report)) hunit
    rw [Registry.map_units_congr registry hslots] at hview
    obtain ⟨old, hold, heq⟩ := List.mem_map.1 hview
    obtain ⟨hfile, hreport⟩ := Prod.mk.inj heq
    rw [← hfile, ← hreport]
    exact (hunits old hold).report_file
  · have hlength := congrArg List.length haccounts.same
    rwa [List.length_map, List.length_map] at hlength
  · exact (hunits unit (List.mem_filterMap.2 ⟨some unit, hunit, rfl⟩)).isRebuilt_eq

/-- **A batch that is rebuilt and ended accounts for every unit of its registry.** -/
theorem rebuildBatch_accounts (hunits : ∀ unit ∈ registry.units, unit.IsCompiled)
    (hfiles : filesAt registry selected = (registry.selected selected).map CompilationUnit.file)
    (hnodup : ((registry.selected selected).map CompilationUnit.file).Nodup)
    (h : (rebuildBatch builder level registry selected state).value = (.ok outcome, after)) :
    (rebuiltRegistry builder level registry selected state).slots.map
        (Option.map fun unit => (unit.file, unit.report)) =
      registry.slots.map (Option.map fun unit => (unit.file, unit.report)) ∧
      outcome.Accounts (rebuiltRegistry builder level registry selected state) := by
  obtain ⟨next, report, units, shop, last, hbegin, hrebuild, hend, h⟩ := rebuildBatch_eq_ok h
  rw [finishBatch_ended hend] at h
  cases h
  have hregistry : rebuiltRegistry builder level registry selected state =
      registry.putBack selected units := by
    rw [rebuiltRegistry, hbegin, hrebuild]
  rw [hregistry]
  have hpicked : ∀ unit ∈ registry.selected selected, unit.IsCompiled := fun unit hunit =>
    hunits unit ((registry.selected_sublist selected).subset hunit)
  have haccounts := rebuildFrom_accounts hpicked hrebuild
  obtain ⟨hslots, hreports, hrebuilt⟩ := putBack_accounts hunits haccounts
  have hsame : units.map CompilationUnit.file = filesAt registry selected := by
    rw [hfiles]
    simpa [Function.comp_def] using congrArg (List.map Prod.fst) haccounts.same
  have hall : (registry.putBack selected units).units.map CompilationUnit.file =
      registry.units.map CompilationUnit.file := by
    simpa [Function.comp_def] using
      congrArg (List.map Prod.fst) (Registry.map_units_congr registry hslots)
  obtain ⟨hentries, hmarked⟩ := acceptance_entries (report.failures.map RebuildError.file) hreports
  obtain ⟨haccepted, hcount, hlines⟩ := foldl_accept (report.failures.map RebuildError.file)
    (registry.putBack selected units).units {}
  rw [← acceptAll_tally] at haccepted hcount hlines
  -- Every unit of the batch has a file of its own, so that a file tells which unit is meant.
  have hunique : (units.map CompilationUnit.file).Nodup := by rwa [hsame, hfiles]
  have hkind {unit : CompilationUnit} (hunit : unit ∈ units) :
      unit.file ∈ report.rebuilt ↔ unit.isRebuilt = true := by
    rw [haccounts.rebuilt]
    exact mem_map_filter_iff hunique hunit
  refine ⟨hslots, ?_⟩
  constructor
  · rfl
  · rw [acceptAll_slots]
  · rw [haccepted]
    exact hentries
  · rw [haccepted, hcount]
    simp
  · rw [haccepted, hlines]
    simp [acceptance, Function.comp_def]
  · rw [haccepted]
    refine hmarked.trans ?_
    rw [hrebuilt, haccounts.rebuilt]
    rfl
  · rw [hall]
    exact hfiles ▸ (registry.selected_sublist selected).map _
  · exact hfiles ▸ hnodup
  · refine haccounts.rebuilt.trans ?_
    rw [← hsame, List.filter_map]
    refine congrArg (List.map CompilationUnit.file) (List.filter_congr fun unit hunit => ?_)
    simp [hkind hunit]
  · refine haccounts.failed.trans ?_
    rw [← hsame, List.filter_map]
    refine congrArg (List.map CompilationUnit.file) (List.filter_congr fun unit hunit => ?_)
    simp [hkind hunit]

end

/-! ### Runs -/

/-- The units of the batch that a command line comes to are as compiling leaves them. -/
theorem commandLine_isCompiled {β : Type} {tree : FileTree} {settings : RunSettings}
    {arguments : List String} {state before : RunState SourceFrontEnd β} {batch : Batch}
    (h : commandLine (sourceFrontEnd tree) tree settings arguments state = (.ok batch, before)) :
    ∀ unit, some unit ∈ batch.registry.slots → unit.IsCompiled := by
  obtain ⟨remaining, -, hcompile⟩ := commandLine_ok h
  obtain ⟨options, -, hoptions, -⟩ := compile_holds hcompile
  rw [compile_compiledFor hoptions] at hcompile
  obtain ⟨hbatch, -⟩ := Prod.mk.inj hcompile
  obtain rfl := Except.ok.inj hbatch
  intro unit hunit
  obtain ⟨place, hplace⟩ := Registry.mem_units_iff.1 (List.mem_filterMap.2 ⟨some unit, hunit, rfl⟩)
  exact compiled_isCompiled tree _ _ _ place unit hplace

/-- **A run that ends accounts for every unit of its batch**: whatever the builder answered, each unit
is accepted once at its place and its slot is empty then, the counts are those of the entries, and the
files that were selected are those that were rebuilt and those that failed. -/
theorem run_accounts {β : Type} (tree : FileTree) (builder : Builder β) (settings : RunSettings)
    (arguments : List String) (state : RunState SourceFrontEnd β)
    {outcome : Outcome} {after : RunState SourceFrontEnd β}
    (h : (run (sourceFrontEnd tree) builder tree settings arguments state).value =
      (.ok outcome, after)) :
    ∃ batch before,
      commandLine (sourceFrontEnd tree) tree settings arguments state = (.ok batch, before) ∧
      let registry := acceptedRegistry (sourceFrontEnd tree) builder batch before
      registry.slots.map (Option.map CompilationUnit.file) =
        batch.registry.slots.map (Option.map CompilationUnit.file) ∧
      outcome.Accounts registry := by
  rw [value_run] at h
  rcases hline : commandLine (sourceFrontEnd tree) tree settings arguments state
    with ⟨answer, before⟩
  rw [hline] at h
  cases answer with
  | error e => cases h
  | ok batch =>
  obtain ⟨-, selected, hvisit, hrebuild⟩ := runBatch_ended h
  obtain ⟨hunits, hfiles⟩ := selectFrom_isCompiled tree (commandLine_isCompiled hline) hvisit
  refine ⟨batch, before, rfl, ?_⟩
  have hregistry : acceptedRegistry (sourceFrontEnd tree) builder batch before =
      rebuiltRegistry builder batch.level (visitedRegistry (sourceFrontEnd tree) builder batch before)
        selected (before.visited (visitBatch (sourceFrontEnd tree) builder batch before)) := by
    simp only [acceptedRegistry, hvisit]
  rw [hregistry]
  obtain ⟨hslots, haccounts⟩ := rebuildBatch_accounts
    (fun unit hunit => by
      obtain ⟨slot, hslot, rfl⟩ := List.mem_filterMap.1 hunit
      exact hunits unit hslot)
    ((filesAt_visitedRegistry hvisit).trans (by rw [selected_visitedRegistry hvisit]))
    (by
      rw [selected_visitedRegistry hvisit]
      exact chosenFrom_nodup (sourceFrontEnd_keepsFiles tree) _ _ _ _ _) hrebuild
  refine ⟨?_, haccounts⟩
  have hnames := congrArg (List.map (Option.map Prod.fst)) hslots
  simp only [List.map_map, Function.comp_def, Option.map_map] at hnames
  exact hnames.trans hfiles

/-- Three classes in files of their own. -/
def threeClasses : FileTree where
  entries := [(["A.java"], .file "class A \x7b\n\x7d\n".toUTF8),
    (["B.java"], .file "class B \x7b \x7d\n".toUTF8), (["C.java"], .file "class C \x7b \x7d".toUTF8)]

/-- A builder that rejects the class of one file and does not ask for another file. -/
def choosyBuilder : ScriptedBuilder TreeBuilder where
  inner := {}
  script :=
    { failure := some { entryPoint := "enter_type", file := some "B.java" }
      specified := [("C.java", false)] }

/-- Of three files one is rebuilt, one fails and one is not asked for. -/
theorem run_accounts_choosy :
    let arguments := ["A.java", "B.java", "C.java"]
    ∃ outcome after batch before,
      (run (sourceFrontEnd threeClasses) (scriptedBuilder treeBuilder) threeClasses {} arguments
        { front := {}, builder := choosyBuilder }).value = (.ok outcome, after) ∧
      outcome.selected = ["A.java", "B.java"] ∧ outcome.rebuilt = ["A.java"] ∧
      outcome.failures.map RebuildError.file = ["B.java"] ∧ outcome.lineCount = 3 ∧
      outcome.Accounts
        (acceptedRegistry (sourceFrontEnd threeClasses) (scriptedBuilder treeBuilder) batch
          before) := by
  intro arguments
  have hfound : (run (sourceFrontEnd threeClasses) (scriptedBuilder treeBuilder) threeClasses {}
      arguments { front := {}, builder := choosyBuilder }).value.1.toOption.map
        (fun outcome => (outcome.selected, outcome.rebuilt,
          outcome.failures.map RebuildError.file, outcome.lineCount)) =
      some (["A.java", "B.java"], ["A.java"], ["B.java"], 3) := by decide +kernel
  rcases hrun : (run (sourceFrontEnd threeClasses) (scriptedBuilder treeBuilder) threeClasses {}
    arguments { front := {}, builder := choosyBuilder }).value with ⟨answer, after⟩
  rw [hrun] at hfound
  cases answer with
  | error e => cases hfound
  | ok outcome =>
      obtain ⟨batch, before, -, -, haccounts⟩ := run_accounts threeClasses
        (scriptedBuilder treeBuilder) {} arguments { front := {}, builder := choosyBuilder } hrun
      simp only [Except.toOption, Option.map_some, Option.some.injEq, Prod.mk.injEq] at hfound
      obtain ⟨hselected, hrebuilt, hfailed, hlines⟩ := hfound
      exact ⟨outcome, after, batch, before, rfl, hselected, hrebuilt, hfailed, hlines, haccounts⟩

end JavaOutline
