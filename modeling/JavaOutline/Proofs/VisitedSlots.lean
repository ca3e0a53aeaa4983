/-
**The visit of a batch, slot by slot.**

A visit goes through the slots of a registry in ascending order.  What it makes of a unit depends on
the file of the unit alone, on what was handled before, and on a rule that says which files are asked
for: a file that was handled before, in an earlier batch or at a slot in front, is marked as such; a
file that nobody asks for is passed over; any other unit is processed, once, and its slot is selected.
The first unit that has an error when it is checked ends the visit, and the slots behind it stay as
they are.

The invariant is stated for the slots in front of a bound.  One slot moves the bound by one, and the
whole visit is an induction over the slots that are left.

Main definitions:

* `askRule` — a rule that says which files are asked for;
* `processEach` — processing units one after another;
* `HandledBefore` — a file was handled before the visit comes to a slot;
* `VisitedUpTo` — what the visit of the slots in front of a bound comes to;
* `VisitEnds` — what the whole visit comes to.

Main results:

* `VisitedUpTo.next` — **one more slot is visited**;
* `selectFrom_visits` — so are all slots that are left, up to the first unit with an error;
* `selectUnits_visits` — **what a visit selects, marks, processes and answers**.
-/

import Mathlib.Data.List.Basic
import JavaOutline.Proofs.Stages

set_option autoImplicit false

namespace JavaOutline

/-! ### Slots of a registry -/

theorem Registry.get?_modify (registry : Registry) (index place : Nat)
    (change : CompilationUnit → CompilationUnit) :
    (registry.modify index change).get? place =
      if index = place then (registry.get? place).map change else registry.get? place := by
  simp only [get?, modify, List.getElem?_modify]
  split
  · cases registry.slots[place]? with
    | none => rfl
    | some slot => cases slot <;> rfl
  · simp

/-- There is no unit behind the last slot. -/
theorem Registry.get?_of_size_le {registry : Registry} {place : Nat} (h : registry.size ≤ place) :
    registry.get? place = none := by
  rw [get?, List.getElem?_eq_none_iff.2 h]
  rfl

theorem Registry.get?_ahead {registry : Registry} {ahead rest : List (Option CompilationUnit)}
    {slot : Option CompilationUnit} (h : registry.slots = ahead ++ slot :: rest) :
    registry.get? ahead.length = slot := by
  simp [get?, h]

/-- Changing the unit behind the slots ahead changes that slot only. -/
theorem Registry.modify_ahead {registry : Registry} {ahead rest : List (Option CompilationUnit)}
    {unit other : CompilationUnit} (h : registry.slots = ahead ++ some unit :: rest) :
    registry.modify ahead.length (fun _ => other) =
      { registry with slots := ahead ++ some other :: rest } := by
  have hslots (ahead : List (Option CompilationUnit)) :
      (ahead ++ some unit :: rest).modify ahead.length (Option.map fun _ => other) =
        ahead ++ some other :: rest := by
    induction ahead with
    | nil => rfl
    | cons slot ahead ih => exact congrArg (slot :: ·) ih
  rw [modify, h, hslots ahead]

/-- The units in slots with given numbers, each with its number. -/
def Registry.numbered (registry : Registry) (numbers : List Nat) : List (Nat × CompilationUnit) :=
  numbers.filterMap fun number => (registry.get? number).map (number, ·)

section

variable {φ σ : Type}

/-! ### Processing units in order -/

/-- Whoever is asked about files answers by a rule. -/
def askRule (wanted : String → Bool) (file : String) (asked : σ) : Bool × σ := (wanted file, asked)

/-- Processes units under their numbers, one after another: the units as they are afterwards, and the
front end. -/
def processEach (frontEnd : FrontEnd φ) :
    List (Nat × CompilationUnit) → φ → List CompilationUnit × φ
  | [], front => ([], front)
  | (number, unit) :: units, front =>
      let first := (frontEnd.process unit number front).value
      let later := processEach frontEnd units first.2
      (first.1 :: later.1, later.2)

/-- One more unit is processed behind the others. -/
theorem processEach_concat {frontEnd : FrontEnd φ} {units : List (Nat × CompilationUnit)}
    {front next : φ} {processed : List CompilationUnit}
    (h : processEach frontEnd units front = (processed, next)) (number : Nat)
    (unit : CompilationUnit) :
    processEach frontEnd (units ++ [(number, unit)]) front =
      (processed ++ [(frontEnd.process unit number next).value.1],
        (frontEnd.process unit number next).value.2) := by
  induction units generalizing front processed with
  | nil =>
      obtain ⟨rfl, rfl⟩ := Prod.mk.inj h
      rfl
  | cons first units ih =>
      obtain ⟨own, other⟩ := first
      obtain ⟨rfl, hnext⟩ := Prod.mk.inj h
      simp only [List.cons_append, processEach]
      rw [ih (Prod.ext rfl hnext)]

/-! ### What was visited -/

/-- A file was handled before the visit comes to a slot: in an earlier batch, or at a slot in front
that was selected. -/
def HandledBefore (session : Session) (registry : Registry) (selected : List Nat) (place : Nat)
    (file : String) : Prop :=
  session.isProcessed file = true ∨
    ∃ earlier ∈ selected, earlier < place ∧
      ∃ unit, registry.get? earlier = some unit ∧ unit.file = file

/-- What the visit of the slots in front of a bound comes to.  Selected are the slots whose file is
asked for and was not handled before; their units were processed, in order and once.  The other units
are marked, and the slots from the bound on are as they were. -/
structure VisitedUpTo (frontEnd : FrontEnd φ) (session : Session) (wanted : String → Bool)
    (before : Registry) (front : φ) (bound : Nat) (selected : List Nat) (after : Registry)
    (last : φ) : Prop where
  ascending : selected.Pairwise (· < ·)
  mem_selected : ∀ place, place ∈ selected ↔
    place < bound ∧ ∃ unit, before.get? place = some unit ∧ wanted unit.file = true ∧
      ¬ HandledBefore session before selected place unit.file
  processed : processEach frontEnd (before.numbered selected) front =
    (selected.filterMap after.get?, last)
  handled : ∀ place unit, place < bound → before.get? place = some unit →
    HandledBefore session before selected place unit.file →
      after.get? place = some { unit with state := .alreadyProcessed }
  passed : ∀ place unit, place < bound → before.get? place = some unit →
    ¬ HandledBefore session before selected place unit.file → wanted unit.file = false →
      after.get? place = some { unit with state := .skippedTransitive }
  empty : ∀ place, before.get? place = none → after.get? place = none
  untouched : ∀ place, bound ≤ place → after.get? place = before.get? place
  size : after.size = before.size

variable {frontEnd : FrontEnd φ} {session : Session} {wanted : String → Bool} {before after : Registry}
  {front last : φ} {bound : Nat} {selected : List Nat} {seen : List String}

/-- At first nothing is visited. -/
theorem VisitedUpTo.start (frontEnd : FrontEnd φ) (session : Session) (wanted : String → Bool)
    (before : Registry) (front : φ) :
    VisitedUpTo frontEnd session wanted before front 0 [] before front where
  ascending := List.Pairwise.nil
  mem_selected place := by simp
  processed := rfl
  handled place unit hplace := absurd hplace (Nat.not_lt_zero place)
  passed place unit hplace := absurd hplace (Nat.not_lt_zero place)
  empty _ h := h
  untouched _ _ := rfl
  size := rfl

/-- Selecting a slot makes no difference up to that slot. -/
theorem handledBefore_concat {place : Nat} (hplace : place ≤ bound) (file : String) :
    HandledBefore session before (selected ++ [bound]) place file ↔
      HandledBefore session before selected place file := by
  refine or_congr_right ⟨?_, ?_⟩
  · rintro ⟨earlier, hmem, hlt, hfile⟩
    rcases List.mem_append.1 hmem with hold | hnew
    · exact ⟨earlier, hold, hlt, hfile⟩
    · have heq : earlier = bound := List.mem_singleton.1 hnew
      omega
  · rintro ⟨earlier, hmem, hlt, hfile⟩
    exact ⟨earlier, List.mem_append_left _ hmem, hlt, hfile⟩

/-- The files that count as seen are those of the slots that were selected. -/
def SeenIn (before : Registry) (selected : List Nat) (seen : List String) : Prop :=
  ∀ file, file ∈ seen ↔ ∃ place ∈ selected, ∃ unit, before.get? place = some unit ∧ unit.file = file

namespace VisitedUpTo

variable (h : VisitedUpTo frontEnd session wanted before front bound selected after last)

include h

theorem lt_of_mem {place : Nat} (hplace : place ∈ selected) : place < bound :=
  ((h.mem_selected place).1 hplace).1

/-- What the visit asks at a slot is whether the file was handled before. -/
theorem handledBefore_iff (hseen : SeenIn before selected seen) (file : String) :
    HandledBefore session before selected bound file ↔
      session.isProcessed file = true ∨ file ∈ seen := by
  rw [hseen file]
  refine or_congr_right ⟨?_, ?_⟩
  · rintro ⟨earlier, hmem, -, hfile⟩
    exact ⟨earlier, hmem, hfile⟩
  · rintro ⟨earlier, hmem, hfile⟩
    exact ⟨earlier, hmem, h.lt_of_mem hmem, hfile⟩

theorem not_handledBefore (hseen : SeenIn before selected seen) {file : String}
    (hprocessed : session.isProcessed file = false) (hunseen : file ∉ seen) :
    ¬ HandledBefore session before selected bound file := by
  rw [h.handledBefore_iff hseen, hprocessed]
  rintro (hmark | hmem)
  · cases hmark
  · exact hunseen hmem

/-- A slot is visited and not selected: it is empty, its file was handled before, or nobody asks for
it. -/
theorem next_unselected {next : Registry} (hsize : next.size = after.size)
    (hother : ∀ place, place ≠ bound → next.get? place = after.get? place)
    (hempty : before.get? bound = none → next.get? bound = none)
    (hunit : ∀ unit, before.get? bound = some unit →
      (HandledBefore session before selected bound unit.file ∧
          next.get? bound = some { unit with state := .alreadyProcessed }) ∨
        (¬ HandledBefore session before selected bound unit.file ∧ wanted unit.file = false ∧
          next.get? bound = some { unit with state := .skippedTransitive })) :
    VisitedUpTo frontEnd session wanted before front (bound + 1) selected next last where
  ascending := h.ascending
  mem_selected place := by
    rw [h.mem_selected place]
    refine ⟨fun ⟨hlt, hrest⟩ => ⟨by omega, hrest⟩, ?_⟩
    rintro ⟨hlt, unit, hfound, hwanted, hnew⟩
    refine ⟨Nat.lt_of_le_of_ne (by omega) ?_, unit, hfound, hwanted, hnew⟩
    rintro rfl
    rcases hunit unit hfound with ⟨hold, -⟩ | ⟨-, hunwanted, -⟩
    · exact hnew hold
    · rw [hunwanted] at hwanted
      cases hwanted
  processed := by
    rw [h.processed]
    refine congrArg (·, last) (List.filterMap_congr fun place hplace => ?_)
    exact (hother place (Nat.ne_of_lt (h.lt_of_mem hplace))).symm
  handled place unit hlt hfound hold := by
    rcases Nat.lt_or_eq_of_le (Nat.le_of_lt_succ hlt) with hfront | rfl
    · rw [hother place (Nat.ne_of_lt hfront)]
      exact h.handled place unit hfront hfound hold
    · rcases hunit unit hfound with ⟨-, hnext⟩ | ⟨hnew, -⟩
      · exact hnext
      · exact absurd hold hnew
  passed place unit hlt hfound hnew hunwanted := by
    rcases Nat.lt_or_eq_of_le (Nat.le_of_lt_succ hlt) with hfront | rfl
    · rw [hother place (Nat.ne_of_lt hfront)]
      exact h.passed place unit hfront hfound hnew hunwanted
    · rcases hunit unit hfound with ⟨hold, -⟩ | ⟨-, -, hnext⟩
      · exact absurd hold hnew
      · exact hnext
  empty place hnone := by
    by_cases hplace : place = bound
    · subst hplace
      exact hempty hnone
    · rw [hother place hplace]
      exact h.empty place hnone
  untouched place hle := by
    rw [hother place (by omega)]
    exact h.untouched place (by omega)
  size := hsize.trans h.size

/-- A slot is visited and selected: its file is asked for and was not handled before.  Its unit is
processed behind the others. -/
theorem next_selected {next : Registry} {unit : CompilationUnit} (hsize : next.size = after.size)
    (hother : ∀ place, place ≠ bound → next.get? place = after.get? place)
    (hfound : before.get? bound = some unit) (hwanted : wanted unit.file = true)
    (hnew : ¬ HandledBefore session before selected bound unit.file)
    (hnext : next.get? bound = some (frontEnd.process unit bound last).value.1) :
    VisitedUpTo frontEnd session wanted before front (bound + 1) (selected ++ [bound]) next
      (frontEnd.process unit bound last).value.2 where
  ascending := by
    refine List.pairwise_append.2 ⟨h.ascending, List.pairwise_singleton _ _, ?_⟩
    intro place hplace other hbound
    rw [List.mem_singleton.1 hbound]
    exact h.lt_of_mem hplace
  mem_selected place := by
    rcases Nat.lt_trichotomy place bound with hlt | rfl | hgt
    · simp only [List.mem_append, List.mem_singleton, handledBefore_concat (Nat.le_of_lt hlt),
        h.mem_selected, hlt, Nat.ne_of_lt hlt, or_false, true_and, Nat.lt_succ_of_lt hlt]
    · simp only [handledBefore_concat (Nat.le_refl _), List.mem_append, List.mem_singleton, or_true,
        true_iff]
      exact ⟨Nat.lt_succ_self _, unit, hfound, hwanted, hnew⟩
    · refine ⟨fun hmem => ?_, fun hbehind => ?_⟩
      · rcases List.mem_append.1 hmem with hold | hown
        · have hlt := h.lt_of_mem hold
          omega
        · have heq := List.mem_singleton.1 hown
          omega
      · omega
  processed := by
    have hnumbered : before.numbered (selected ++ [bound]) =
        before.numbered selected ++ [(bound, unit)] := by
      simp [Registry.numbered, List.filterMap_append, hfound]
    have hslots : (selected ++ [bound]).filterMap next.get? =
        selected.filterMap after.get? ++ [(frontEnd.process unit bound last).value.1] := by
      rw [List.filterMap_append]
      have hkept : selected.filterMap next.get? = selected.filterMap after.get? :=
        List.filterMap_congr fun place hplace => hother place (Nat.ne_of_lt (h.lt_of_mem hplace))
      simp [hkept, hnext]
    rw [hnumbered, hslots, processEach_concat h.processed]
  handled place other hlt hother' hold := by
    rw [handledBefore_concat (Nat.le_of_lt_succ hlt)] at hold
    rcases Nat.lt_or_eq_of_le (Nat.le_of_lt_succ hlt) with hfront | rfl
    · rw [hother place (Nat.ne_of_lt hfront)]
      exact h.handled place other hfront hother' hold
    · rw [hfound] at hother'
      cases hother'
      exact absurd hold hnew
  passed place other hlt hother' hfresh hunwanted := by
    rw [handledBefore_concat (Nat.le_of_lt_succ hlt)] at hfresh
    rcases Nat.lt_or_eq_of_le (Nat.le_of_lt_succ hlt) with hfront | rfl
    · rw [hother place (Nat.ne_of_lt hfront)]
      exact h.passed place other hfront hother' hfresh hunwanted
    · rw [hfound] at hother'
      cases hother'
      rw [hwanted] at hunwanted
      cases hunwanted
  empty place hnone := by
    have hplace : place ≠ bound := by
      rintro rfl
      rw [hfound] at hnone
      cases hnone
    rw [hother place hplace]
    exact h.empty place hnone
  untouched place hle := by
    rw [hother place (by omega)]
    exact h.untouched place (by omega)
  size := hsize.trans h.size

/-- **One more slot is visited**: the visit of its unit selects it or not, and puts the unit back as
it is then. -/
theorem next (hseen : SeenIn before selected seen) {unit : CompilationUnit}
    (hfound : before.get? bound = some unit) (asked : σ) {visit : Visit φ σ}
    (hvisit : (visitUnit frontEnd session (askRule wanted) bound seen unit last asked).value =
      visit) :
    VisitedUpTo frontEnd session wanted before front (bound + 1)
      (if visit.isSelected then selected ++ [bound] else selected)
      (after.modify bound fun _ => visit.unit) visit.front := by
  have hsize : (after.modify bound fun _ => visit.unit).size = after.size := by
    simp [Registry.modify, Registry.size]
  have hother (place : Nat) (hplace : place ≠ bound) :
      (after.modify bound fun _ => visit.unit).get? place = after.get? place := by
    rw [Registry.get?_modify, if_neg hplace.symm]
  have hown : (after.modify bound fun _ => visit.unit).get? bound = some visit.unit := by
    rw [Registry.get?_modify, if_pos rfl, h.untouched bound (Nat.le_refl _), hfound]
    rfl
  have hempty (hnone : before.get? bound = none) :
      (after.modify bound fun _ => visit.unit).get? bound = none := by
    rw [hfound] at hnone
    cases hnone
  rcases visitUnit_cases frontEnd session (askRule wanted) bound seen unit last asked with
    ⟨hold, hvalue⟩ | ⟨hprocessed, hunseen, hask, hvalue⟩ | ⟨hprocessed, hunseen, hask, hvalue⟩
  · obtain rfl := hvalue.symm.trans hvisit
    refine h.next_unselected hsize hother hempty fun other hsame => ?_
    rw [hfound] at hsame
    cases hsame
    exact .inl ⟨(h.handledBefore_iff hseen _).2 hold, hown⟩
  · obtain rfl := hvalue.symm.trans hvisit
    refine h.next_unselected hsize hother hempty fun other hsame => ?_
    rw [hfound] at hsame
    cases hsame
    exact .inr ⟨h.not_handledBefore hseen hprocessed hunseen, hask, hown⟩
  · obtain rfl := hvalue.symm.trans hvisit
    exact h.next_selected hsize hother hfound hask (h.not_handledBefore hseen hprocessed hunseen) hown

end VisitedUpTo

/-! ### The whole visit -/

/-- What a visit comes to.  Without an error all slots were visited, and no unit is broken.  Otherwise
the error is that of the first unit that is broken when it is checked, under the name that the unit
was visited for, and no slot behind it was visited. -/
def VisitEnds (frontEnd : FrontEnd φ) (session : Session) (wanted : String → Bool) (before : Registry)
    (front : φ) (after : Registry) (last : φ) : Except DiagnosticError (List Nat) → Prop
  | .ok selected =>
      VisitedUpTo frontEnd session wanted before front before.size selected after last ∧
        ∀ place unit, after.get? place = some unit → unit.isBroken = false
  | .error e =>
      ∃ place unit broken selected,
        before.get? place = some unit ∧ after.get? place = some broken ∧ broken.isBroken = true ∧
        e = { file := unit.file, errorCount := broken.report.errorCount
              hasSyntaxError := broken.hasSyntaxError } ∧
        (∀ earlier other, earlier < place → after.get? earlier = some other →
          other.isBroken = false) ∧
        VisitedUpTo frontEnd session wanted before front (place + 1) selected after last

/-- A file counts as seen once its slot is selected. -/
theorem SeenIn.next (h : SeenIn before selected seen) {unit : CompilationUnit}
    (hfound : before.get? bound = some unit) (isSelected : Bool) :
    SeenIn before (if isSelected then selected ++ [bound] else selected)
      (if isSelected then unit.file :: seen else seen) := by
  cases isSelected with
  | false => exact h
  | true =>
      intro file
      simp only [if_true, List.mem_cons, h file, List.mem_append, List.not_mem_nil, or_false]
      constructor
      · rintro (rfl | ⟨place, hplace, hfile⟩)
        · exact ⟨bound, .inr rfl, unit, hfound, rfl⟩
        · exact ⟨place, .inl hplace, hfile⟩
      · rintro ⟨place, hplace | rfl, other, hother, hfile⟩
        · exact .inr ⟨place, hplace, other, hother, hfile⟩
        · rw [hfound] at hother
          cases hother
          exact .inl hfile.symm

/-- How a visit ends is not changed by moving the first slot that is left to those ahead. -/
theorem VisitEnds.cons {later : Selection φ σ} {ahead : List (Option CompilationUnit)}
    {slot : Option CompilationUnit} {own : Option Nat}
    (h : VisitEnds frontEnd session wanted before front
      { after with slots := ahead ++ [slot] ++ later.slots } later.front
      (later.answer.map (selected ++ own.toList ++ ·))) :
    VisitEnds frontEnd session wanted before front
      { after with slots := ahead ++ (later.cons slot own).slots } (later.cons slot own).front
      ((later.cons slot own).answer.map (selected ++ ·)) := by
  have hanswer : (later.cons slot own).answer.map (selected ++ ·) =
      later.answer.map (selected ++ own.toList ++ ·) := by
    unfold Selection.cons
    cases later.answer with
    | error e => rfl
    | ok rest => simp [Except.map]
  rw [hanswer]
  simpa [Selection.cons] using h

/-- The visit goes on behind a unit without an error. -/
theorem selectFrom_sound {rest : List (Option CompilationUnit)} {unit : CompilationUnit}
    {asked : σ} {visit : Visit φ σ}
    (hvisit : (visitUnit frontEnd session (askRule wanted) bound seen unit last asked).value = visit)
    (hsound : visit.unit.isBroken = false) :
    (selectFrom frontEnd session (askRule wanted) bound seen (some unit :: rest) last asked).value =
      (selectFrom frontEnd session (askRule wanted) (bound + 1)
        (if visit.isSelected then unit.file :: seen else seen) rest visit.front
        visit.asked).value.cons (some visit.unit) (if visit.isSelected then some bound else none) := by
  cases hselected : visit.isSelected with
  | true => exact selectFrom_selected hvisit hsound hselected
  | false => exact selectFrom_passed hvisit hsound hselected

/-- **The slots that are left are visited in order**, behind others that were visited without an
error. -/
theorem selectFrom_visits (ahead rest : List (Option CompilationUnit)) (asked : σ)
    (hslots : after.slots = ahead ++ rest) (hseen : SeenIn before selected seen)
    (hsound : ∀ place unit, place < ahead.length → after.get? place = some unit →
      unit.isBroken = false)
    (h : VisitedUpTo frontEnd session wanted before front ahead.length selected after last)
    {found : Selection φ σ}
    (hfound : (selectFrom frontEnd session (askRule wanted) ahead.length seen rest last asked).value =
      found) :
    VisitEnds frontEnd session wanted before front { after with slots := ahead ++ found.slots }
      found.front (found.answer.map (selected ++ ·)) := by
  -- The induction is on the slots that are left; those ahead move along with the bound.
  induction rest generalizing ahead selected seen after last asked found with
  | nil =>
      subst hfound
      have hsame : { after with slots := ahead ++ [] } = after := by rw [← hslots]
      have hlength : ahead.length = before.size := by
        rw [← h.size, Registry.size, hslots, List.append_nil]
      rw [hlength] at h hsound
      rw [selectFrom_nil, hsame]
      refine ⟨by simpa using h, fun place unit hunit => hsound place unit ?_ hunit⟩
      refine Decidable.byContradiction fun hbehind => ?_
      rw [Registry.get?_of_size_le (by rw [h.size]; omega)] at hunit
      cases hunit
  | cons slot rest ih =>
      have hslot : before.get? ahead.length = slot := by
        rw [← h.untouched ahead.length (Nat.le_refl _)]
        exact Registry.get?_ahead hslots
      have hlength (slot : Option CompilationUnit) : (ahead ++ [slot]).length = ahead.length + 1 :=
        List.length_append
      cases slot with
      | none =>
          have hunit : after.get? ahead.length = none := Registry.get?_ahead hslots
          have hnext := h.next_unselected rfl (fun _ _ => rfl) (fun _ => hunit) fun unit hsome => by
            rw [hslot] at hsome
            cases hsome
          have hsound' : ∀ place unit, place < ahead.length + 1 → after.get? place = some unit →
              unit.isBroken = false := by
            intro place unit hplace hsome
            rcases Nat.lt_or_eq_of_le (Nat.le_of_lt_succ hplace) with hfront | rfl
            · exact hsound place unit hfront hsome
            · rw [hunit] at hsome
              cases hsome
          rw [← hlength none] at hnext hsound'
          rw [← hfound, selectFrom_none]
          refine VisitEnds.cons ?_
          rw [Option.toList_none, List.append_nil]
          refine ih (ahead ++ [none]) asked (by simpa using hslots) hseen hsound' hnext ?_
          rw [hlength]
      | some unit =>
          generalize hvisit :
            (visitUnit frontEnd session (askRule wanted) ahead.length seen unit last asked).value =
              visit
          have hafter : (after.modify ahead.length fun _ => visit.unit) =
              { after with slots := ahead ++ some visit.unit :: rest } :=
            Registry.modify_ahead hslots
          have hnext := h.next hseen hslot asked hvisit
          have hown : (after.modify ahead.length fun _ => visit.unit).get? ahead.length =
              some visit.unit := by
            rw [hafter]
            exact Registry.get?_ahead rfl
          have hfront : ∀ place other, place < ahead.length →
              (after.modify ahead.length fun _ => visit.unit).get? place = some other →
                other.isBroken = false := by
            intro place other hplace hother
            rw [Registry.get?_modify, if_neg (Nat.ne_of_gt hplace)] at hother
            exact hsound place other hplace hother
          cases hbroken : visit.unit.isBroken with
          | true =>
              rw [← hfound, selectFrom_broken hvisit hbroken]
              rw [hafter] at hown hnext hfront
              exact ⟨ahead.length, unit, visit.unit, _, hslot, hown, hbroken, rfl, hfront, hnext⟩
          | false =>
              have hsound' : ∀ place other, place < ahead.length + 1 →
                  (after.modify ahead.length fun _ => visit.unit).get? place = some other →
                    other.isBroken = false := by
                intro place other hplace hother
                rcases Nat.lt_or_eq_of_le (Nat.le_of_lt_succ hplace) with hlt | rfl
                · exact hfront place other hlt hother
                · rw [hown] at hother
                  cases hother
                  exact hbroken
              rw [← hlength (some visit.unit)] at hnext hsound'
              rw [← hfound, selectFrom_sound hvisit hbroken]
              refine VisitEnds.cons ?_
              have hlater := ih (ahead ++ [some visit.unit]) visit.asked (by simp [hafter])
                (hseen.next hslot visit.isSelected) hsound' hnext rfl
              rw [hlength, hafter] at hlater
              cases hselected : visit.isSelected with
              | true => simpa [hselected] using hlater
              | false => simpa [hselected] using hlater

/-- **What a visit selects, marks, processes and answers**, for every front end, registry and session
and every rule that says which files are asked for. -/
theorem selectUnits_visits (frontEnd : FrontEnd φ) (session : Session) (wanted : String → Bool)
    (registry : Registry) (front : φ) (asked : σ) :
    ∃ answer after last,
      (selectUnits frontEnd session (askRule wanted) registry front asked).value =
        (answer, after, last, asked) ∧
      VisitEnds frontEnd session wanted registry front after last answer := by
  have hseen : SeenIn registry [] [] := fun file => by simp
  generalize hfound :
    (selectFrom frontEnd session (askRule wanted) 0 [] registry.slots front asked).value = found
  have hasked : found.asked = asked := by
    rw [← hfound]
    exact selectFrom_asked (P := (· = asked)) (fun _ _ h => h) 0 [] registry.slots front rfl
  have hends := selectFrom_visits [] registry.slots asked rfl hseen
    (fun place _ hplace => absurd hplace (Nat.not_lt_zero place))
    (VisitedUpTo.start frontEnd session wanted registry front) hfound
  have hanswer : found.answer.map ([] ++ ·) = found.answer := by
    cases found.answer with
    | error e => rfl
    | ok selected => rfl
  rw [hanswer, List.nil_append] at hends
  refine ⟨found.answer, { registry with slots := found.slots }, found.front, ?_, hends⟩
  simp only [selectUnits, Logged.value_bind, hfound, Logged.value_pure, hasked]

end

end JavaOutline
