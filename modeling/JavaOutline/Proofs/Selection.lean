/-
**Which units a visit selects.**

A visit returns the numbers of the slots it selected and the slots as they are afterwards.  The units
that are rebuilt are looked up in those slots, by number, once in the order of the slots and once in
the order of the numbers.  Both give the units that the visit chose, in the order in which it came to
them.

Main definitions:

* `chosenFrom`, `chosenUnits` — the units that a visit chooses, as they are afterwards;
* `FrontEnd.KeepsFiles` — a front end whose checks leave the file of a unit alone.

Main results:

* `selected_visitedRegistry`, `filesAt_visitedRegistry` — what is looked up are the units that were
  chosen;
* `chosenFrom_file_new` — their files were not handled before;
* `chosenFrom_nodup` — no file is chosen twice.
-/

import JavaOutline.FrontEnd.Sources
import JavaOutline.Proofs.PickedSlots
import JavaOutline.Proofs.Stages

set_option autoImplicit false

namespace JavaOutline

section

variable {φ σ : Type} {frontEnd : FrontEnd φ} {session : Session} {ask : String → σ → Bool × σ}

/-! ### The units that are chosen -/

/-- The units in slots that a visit chooses, as they are afterwards. -/
def chosenFrom (frontEnd : FrontEnd φ) (session : Session) (ask : String → σ → Bool × σ) :
    Nat → List String → List (Option CompilationUnit) → φ → σ → List CompilationUnit
  | _, _, [], _, _ => []
  | index, seen, none :: slots, front, asked =>
      chosenFrom frontEnd session ask (index + 1) seen slots front asked
  | index, seen, some unit :: slots, front, asked =>
      let visit := (visitUnit frontEnd session ask index seen unit front asked).value
      if visit.isSelected then
        visit.unit :: chosenFrom frontEnd session ask (index + 1) (unit.file :: seen) slots
          visit.front visit.asked
      else chosenFrom frontEnd session ask (index + 1) seen slots visit.front visit.asked

/-- The slots that a visit selected, if it was not ended by an error. -/
def Selection.Selects (found : Selection φ σ) (selected : List Nat) : Prop :=
  found.answer = .ok selected

/-- A selection with one more slot in front selects what it selected before, and the slot. -/
theorem Selection.selects_cons {later : Selection φ σ} {slot : Option CompilationUnit}
    {own : Option Nat} {selected : List Nat} :
    (later.cons slot own).Selects selected ↔
      ∃ rest, later.Selects rest ∧ selected = own.toList ++ rest := by
  unfold Selection.Selects Selection.cons
  cases later.answer with
  | error => simp [Except.map]
  | ok rest => simp [Except.map, eq_comm]

/-- How a visit without errors goes on behind the first slot. -/
theorem selectFrom_some {index : Nat} {seen : List String} {unit : CompilationUnit}
    {slots : List (Option CompilationUnit)} {front : φ} {asked : σ} {selected : List Nat}
    {visit : Visit φ σ}
    (hvisit : (visitUnit frontEnd session ask index seen unit front asked).value = visit)
    (h : (selectFrom frontEnd session ask index seen (some unit :: slots) front
      asked).value.Selects selected) :
    ∃ rest,
      (selectFrom frontEnd session ask index seen (some unit :: slots) front asked).value.slots =
        some visit.unit :: (selectFrom frontEnd session ask (index + 1)
          (if visit.isSelected then unit.file :: seen else seen) slots visit.front
          visit.asked).value.slots ∧
      (selectFrom frontEnd session ask (index + 1)
        (if visit.isSelected then unit.file :: seen else seen) slots visit.front
        visit.asked).value.Selects rest ∧
      selected = (if visit.isSelected then [index] else []) ++ rest ∧
      visit.unit.isBroken = false := by
  cases hbroken : visit.unit.isBroken with
  | true =>
      rw [selectFrom_broken hvisit hbroken] at h
      cases h
  | false =>
      cases hselected : visit.isSelected with
      | true =>
          rw [selectFrom_selected hvisit hbroken hselected] at h ⊢
          obtain ⟨rest, hrest, rfl⟩ := Selection.selects_cons.1 h
          exact ⟨_, rfl, hrest, rfl, rfl⟩
      | false =>
          rw [selectFrom_passed hvisit hbroken hselected] at h ⊢
          obtain ⟨rest, hrest, rfl⟩ := Selection.selects_cons.1 h
          exact ⟨_, rfl, hrest, rfl, rfl⟩

/-- A visit selects slots that it comes to. -/
theorem selectFrom_le {index : Nat} {seen : List String}
    {slots : List (Option CompilationUnit)} {front : φ} {asked : σ} {selected : List Nat}
    (h : (selectFrom frontEnd session ask index seen slots front asked).value.Selects selected)
    {number : Nat} (hnumber : number ∈ selected) : index ≤ number := by
  induction slots generalizing index seen front asked selected with
  | nil => cases h; cases hnumber
  | cons slot slots ih =>
      cases slot with
      | none =>
          obtain ⟨rest, hrest, rfl⟩ := Selection.selects_cons.1 h
          exact Nat.le_of_succ_le (ih hrest hnumber)
      | some unit =>
          obtain ⟨rest, -, hrest, rfl, -⟩ := selectFrom_some rfl h
          rcases List.mem_append.1 hnumber with hown | hlater
          · split at hown
            · exact Nat.le_of_eq (List.mem_singleton.1 hown).symm
            · cases hown
          · exact Nat.le_of_succ_le (ih hrest hlater)

/-! ### Looking the units up -/

/-- In the order of the slots, the units that were chosen are looked up. -/
theorem pickFrom_selectFrom {index : Nat} {seen : List String}
    {slots : List (Option CompilationUnit)} {front : φ} {asked : σ} {selected : List Nat}
    (h : (selectFrom frontEnd session ask index seen slots front asked).value.Selects selected) :
    pickFrom selected index
        (selectFrom frontEnd session ask index seen slots front asked).value.slots =
      chosenFrom frontEnd session ask index seen slots front asked := by
  induction slots generalizing index seen front asked selected with
  | nil => rfl
  | cons slot slots ih =>
      cases slot with
      | none =>
          obtain ⟨rest, hrest, rfl⟩ := Selection.selects_cons.1 h
          rw [selectFrom_none, chosenFrom, ← ih hrest]
          simp only [Selection.cons, Option.toList_none, List.nil_append]
          rw [pickFrom_cons]
          simp
      | some unit =>
          obtain ⟨rest, hslots, hrest, rfl, -⟩ := selectFrom_some rfl h
          rw [hslots, chosenFrom, pickFrom_cons]
          generalize hvisit : (visitUnit frontEnd session ask index seen unit front asked).value =
            visit at hrest ⊢
          have hbehind : index ∉ rest := fun hmem =>
            absurd (selectFrom_le hrest hmem) (by omega)
          cases hselected : visit.isSelected with
          | true =>
              simp only [hselected, if_true] at hrest ⊢
              rw [List.singleton_append, pickFrom_skip (by omega), ih hrest]
              simp
          | false =>
              simp only [hselected, Bool.false_eq_true, if_false] at hrest ⊢
              rw [List.nil_append, if_neg hbehind, ih hrest, List.nil_append]

/-- In the order of the numbers, the units that were chosen are looked up. -/
theorem filterMap_selectFrom {index : Nat} {seen : List String}
    {slots : List (Option CompilationUnit)} {front : φ} {asked : σ} {selected : List Nat}
    (ahead : List (Option CompilationUnit)) (hahead : ahead.length = index)
    (h : (selectFrom frontEnd session ask index seen slots front asked).value.Selects selected) :
    selected.filterMap (fun number => ((ahead ++
        (selectFrom frontEnd session ask index seen slots front
          asked).value.slots)[number]?).join) =
      chosenFrom frontEnd session ask index seen slots front asked := by
  -- The slots ahead are carried along, so that numbers mean the same at every slot.
  induction slots generalizing ahead index seen front asked selected with
  | nil => cases h; rfl
  | cons slot slots ih =>
      cases slot with
      | none =>
          obtain ⟨rest, hrest, rfl⟩ := Selection.selects_cons.1 h
          have hlater := ih (ahead ++ [none]) (by simp [hahead]) hrest
          rw [List.append_assoc] at hlater
          rw [chosenFrom, ← hlater]
          rfl
      | some unit =>
          obtain ⟨rest, hslots, hrest, rfl, -⟩ := selectFrom_some rfl h
          rw [hslots, chosenFrom]
          generalize hvisit : (visitUnit frontEnd session ask index seen unit front asked).value =
            visit at hrest ⊢
          have hlater := ih (ahead ++ [some visit.unit]) (by simp [hahead]) hrest
          rw [List.append_assoc, List.singleton_append] at hlater
          cases hselected : visit.isSelected with
          | true =>
              simp only [hselected, if_true] at hlater ⊢
              rw [List.singleton_append, List.filterMap_cons, ← hlater]
              simp [← hahead]
          | false =>
              simp only [hselected, Bool.false_eq_true, if_false] at hlater ⊢
              rw [List.nil_append, hlater]

/-! ### Files that are chosen -/

/-- A front end whose checks leave the file of a unit alone. -/
def FrontEnd.KeepsFiles (frontEnd : FrontEnd φ) : Prop :=
  ∀ unit index front, (frontEnd.process unit index front).value.1.file = unit.file

/-- The front end over source files leaves the file of a unit alone. -/
theorem sourceFrontEnd_keepsFiles (tree : FileTree) : (sourceFrontEnd tree).KeepsFiles := by
  intro unit index front
  have hbodies : (SourceFrontEnd.completeBodies unit).file = unit.file := by
    unfold SourceFrontEnd.completeBodies
    split <;> rfl
  have hcheck : (SourceFrontEnd.check (SourceFrontEnd.completeBodies unit)).file =
      (SourceFrontEnd.completeBodies unit).file := by
    unfold SourceFrontEnd.check
    split <;> rfl
  exact hcheck.trans hbodies

/-- A unit is selected if it is asked for and its file was not handled before. -/
theorem visitUnit_isSelected (index : Nat) (seen : List String) (unit : CompilationUnit)
    (front : φ) (asked : σ) :
    (visitUnit frontEnd session ask index seen unit front asked).value.isSelected =
      (!session.isProcessed unit.file && !seen.contains unit.file && (ask unit.file asked).1) := by
  rcases visitUnit_cases frontEnd session ask index seen unit front asked with
    ⟨hold, hvalue⟩ | ⟨hnew, hseen, hask, hvalue⟩ | ⟨hnew, hseen, hask, hvalue⟩
  · rw [hvalue]
    rcases hold with hold | hold <;> simp [hold]
  · rw [hvalue, hask]
    simp
  · rw [hvalue, hask, hnew]
    simp [hseen]

/-- A unit that is selected is processed. -/
theorem visitUnit_processed {index : Nat} {seen : List String} {unit : CompilationUnit}
    {front : φ} {asked : σ}
    (h : (visitUnit frontEnd session ask index seen unit front asked).value.isSelected = true) :
    (visitUnit frontEnd session ask index seen unit front asked).value.unit =
      (frontEnd.process unit index front).value.1 := by
  rcases visitUnit_cases frontEnd session ask index seen unit front asked with
    ⟨-, hvalue⟩ | ⟨-, -, -, hvalue⟩ | ⟨-, -, -, hvalue⟩
  · rw [hvalue] at h
    cases h
  · rw [hvalue] at h
    cases h
  · rw [hvalue]

/-- A unit that is selected keeps its file, and the file is new. -/
theorem visitUnit_selected (hkeeps : frontEnd.KeepsFiles) {index : Nat} {seen : List String}
    {unit : CompilationUnit} {front : φ} {asked : σ}
    (h : (visitUnit frontEnd session ask index seen unit front asked).value.isSelected = true) :
    (visitUnit frontEnd session ask index seen unit front asked).value.unit.file = unit.file ∧
      unit.file ∉ session.processed ∧ unit.file ∉ seen := by
  rw [visitUnit_processed h, hkeeps unit index front]
  rw [visitUnit_isSelected] at h
  simp only [Session.isProcessed, Bool.and_eq_true, Bool.not_eq_true',
    List.contains_eq_mem, decide_eq_false_iff_not] at h
  exact ⟨rfl, h.1.1, h.1.2⟩

/-- A file that is chosen was handled neither in an earlier batch nor earlier in this one. -/
theorem chosenFrom_file_new (hkeeps : frontEnd.KeepsFiles) {index : Nat} {seen : List String}
    {slots : List (Option CompilationUnit)} {front : φ} {asked : σ} {unit : CompilationUnit}
    (h : unit ∈ chosenFrom frontEnd session ask index seen slots front asked) :
    unit.file ∉ session.processed ∧ unit.file ∉ seen := by
  induction slots generalizing index seen front asked with
  | nil => cases h
  | cons slot slots ih =>
      cases slot with
      | none => exact ih h
      | some first =>
          rw [chosenFrom] at h
          split at h
          next hselected =>
            obtain ⟨hfile, hprocessed, hseen⟩ := visitUnit_selected hkeeps hselected
            rcases List.mem_cons.1 h with rfl | hlater
            · rw [hfile]
              exact ⟨hprocessed, hseen⟩
            · obtain ⟨hleft, hright⟩ := ih hlater
              exact ⟨hleft, fun hmem => hright (List.mem_cons_of_mem _ hmem)⟩
          next => exact ih h

/-- No file is chosen twice. -/
theorem chosenFrom_nodup (hkeeps : frontEnd.KeepsFiles) (index : Nat) (seen : List String)
    (slots : List (Option CompilationUnit)) (front : φ) (asked : σ) :
    ((chosenFrom frontEnd session ask index seen slots front asked).map
      CompilationUnit.file).Nodup := by
  induction slots generalizing index seen front asked with
  | nil => exact List.nodup_nil
  | cons slot slots ih =>
      cases slot with
      | none => exact ih (index + 1) seen front asked
      | some unit =>
          rw [chosenFrom]
          split
          next hselected =>
            obtain ⟨hfile, -, -⟩ := visitUnit_selected hkeeps hselected
            refine List.nodup_cons.2 ⟨?_, ih _ _ _ _⟩
            -- Behind this slot its file counts as seen, and no file that was seen is chosen.
            intro hmem
            obtain ⟨other, hother, heq⟩ := List.mem_map.1 hmem
            have hnew := (chosenFrom_file_new hkeeps hother).2
            rw [heq, hfile] at hnew
            exact hnew List.mem_cons_self
          next => exact ih _ _ _ _

/-- What is chosen was a unit of the batch before its check. -/
theorem chosenFrom_processed {index : Nat} {seen : List String}
    {slots : List (Option CompilationUnit)} {front : φ} {asked : σ} {chosen : CompilationUnit}
    (h : chosen ∈ chosenFrom frontEnd session ask index seen slots front asked) :
    ∃ unit place before, some unit ∈ slots ∧
      chosen = (frontEnd.process unit place before).value.1 := by
  induction slots generalizing index seen front asked with
  | nil => cases h
  | cons slot slots ih =>
      cases slot with
      | none =>
          obtain ⟨unit, place, before, hmem, hchosen⟩ := ih h
          exact ⟨unit, place, before, List.mem_cons_of_mem _ hmem, hchosen⟩
      | some first =>
          rw [chosenFrom] at h
          split at h
          next hselected =>
            rcases List.mem_cons.1 h with hfirst | hlater
            · refine ⟨first, index, front, List.mem_cons_self, ?_⟩
              rw [hfirst]
              exact visitUnit_processed hselected
            · obtain ⟨unit, place, before, hmem, hchosen⟩ := ih hlater
              exact ⟨unit, place, before, List.mem_cons_of_mem _ hmem, hchosen⟩
          next =>
            obtain ⟨unit, place, before, hmem, hchosen⟩ := ih h
            exact ⟨unit, place, before, List.mem_cons_of_mem _ hmem, hchosen⟩

/-- Where the answers depend on the file only, the files that are chosen are those asked for and not
handled before, at their first place. -/
theorem chosenFrom_files (hkeeps : frontEnd.KeepsFiles) {wanted : String → Bool}
    (hask : ∀ file asked, (ask file asked).1 = wanted file) (index : Nat) (seen : List String)
    (slots : List (Option CompilationUnit)) (front : φ) (asked : σ) :
    (chosenFrom frontEnd session ask index seen slots front asked).map CompilationUnit.file =
      (((slots.filterMap id).map CompilationUnit.file).filter fun file =>
        !session.isProcessed file && !seen.contains file && wanted file).eraseDups := by
  induction slots generalizing index seen front asked with
  | nil => rfl
  | cons slot slots ih =>
      cases slot with
      | none => exact ih (index + 1) seen front asked
      | some unit =>
          have hselected :
              (visitUnit frontEnd session ask index seen unit front asked).value.isSelected = _ :=
            visitUnit_isSelected index seen unit front asked
          rw [hask] at hselected
          rw [chosenFrom, List.filterMap_cons_some (rfl : id (some unit) = some unit),
            List.map_cons, List.filter_cons, ← hselected]
          split
          next hchosen =>
            obtain ⟨hfile, -, -⟩ := visitUnit_selected hkeeps hchosen
            rw [List.map_cons, hfile, ih, List.eraseDups_cons, List.filter_filter]
            congr 2
            refine List.filter_congr fun file _ => ?_
            by_cases hsame : file = unit.file
            · simp [hsame]
            · simp [hsame]
          next => exact ih _ _ _ _

end

/-! ### The units that a run rebuilds -/

section

variable {φ β : Type} {frontEnd : FrontEnd φ} {builder : Builder β} {batch : Batch}
  {state : RunState φ β} {selected : List Nat}

/-- The units of a batch that a run chooses to rebuild. -/
def chosenUnits (frontEnd : FrontEnd φ) (builder : Builder β) (batch : Batch)
    (state : RunState φ β) : List CompilationUnit :=
  chosenFrom frontEnd state.session (askBuilder builder batch) 0 [] batch.registry.slots state.front
    state.builder

/-- The units that are rebuilt are those that the visit chose. -/
theorem selected_visitedRegistry
    (h : (visitBatch frontEnd builder batch state).answer = .ok selected) :
    (visitedRegistry frontEnd builder batch state).selected selected =
      chosenUnits frontEnd builder batch state :=
  (Registry.selected_eq_pickFrom _ _).trans (pickFrom_selectFrom h)

/-- The files that are reported are those of the units that the visit chose. -/
theorem filesAt_visitedRegistry
    (h : (visitBatch frontEnd builder batch state).answer = .ok selected) :
    filesAt (visitedRegistry frontEnd builder batch state) selected =
      (chosenUnits frontEnd builder batch state).map CompilationUnit.file :=
  congrArg (List.map CompilationUnit.file) (filterMap_selectFrom [] (by rfl) h)

end

end JavaOutline
