/-
**The loop that completes a batch ends.**

The units of a batch are visited one after another, and a visit may add further units behind the
others.  The loop goes on while there is a slot that was not visited, however many there are by then.
It comes to an end, also where files refer to each other in circles: a file is loaded only if it is
not in the batch, so that every file is loaded at most once, and all files that are loaded are among
those that the batch may come to.

The loop is stated without a bound on its turns.  The definition that runs has one, and it is the
loop, since the bound is never reached.

Main definitions:

* `CompletesFrom` — a loop over the slots from a number on, with where it ends;
* `loadedFiles` — the files that were loaded, as the log has them.

Main results:

* `completesFrom_of_size_le` — a bounded loop that was not cut off is the loop;
* `completeFrom_loads` — **the files that are loaded stand behind the others in order**;
* `complete_ends` — **the loop ends, and what it adds is bounded by the files it may come to**.
-/

import Mathlib.Data.Set.Card
import JavaOutline.Proofs.CompletionSteps

set_option autoImplicit false

namespace JavaOutline

namespace SourceFrontEnd

/-! ### The loop -/

/-- The loop over the slots of a batch from a number on: while there is such a slot, its unit is
completed and the next slot follows.  The number of slots is that of the batch at the time. -/
inductive CompletesFrom (tree : FileTree) : Nat → Completion → Logged Completion → Prop
  | done {index : Nat} {state : Completion} (hindex : ¬ index < state.registry.size) :
      CompletesFrom tree index state (pure state)
  | turn {index : Nat} {state : Completion} {last : Logged Completion}
      (hindex : index < state.registry.size)
      (hlater : CompletesFrom tree (index + 1) (completeUnit tree index state).value last) :
      CompletesFrom tree index state (completeUnit tree index state >>= fun _ => last)

variable {tree : FileTree} {state : Completion}

/-- A bounded loop that ends with no more slots than turns is the loop. -/
theorem completesFrom_of_size_le {fuel index : Nat}
    (h : (completeFrom tree fuel index state).value.registry.size ≤ index + fuel) :
    CompletesFrom tree index state (completeFrom tree fuel index state) := by
  induction fuel generalizing index state with
  | zero => exact .done (Nat.not_lt.2 h)
  | succ fuel ih =>
      unfold completeFrom
      split
      next hindex =>
        rw [completeFrom_succ fuel hindex] at h
        exact .turn hindex (ih (by omega))
      next hindex => exact .done hindex

/-! ### The files that are loaded -/

/-- The file that was loaded, if a record of the log says so. -/
def loadedFile? : LogRecord → Option String
  | .entered _ => none
  | .event _ event =>
      if event.level = .debug ∧ event.message = "Closure unit added from sourcepath" then
        event.context.get? "file"
      else none

/-- The files that were loaded, in order. -/
def loadedFiles (log : List LogRecord) : List String := log.filterMap loadedFile?

theorem loadedFiles_append (log later : List LogRecord) :
    loadedFiles (log ++ later) = loadedFiles log ++ loadedFiles later :=
  List.filterMap_append

/-- A source that cannot be read is an error, which does not count as loaded. -/
theorem loadedFiles_parse (source : SourceFile) (report : UnitReport) (diet : Bool)
    (front : SourceFrontEnd) : loadedFiles (parse tree source report diet front).log = [] := by
  unfold parse
  split <;> rfl

/-- The log names a file that is loaded. -/
theorem loadedFiles_loadClosure {path : String} (hnew : state.registry.contains path = false) :
    loadedFiles (loadClosure tree path state).log = [path] := by
  simp only [loadClosure, hnew, Bool.false_eq_true, if_false, Logged.log_bind, Logged.log_pure,
    loadedFiles_append, loadedFiles_parse, List.nil_append, List.append_nil, Logged.tell]
  have hmessage : LogEvent.clip "Closure unit added from sourcepath" =
      "Closure unit added from sourcepath" := if_pos (by decide)
  have hfile (ordinal : String) :
      Attributes.get? "file" (Attributes.setAll [("file", path), ("ordinal", ordinal)] []) =
        some path := by
    simp only [Attributes.setAll, List.foldl_cons, List.foldl_nil]
    rw [Attributes.get?_set_of_ne (by decide), Attributes.get?_set_self]
  simp [loadedFiles, loadedFile?, LogEvent.notes, LogEvent.debug, LogEvent.make, hmessage, hfile]

/-- Work on a batch puts the files that it loads behind the others. -/
def Loads (before after : Registry) (log : List LogRecord) : Prop :=
  after.files = before.files ++ loadedFiles log

theorem Loads.refl (registry : Registry) : Loads registry registry [] :=
  (List.append_nil _).symm

theorem Loads.trans {before middle after : Registry} {log later : List LogRecord}
    (h : Loads before middle log) (hlater : Loads middle after later) :
    Loads before after (log ++ later) := by
  rw [Loads, loadedFiles_append, ← List.append_assoc, ← h]
  exact hlater

section

variable (tree)

theorem loadClosure_loads (hcollecting : state.registry.collecting = true) (path : String) :
    Loads state.registry (loadClosure tree path state).value.registry
      (loadClosure tree path state).log := by
  cases hcontains : state.registry.contains path with
  | true =>
      simp only [loadClosure, hcontains, if_true]
      exact .refl state.registry
  | false =>
      rw [Loads, loadedFiles_loadClosure hcontains]
      exact files_loadClosure hcollecting hcontains

theorem searchSourcepath_loads (hcollecting : state.registry.collecting = true)
    (candidates : List String) :
    Loads state.registry (searchSourcepath tree candidates state).value.2.registry
      (searchSourcepath tree candidates state).log := by
  induction candidates generalizing state with
  | nil => exact .refl state.registry
  | cons candidate candidates ih =>
      unfold searchSourcepath
      cases state.front.findOnSourcepath tree candidate with
      | none => exact ih hcollecting
      | some path =>
          have hfirst := loadClosure_loads tree hcollecting path
          simp only [Logged.value_bind, Logged.log_bind]
          refine hfirst.trans ?_
          split
          · exact .refl _
          · exact ih ((loadClosure_extends path state).collecting.trans hcollecting)

theorem resolve_loads (hcollecting : state.registry.collecting = true) (reference : Reference) :
    Loads state.registry (resolve tree reference state).value.2.registry
      (resolve tree reference state).log := by
  unfold resolve
  split
  · exact .refl state.registry
  · exact searchSourcepath_loads tree hcollecting reference.candidates

theorem resolveAll_loads (hcollecting : state.registry.collecting = true)
    (references : List Reference) :
    Loads state.registry (resolveAll tree references state).value.2.registry
      (resolveAll tree references state).log := by
  induction references generalizing state with
  | nil => exact .refl state.registry
  | cons reference references ih =>
      have hfirst := resolve_loads tree hcollecting reference
      have hextends : state.Extends (resolve tree reference state).value.2 :=
        resolve_extends reference state
      have hlater := ih (hextends.collecting.trans hcollecting)
      have hlog : (resolveAll tree (reference :: references) state).log =
          (resolve tree reference state).log ++
            (resolveAll tree references (resolve tree reference state).value.2).log := by
        simp only [resolveAll, Logged.log_bind]
        split <;> simp
      rw [resolveAll_cons, hlog]
      exact hfirst.trans hlater

/-- Completing a unit loads files only while what it refers to is resolved. -/
theorem completeUnit_loads (hcollecting : state.registry.collecting = true) (index : Nat) :
    Loads state.registry (completeUnit tree index state).value.registry
      (completeUnit tree index state).log := by
  unfold completeUnit
  cases (state.registry.get? index).bind CompilationUnit.outline with
  | none => exact .refl state.registry
  | some outline =>
      have hloads := resolveAll_loads tree hcollecting outline.references
      simp only [Logged.value_bind, Logged.value_pure, Logged.log_bind, Logged.log_pure,
        List.append_nil]
      exact (Registry.files_record _ _ _).trans hloads

/-- **The files that are loaded stand behind the others in order.** -/
theorem completeFrom_loads (hcollecting : state.registry.collecting = true) (fuel index : Nat) :
    Loads state.registry (completeFrom tree fuel index state).value.registry
      (completeFrom tree fuel index state).log := by
  induction fuel generalizing index state with
  | zero => exact .refl state.registry
  | succ fuel ih =>
      unfold completeFrom
      split
      · have hextends : state.Extends (completeUnit tree index state).value :=
          completeUnit_extends index state
        exact (completeUnit_loads tree hcollecting index).trans
          (ih (hextends.collecting.trans hcollecting) (index + 1))
      · exact .refl state.registry

end

/-- Without a slot nothing is loaded. -/
theorem completeFrom_none (h : ¬ 0 < state.registry.size) (fuel : Nat) :
    completeFrom tree fuel 0 state = pure state := by
  cases fuel with
  | zero => rfl
  | succ fuel => simp only [completeFrom, if_neg h]

/-! ### The end of the loop -/

/-- A batch comes to finitely many files. -/
theorem Completion.finite_reaches (tree : FileTree) (start : Completion) :
    {path | start.Reaches tree path}.Finite :=
  (List.finite_toSet _).subset fun _ h => h.mem_around

/-- **The loop ends**, for every tree of files, sourcepath and batch.  Files are added behind those
that were there, each of them once and only if it was not there, and there are no more of them than
files that the batch may come to.  They are the files that were loaded, none of them a second time,
and all was tried for what the units refer to.  (A registry that collects nothing has no slots, and
then nothing is loaded.) -/
theorem complete_ends (tree : FileTree) (registry : Registry) (front : SourceFrontEnd) :
    let start : Completion := { front, registry }
    ∃ (last : Logged Completion) (added : List String),
      CompletesFrom tree 0 start last ∧
      complete tree registry front = (fun state => (state.registry, state.front)) <$> last ∧
      added.Nodup ∧
      (∀ path ∈ added, start.Reaches tree path ∧ registry.contains path = false) ∧
      last.value.registry.files = registry.files ++ added ∧
      last.value.registry.size = registry.size + added.length ∧
      {path | start.Reaches tree path}.Finite ∧
      last.value.registry.size ≤ registry.size + {path | start.Reaches tree path}.ncard ∧
      ((registry.collecting = false → registry.slots = []) →
        loadedFiles last.log = added ∧ ∀ place, last.value.Completed tree place) := by
  intro start
  have hgrown := completeFrom_grownFrom tree start (unitBound tree start) 0
  have hfinite := start.finite_reaches tree
  obtain ⟨added, hdistinct, hreached, hfiles, hsize⟩ := hgrown.added
  have hcount : added.length ≤ {path | start.Reaches tree path}.ncard := by
    rw [← List.toFinset_card_of_nodup hdistinct, ← Set.ncard_coe_finset]
    refine Set.ncard_le_ncard (fun path hpath => ?_) hfinite
    exact (hreached path (List.mem_toFinset.1 hpath)).1
  refine ⟨completeFrom tree (unitBound tree start) 0 start, added,
    completesFrom_of_size_le (by rw [Nat.zero_add]; exact hgrown.size_le), rfl, hdistinct, hreached,
    hfiles, hsize, hfinite, hsize ▸ Nat.add_le_add_left hcount _, fun hidle => ?_⟩
  cases hcollecting : registry.collecting with
  | true =>
      have hloads : Loads start.registry _ _ :=
        completeFrom_loads tree hcollecting (unitBound tree start) 0
      exact ⟨List.append_cancel_left (hloads.symm.trans hfiles), completed_completeFrom hcollecting⟩
  | false =>
      have hnone : ¬ 0 < start.registry.size := by
        simp [start, Registry.size, hidle hcollecting]
      have hstill : completeFrom tree (unitBound tree start) 0 start = pure start :=
        completeFrom_none hnone _
      rw [hstill] at hfiles ⊢
      refine ⟨List.append_cancel_left ((Loads.refl registry).symm.trans hfiles), ?_⟩
      intro place unit outline hunit
      simp [start, Registry.get?, hidle hcollecting] at hunit

end SourceFrontEnd

end JavaOutline
