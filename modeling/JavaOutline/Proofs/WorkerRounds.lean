/-
**Workers that take their steps in any order.**

Items are cut into rounds and each round into chunks, one for each worker.  The workers of a round are
at work at the same time: a worker looks an item up, applies a function to what it found and puts the
result back, and in between others take steps of theirs.  The next round begins when all workers of
the round before have nothing left.  No position is in two chunks, so no worker ever puts back over
the work of another one, and in whatever order the steps are taken the items become what going through
them one by one makes of them.

Main definitions:

* `Worker`, `Crew` — workers, and the items with the workers of a round and the rounds to come;
* `Crew.Step`, `Crew.Runs` — one step of any worker or to the next round, and steps in a row;
* `Crew.work` — how many steps are left;
* `Crew.workedAt` — items with a function applied at some positions;
* `Crew.Sound` — what is true at any time.

Main results:

* `length_of_mem_rounds` — a round has no more chunks than there are workers;
* `existsUnique_place` — no item has two places in a division;
* `Crew.Step.work` — every step leaves one step less;
* `Crew.Step.positions` — a step moves positions around and loses none;
* `Crew.Sound.step` — **what one step keeps**;
* `Crew.Sound.finished` — when no step is left, every item has been worked on;
* `Crew.applied_once` — **in any order, every item is worked on once**;
* `prefetch_any_order` — sources are read ahead alike in any order.
-/

import Mathlib.Data.List.Basic
import Mathlib.Data.List.Nodup
import JavaOutline.SourceFile.Prefetch

set_option autoImplicit false

namespace JavaOutline

/-! ### Rounds and chunks -/

section

variable {α β : Type}

theorem chunksFrom_cons (size fuel : Nat) (item : α) (items : List α) :
    chunksFrom size (fuel + 1) (item :: items) =
      (item :: items).take size :: chunksFrom size fuel ((item :: items).drop size) := rfl

/-- A chunk is not larger than it may be. -/
theorem length_of_mem_chunksFrom {size fuel : Nat} {items chunk : List α} (hsize : 0 < size)
    (hfuel : items.length ≤ fuel) (h : chunk ∈ chunksFrom size fuel items) :
    chunk.length ≤ size := by
  induction fuel generalizing items with
  | zero =>
      obtain rfl := List.length_eq_zero_iff.1 (Nat.le_zero.1 hfuel)
      cases h
  | succ fuel ih =>
      cases items with
      | nil => cases h
      | cons item items =>
          rw [chunksFrom_cons, List.mem_cons] at h
          rcases h with rfl | h
          · exact List.length_take_le _ _
          · refine ih ?_ h
            simp only [List.length_cons, List.length_drop] at hfuel ⊢
            omega

/-- There are no more chunks than the items have room in. -/
theorem length_chunksFrom_le {size fuel count : Nat} {items : List α} (hfuel : items.length ≤ fuel)
    (hroom : items.length ≤ count * size) : (chunksFrom size fuel items).length ≤ count := by
  induction fuel generalizing items count with
  | zero =>
      obtain rfl := List.length_eq_zero_iff.1 (Nat.le_zero.1 hfuel)
      exact Nat.zero_le _
  | succ fuel ih =>
      cases items with
      | nil => exact Nat.zero_le _
      | cons item items =>
          cases count with
          | zero => simp at hroom
          | succ count =>
              have hsize : 0 < size := Nat.pos_of_ne_zero fun h => by simp [h] at hroom
              rw [Nat.succ_mul] at hroom
              simp only [List.length_cons] at hfuel hroom
              have hrest := @ih count ((item :: items).drop size)
                (by simp only [List.length_drop, List.length_cons]; omega)
                (by simp only [List.length_drop, List.length_cons]; omega)
              simpa [chunksFrom_cons] using hrest

/-- A round has no more chunks than there are workers. -/
theorem length_of_mem_rounds {workers size : Nat} {items : List α} {round : List (List α)}
    (h : round ∈ rounds workers size items) : round.length ≤ max workers 1 := by
  obtain ⟨part, hpart, rfl⟩ := List.mem_map.1 h
  have hpos : 0 < max 1 size * max 1 workers := Nat.mul_pos (by omega) (by omega)
  rw [chunksOf, Nat.max_eq_right hpos] at hpart
  have hroom := length_of_mem_chunksFrom hpos (Nat.le_refl _) hpart
  rw [Nat.mul_comm, Nat.max_comm 1 workers] at hroom
  exact length_chunksFrom_le (Nat.le_refl _) hroom

/-- Where the cuts are does not depend on the items. -/
theorem chunksFrom_map (g : α → β) (size fuel : Nat) (items : List α) :
    chunksFrom size fuel (items.map g) = (chunksFrom size fuel items).map (List.map g) := by
  induction fuel generalizing items with
  | zero => cases items <;> rfl
  | succ fuel ih =>
      cases items with
      | nil => rfl
      | cons item items =>
          have hrest := ih ((item :: items).drop size)
          rw [List.map_drop, List.map_cons] at hrest
          rw [List.map_cons, chunksFrom_cons, chunksFrom_cons, hrest, List.map_cons, List.map_take,
            List.map_cons]

theorem chunksOf_map (g : α → β) (size : Nat) (items : List α) :
    chunksOf size (items.map g) = (chunksOf size items).map (List.map g) := by
  rw [chunksOf, chunksOf, chunksFrom_map, List.length_map]

theorem rounds_map (g : α → β) (workers size : Nat) (items : List α) :
    rounds workers size (items.map g) =
      (rounds workers size items).map (List.map (List.map g)) := by
  rw [rounds, rounds, chunksOf_map, List.map_map, List.map_map]
  exact List.map_congr_left fun part _ => chunksOf_map g size part

/-- Items are divided at the places at which their positions are. -/
theorem rounds_positions (workers size : Nat) (items : List α) :
    (rounds workers size (List.range items.length)).map (List.map (List.map (items[·]?))) =
      (rounds workers size items).map (List.map (List.map some)) := by
  have hitems : (List.range items.length).map (items[·]?) = items.map some := by
    refine List.ext_getElem (by simp) fun position _ _ => ?_
    simp
  rw [← rounds_map, ← rounds_map, hitems]

/-- An item is in one part only if no item is there twice. -/
theorem place_unique {parts : List (List α)} (hparts : parts.flatten.Nodup) {i j : Nat}
    {part other : List α} {item : α} (hi : parts[i]? = some part) (hj : parts[j]? = some other)
    (hpart : item ∈ part) (hother : item ∈ other) : i = j := by
  have hapart := (List.nodup_flatten.1 hparts).2
  have key : ∀ {i j : Nat} {part other : List α}, parts[i]? = some part →
      parts[j]? = some other → item ∈ part → item ∈ other → ¬ i < j := by
    intro i j part other hi hj hpart hother hlt
    obtain ⟨hi', rfl⟩ := List.getElem?_eq_some_iff.1 hi
    obtain ⟨hj', rfl⟩ := List.getElem?_eq_some_iff.1 hj
    exact List.pairwise_iff_getElem.1 hapart i j hi' hj' hlt hpart hother
  exact Nat.le_antisymm (Nat.le_of_not_lt (key hj hi hother hpart))
    (Nat.le_of_not_lt (key hi hj hpart hother))

/-- An item of a division without repetition is in one chunk of one round. -/
theorem existsUnique_place {division : List (List (List α))}
    (hdivision : division.flatten.flatten.Nodup) {item : α}
    (hitem : item ∈ division.flatten.flatten) :
    ∃! place : Nat × Nat, ∃ round chunk, division[place.1]? = some round ∧
      round[place.2]? = some chunk ∧ item ∈ chunk := by
  obtain ⟨chunk, hchunk, hmem⟩ := List.mem_flatten.1 hitem
  obtain ⟨round, hround, hchunk⟩ := List.mem_flatten.1 hchunk
  obtain ⟨i, hi⟩ := List.mem_iff_getElem?.1 hround
  obtain ⟨j, hj⟩ := List.mem_iff_getElem?.1 hchunk
  refine ⟨(i, j), ⟨round, chunk, hi, hj, hmem⟩, ?_⟩
  rintro ⟨i', j'⟩ ⟨round', chunk', hi', hj', hmem'⟩
  have hchunk' := List.mem_of_getElem? hj'
  have hrounds : ((division.map List.flatten).flatten).Nodup := by
    rwa [List.flatten_flatten] at hdivision
  obtain rfl : i' = i :=
    place_unique hrounds (by rw [List.getElem?_map, hi']; rfl) (by rw [List.getElem?_map, hi]; rfl)
      (List.mem_flatten.2 ⟨chunk', hchunk', hmem'⟩) (List.mem_flatten.2 ⟨chunk, hchunk, hmem⟩)
  obtain rfl : round' = round := Option.some.inj (hi'.symm.trans hi)
  have hchunks : round'.flatten.Nodup :=
    (List.nodup_flatten.1 hrounds).1 _ (List.mem_map_of_mem hround)
  obtain rfl : j' = j := place_unique hchunks hj' hj hmem' hmem
  rfl

end

/-! ### Workers and their steps -/

/-- A worker: the position it is at work on with the item it looked up there, and the positions
ahead of it. -/
structure Worker (α : Type) where
  current : Option (Nat × α) := none
  ahead : List Nat

/-- The items, the workers of the round, the rounds to come, and the positions that a result was put
back at, the last one last. -/
structure Crew (α : Type) where
  items : List α
  workers : List (Worker α) := []
  later : List (List (List Nat))
  done : List Nat := []

section

variable {α : Type}

/-- The positions that a worker has not put a result back at. -/
def Worker.positions (worker : Worker α) : List Nat :=
  (worker.current.map Prod.fst).toList ++ worker.ahead

@[simp] theorem Worker.positions_free (ahead : List Nat) :
    (⟨none, ahead⟩ : Worker α).positions = ahead := rfl

@[simp] theorem Worker.positions_busy (position : Nat) (item : α) (ahead : List Nat) :
    (⟨some (position, item), ahead⟩ : Worker α).positions = position :: ahead := rfl

theorem Worker.positions_eq_nil_iff (worker : Worker α) :
    worker.positions = [] ↔ worker.current = none ∧ worker.ahead = [] := by
  simp [Worker.positions]

/-- The workers of a round before their first steps. -/
def workersOf (round : List (List Nat)) : List (Worker α) :=
  round.map fun chunk => ⟨none, chunk⟩

@[simp] theorem length_workersOf (round : List (List Nat)) :
    (workersOf (α := α) round).length = round.length := List.length_map ..

theorem current_workersOf {round : List (List Nat)} {worker : Worker α}
    (h : worker ∈ workersOf round) : worker.current = none := by
  obtain ⟨chunk, -, rfl⟩ := List.mem_map.1 h
  rfl

@[simp] theorem positions_workersOf (round : List (List Nat)) :
    (workersOf (α := α) round).flatMap Worker.positions = round.flatten := by
  simp [workersOf, List.flatMap_map, List.flatMap_id']

@[simp] theorem ahead_workersOf (round : List (List Nat)) :
    (workersOf (α := α) round).flatMap Worker.ahead = round.flatten := by
  simp [workersOf, List.flatMap_map, List.flatMap_id']

@[simp] theorem busy_workersOf (round : List (List Nat)) :
    (workersOf (α := α) round).countP (·.current.isSome) = 0 := by
  simp [workersOf, List.countP_eq_zero]

namespace Crew

/-- A crew before the first round. -/
def start (threads : Nat) (items : List α) : Crew α where
  items := items
  later := rounds threads (chunkSize items.length threads) (List.range items.length)

/-- One step: a worker looks the next item up, or it puts the result back, or the next round begins
as no worker has anything left. -/
inductive Step (f : α → α) : Crew α → Crew α → Prop
  | look {items : List α} {before after : List (Worker α)} {position : Nat} {ahead : List Nat}
      {later : List (List (List Nat))} {done : List Nat} {item : α}
      (hitem : items[position]? = some item) :
      Step f ⟨items, before ++ ⟨none, position :: ahead⟩ :: after, later, done⟩
        ⟨items, before ++ ⟨some (position, item), ahead⟩ :: after, later, done⟩
  | put {items : List α} {before after : List (Worker α)} {position : Nat} {ahead : List Nat}
      {later : List (List (List Nat))} {done : List Nat} {item : α} :
      Step f ⟨items, before ++ ⟨some (position, item), ahead⟩ :: after, later, done⟩
        ⟨items.set position (f item), before ++ ⟨none, ahead⟩ :: after, later, done ++ [position]⟩
  | nextRound {items : List α} {workers : List (Worker α)} {round : List (List Nat)}
      {later : List (List (List Nat))} {done : List Nat}
      (hidle : ∀ worker ∈ workers, worker.positions = []) :
      Step f ⟨items, workers, round :: later, done⟩
        ⟨items, workersOf round, later, done⟩

/-- So many steps in a row, from a crew on. -/
inductive Runs (f : α → α) (crew : Crew α) : Nat → Crew α → Prop
  | none : Runs f crew 0 crew
  | more {count : Nat} {middle next : Crew α} (hruns : Runs f crew count middle)
      (hstep : Step f middle next) : Runs f crew (count + 1) next

/-! ### How much is left -/

/-- How many steps are left: to put a result back for each item that was looked up, two for each
position ahead, and one for each round to come. -/
def work (crew : Crew α) : Nat :=
  crew.workers.countP (·.current.isSome) + 2 * (crew.workers.flatMap Worker.ahead).length +
    crew.later.length + 2 * crew.later.flatten.flatten.length

variable {f : α → α} {limit count : Nat} {items : List α} {crew next : Crew α}

/-- Every step leaves one step less. -/
theorem Step.work (h : Step f crew next) : crew.work = next.work + 1 := by
  cases h with
  | look =>
      simp only [Crew.work, List.countP_append, List.countP_cons, List.flatMap_append,
        List.flatMap_cons, List.length_append, List.length_cons, Option.isSome_none,
        Option.isSome_some, Bool.false_eq_true, if_false, if_true]
      omega
  | put =>
      simp only [Crew.work, List.countP_append, List.countP_cons, List.flatMap_append,
        List.flatMap_cons, List.length_append, Option.isSome_none, Option.isSome_some,
        Bool.false_eq_true, if_false, if_true]
      omega
  | @nextRound items workers round later done hidle =>
      simp only [Worker.positions_eq_nil_iff] at hidle
      have hbusy : workers.countP (·.current.isSome) = 0 :=
        List.countP_eq_zero.2 fun worker hworker => by simp [(hidle worker hworker).1]
      have hahead : workers.flatMap Worker.ahead = [] :=
        List.flatMap_eq_nil_iff.2 fun worker hworker => (hidle worker hworker).2
      simp only [Crew.work, hbusy, hahead, ahead_workersOf, busy_workersOf, List.length_nil,
        List.length_cons, List.flatten_cons, List.flatten_append, List.length_append]
      omega

theorem Runs.work (h : Runs f crew count next) : crew.work = next.work + count := by
  induction h with
  | none => rfl
  | more hruns hstep ih => rw [ih, hstep.work, Nat.add_right_comm, Nat.add_assoc]

/-! ### What is true at any time -/

/-- All positions: those that a result was put back at, those of the workers, and those of the rounds
to come. -/
def positions (crew : Crew α) : List Nat :=
  crew.done ++ crew.workers.flatMap Worker.positions ++ crew.later.flatten.flatten

/-- Items with a function applied at some positions. -/
def workedAt (f : α → α) (done : List Nat) (items : List α) : List α :=
  items.mapIdx fun position item => if position ∈ done then f item else item

@[simp] theorem length_workedAt (f : α → α) (done : List Nat) (items : List α) :
    (workedAt f done items).length = items.length := List.length_mapIdx

theorem getElem?_workedAt (f : α → α) (done : List Nat) (items : List α) (position : Nat) :
    (workedAt f done items)[position]? =
      items[position]?.map fun item => if position ∈ done then f item else item :=
  List.getElem?_mapIdx

theorem workedAt_nil (f : α → α) (items : List α) : workedAt f [] items = items := by
  refine List.ext_getElem? fun position => ?_
  simp [getElem?_workedAt]

/-- Putting back what the function makes of the item in the beginning works on one more position. -/
theorem workedAt_set {f : α → α} {items : List α} {position : Nat} {item : α}
    (hitem : items[position]? = some item) (done : List Nat) :
    (workedAt f done items).set position (f item) = workedAt f (done ++ [position]) items := by
  refine List.ext_getElem? fun other => ?_
  by_cases hother : position = other
  · subst hother
    have hlt : position < (workedAt f done items).length := by
      rw [length_workedAt]
      exact (List.getElem?_eq_some_iff.1 hitem).1
    simp [List.getElem?_set_self hlt, getElem?_workedAt, hitem]
  · simp [List.getElem?_set_ne hother, getElem?_workedAt, Ne.symm hother]

/-- With the function applied at all positions the items are what going through them one by one makes
of them. -/
theorem workedAt_range {f : α → α} {items : List α} {done : List Nat}
    (hdone : done.Perm (List.range items.length)) : workedAt f done items = items.map f := by
  refine List.ext_getElem (by simp) fun position hlt _ => ?_
  rw [length_workedAt] at hlt
  have hmem : position ∈ done := hdone.mem_iff.2 (List.mem_range.2 hlt)
  simp [workedAt, hmem]

/-- What is true of a crew at any time: every position of the items is somewhere once, the function
was applied to the items at which a result was put back and to no others, a worker looked up what was
there in the beginning, and no round is larger than it may be. -/
structure Sound (f : α → α) (limit : Nat) (items : List α) (crew : Crew α) : Prop where
  each : crew.positions.Perm (List.range items.length)
  worked : crew.items = workedAt f crew.done items
  looked : ∀ worker ∈ crew.workers, ∀ position item,
    worker.current = some (position, item) → items[position]? = some item
  workers_le : crew.workers.length ≤ limit
  later_le : ∀ round ∈ crew.later, round.length ≤ limit

/-- A step moves positions around and loses none. -/
theorem Step.positions (h : Step f crew next) : next.positions.Perm crew.positions := by
  refine List.perm_iff_count.2 fun position => ?_
  cases h with
  | look => simp [Crew.positions]
  | put =>
      simp only [Crew.positions, List.flatMap_append, List.flatMap_cons, Worker.positions_free,
        Worker.positions_busy, List.count_append, List.count_cons, List.count_nil]
      omega
  | @nextRound items workers round later done hidle =>
      have hworkers : workers.flatMap Worker.positions = [] := List.flatMap_eq_nil_iff.2 hidle
      simp [Crew.positions, hworkers]

namespace Sound

/-- No item is moved away. -/
theorem length_items (hsound : Sound f limit items crew) : crew.items.length = items.length := by
  rw [hsound.worked, length_workedAt]

/-- A position of a worker is one of the items. -/
theorem lt_length (hsound : Sound f limit items crew) {worker : Worker α}
    (hworker : worker ∈ crew.workers) {position : Nat} (h : position ∈ worker.positions) :
    position < crew.items.length := by
  have hposition : position ∈ crew.positions :=
    List.mem_append_left _ (List.mem_append_right _ (List.mem_flatMap.2 ⟨worker, hworker, h⟩))
  rw [hsound.length_items]
  exact List.mem_range.1 (hsound.each.mem_iff.1 hposition)

/-- No position is anywhere twice. -/
theorem nodup (hsound : Sound f limit items crew) : crew.positions.Nodup :=
  hsound.each.nodup_iff.2 List.nodup_range

/-- Where a worker has yet to put a result back none has been put back. -/
theorem not_mem_done (hsound : Sound f limit items crew) {worker : Worker α}
    (hworker : worker ∈ crew.workers) {position : Nat} (h : position ∈ worker.positions) :
    position ∉ crew.done := by
  intro hdone
  have hapart := (List.nodup_append.1 (List.nodup_append.1 hsound.nodup).1).2.2
  exact hapart position hdone position (List.mem_flatMap.2 ⟨worker, hworker, h⟩) rfl

end Sound

/-- Before the first round nothing has been done. -/
theorem sound_start (f : α → α) (threads : Nat) (items : List α) :
    Sound f (max threads 1) items (start threads items) where
  each := by simp [start, Crew.positions, flatten_rounds]
  worked := (workedAt_nil f items).symm
  looked := by simp [start]
  workers_le := Nat.zero_le _
  later_le := fun _ => length_of_mem_rounds

/-- **What one step keeps.** -/
theorem Sound.step (hsound : Sound f limit items crew) (h : Step f crew next) :
    Sound f limit items next := by
  have heach := h.positions.trans hsound.each
  cases h with
  | @look found before after position ahead later done item hitem =>
      have hfresh : position ∉ done :=
        hsound.not_mem_done (List.mem_append_right _ List.mem_cons_self) List.mem_cons_self
      obtain ⟨-, hworked, hlooked, hworkers, hlater⟩ := hsound
      refine ⟨heach, hworked, ?_, by simpa using hworkers, hlater⟩
      simp only [List.forall_mem_append, List.forall_mem_cons] at hlooked ⊢
      refine ⟨hlooked.1, ?_, hlooked.2.2⟩
      -- what is found at a position that is not done yet is what was there in the beginning
      rintro _ _ ⟨⟩
      rw [show found = workedAt f done items from hworked, getElem?_workedAt] at hitem
      simpa [hfresh] using hitem
  | @put found before after position ahead later done item =>
      obtain ⟨-, hworked, hlooked, hworkers, hlater⟩ := hsound
      simp only [List.forall_mem_append, List.forall_mem_cons] at hlooked
      have hitem : items[position]? = some item := hlooked.2.1 position item rfl
      refine ⟨heach, ?_, ?_, by simpa using hworkers, hlater⟩
      · rw [← workedAt_set hitem, ← show found = workedAt f done items from hworked]
      · simp only [List.forall_mem_append, List.forall_mem_cons]
        exact ⟨hlooked.1, by simp, hlooked.2.2⟩
  | @nextRound found workers round later done hidle =>
      obtain ⟨-, hworked, -, hworkers, hlater⟩ := hsound
      refine ⟨heach, hworked, ?_, ?_, fun _ h => hlater _ (List.mem_cons_of_mem _ h)⟩
      · intro worker hworker position item hcurrent
        simp [current_workersOf hworker] at hcurrent
      · simpa using hlater round List.mem_cons_self

/-- What is true at any time is true after steps in a row. -/
theorem Sound.runs (hsound : Sound f limit items crew) (h : Runs f crew count next) :
    Sound f limit items next := by
  induction h with
  | none => exact hsound
  | more _ hstep ih => exact ih.step hstep

/-! ### When no step is left -/

/-- A worker with a position left has a step to take. -/
theorem Sound.exists_step (hsound : Sound f limit items crew) {worker : Worker α}
    (hworker : worker ∈ crew.workers) (hpositions : worker.positions ≠ []) :
    ∃ next, Step f crew next := by
  obtain ⟨found, workers, later, done⟩ := crew
  obtain ⟨current, ahead⟩ := worker
  obtain ⟨before, after, rfl⟩ := List.append_of_mem hworker
  cases current with
  | some current => exact ⟨_, .put⟩
  | none =>
      cases ahead with
      | nil => exact absurd rfl hpositions
      | cons position ahead =>
          have hlt := hsound.lt_length hworker List.mem_cons_self
          exact ⟨_, .look (List.getElem?_eq_getElem hlt)⟩

/-- When no step is left, a result has been put back at every position. -/
theorem Sound.done_perm (hsound : Sound f limit items crew) (h : ∀ next, ¬ Step f crew next) :
    crew.done.Perm (List.range items.length) := by
  have hidle : ∀ worker ∈ crew.workers, worker.positions = [] := by
    intro worker hworker
    by_contra hpositions
    obtain ⟨next, hstep⟩ := hsound.exists_step hworker hpositions
    exact h next hstep
  have heach := hsound.each
  obtain ⟨found, workers, later, done⟩ := crew
  cases later with
  | cons round later => exact absurd (.nextRound hidle) (h _)
  | nil =>
      have hworkers : workers.flatMap Worker.positions = [] := List.flatMap_eq_nil_iff.2 hidle
      simpa [Crew.positions, hworkers] using heach

/-- When no step is left, the items are what going through them one by one makes of them. -/
theorem Sound.finished (hsound : Sound f limit items crew) (h : ∀ next, ¬ Step f crew next) :
    crew.items = items.map f := by
  rw [hsound.worked, workedAt_range (hsound.done_perm h)]

/-- The steps that are left before the first round. -/
theorem work_start (threads : Nat) (items : List α) :
    (start threads items).work =
      (rounds threads (chunkSize items.length threads) (List.range items.length)).length +
        2 * items.length := by
  simp [start, Crew.work, flatten_rounds]

/-- **In any order, every item is worked on once.**  The positions are cut into rounds with no more
chunks than there are workers, nothing is lost or moved, and every position is in one chunk of one
round; the items are cut at the same places.  In whatever order the workers of a round take their
steps, there are no more workers than there may be, no result is put back at a position twice, and the
items are at any time the items in the beginning with the function applied at the positions that are
done.  There is an end to the steps, and when none is left, every position is done once, and the items
are what going through them one by one makes of them. -/
theorem applied_once (f : α → α) (threads : Nat) (items : List α) :
    let size := chunkSize items.length threads
    let division := rounds threads size (List.range items.length)
    (∀ round ∈ division, round.length ≤ max threads 1) ∧
      division.flatten.flatten = List.range items.length ∧
      (∀ position < items.length, ∃! place : Nat × Nat, ∃ round chunk,
        division[place.1]? = some round ∧ round[place.2]? = some chunk ∧ position ∈ chunk) ∧
      division.map (List.map (List.map (items[·]?))) =
        (rounds threads size items).map (List.map (List.map some)) ∧
      ∀ count crew, Runs f (start threads items) count crew →
        count ≤ division.length + 2 * items.length ∧
        crew.workers.length ≤ max threads 1 ∧
        crew.done.Nodup ∧
        crew.items = items.mapIdx (fun position item =>
          if position ∈ crew.done then f item else item) ∧
        ((∀ next, ¬ Step f crew next) →
          crew.done.Perm (List.range items.length) ∧ crew.items = items.map f ∧
          crew.items = applyInRounds f threads size items) := by
  intro size division
  have hwhole : division.flatten.flatten = List.range items.length := flatten_rounds _ _ _
  refine ⟨fun _ => length_of_mem_rounds, hwhole, ?_, rounds_positions threads size items, ?_⟩
  · intro position hposition
    refine existsUnique_place ?_ ?_
    · rw [hwhole]
      exact List.nodup_range
    · rw [hwhole]
      exact List.mem_range.2 hposition
  · intro count crew hruns
    have hsound := (sound_start f threads items).runs hruns
    have hcount : division.length + 2 * items.length = crew.work + count :=
      (work_start threads items).symm.trans hruns.work
    refine ⟨by omega, hsound.workers_le,
      (List.nodup_append.1 (List.nodup_append.1 hsound.nodup).1).1, hsound.worked, fun h => ?_⟩
    have hitems := hsound.finished h
    exact ⟨hsound.done_perm h, hitems, by rw [applyInRounds_eq, hitems]⟩

/-- Two workers with an item each: both look their items up, and the second one puts its result back
first. -/
theorem applied_once_crosswise :
    let crew : Crew Nat := ⟨[11, 21], [⟨none, []⟩, ⟨none, []⟩], [], [1, 0]⟩
    Runs (· + 1) (start 2 [10, 20]) 5 crew ∧ (∀ next, ¬ Step (· + 1) crew next) ∧
      crew.items = [10, 20].map (· + 1) := by
  intro crew
  have hruns : Runs (· + 1) (start 2 [10, 20]) 5 crew :=
    .more (.more (.more (.more (.more .none
      (@Step.nextRound Nat _ [10, 20] [] [[0], [1]] [] [] (by simp)))
      (@Step.look Nat _ [10, 20] [] [⟨none, [1]⟩] 0 [] [] [] 10 rfl))
      (@Step.look Nat _ [10, 20] [⟨some (0, 10), []⟩] [] 1 [] [] [] 20 rfl))
      (@Step.put Nat _ [10, 20] [⟨some (0, 10), []⟩] [] 1 [] [] [] 20))
      (@Step.put Nat _ [10, 21] [] [⟨none, []⟩] 0 [] [] [1] 10)
  have hend : ∀ next, ¬ Step (· + 1) crew next := fun next h => by
    have hwork := h.work
    rw [show crew.work = 0 from rfl] at hwork
    omega
  exact ⟨hruns, hend, (((applied_once (· + 1) 2 [10, 20]).2.2.2.2 5 crew hruns).2.2.2.2 hend).2.1⟩

end Crew

/-- Sources are read ahead alike in whatever order the workers take their steps. -/
theorem prefetch_any_order {tree : FileTree} {limit threads count : Nat}
    {sources : List SourceFile} {crew : Crew SourceFile}
    (hruns : Crew.Runs (SourceFile.load tree limit) (Crew.start threads sources) count crew)
    (h : ∀ next, ¬ Crew.Step (SourceFile.load tree limit) crew next) :
    crew.items = (prefetch tree limit threads sources).value.1 := by
  rw [prefetch_sources]
  exact ((Crew.sound_start _ threads sources).runs hruns).finished h

end

end JavaOutline
