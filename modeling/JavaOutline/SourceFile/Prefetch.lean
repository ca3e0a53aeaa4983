/-
**Reading sources ahead.**

The sources of a large batch are read before they are parsed, by several workers.  The sources are
cut into rounds and each round into chunks, one for each worker.

Main definitions:

* `chunkSize` — how many sources a worker reads in a round;
* `chunksOf`, `rounds` — the division;
* `applyInRounds` — a function applied to all items, round by round;
* `prefetch` — reading all sources of a batch.

Main results:

* `flatten_chunksOf`, `flatten_rounds` — **nothing is lost or moved**;
* `applyInRounds_eq` — going through items in rounds is going through them one by one;
* `prefetch_sources` — reading in rounds gives what reading one by one gives.
-/

import JavaOutline.Log.Record
import JavaOutline.SourceFile

set_option autoImplicit false

namespace JavaOutline

/-! ### Chunks -/

/-- The fewest sources for which reading ahead pays. -/
def readAheadThreshold : Nat := 6

/-- The most sources that a worker reads in a round. -/
def maxChunkSize : Nat := 50

/-- How many of so many sources a worker reads in a round: its share, between one and the most. -/
def chunkSize (total workers : Nat) : Nat :=
  let workers := max 1 workers
  max 1 (min maxChunkSize ((total + workers - 1) / workers))

/-- Cuts items into chunks of a size, at most as many as there is fuel for; what is left then forms
the last chunk. -/
def chunksFrom {α : Type} (size : Nat) : Nat → List α → List (List α)
  | _, [] => []
  | 0, items => [items]
  | fuel + 1, items => items.take size :: chunksFrom size fuel (items.drop size)

/-- Cuts items into chunks of a size; only the last one may be smaller. -/
def chunksOf {α : Type} (size : Nat) (items : List α) : List (List α) :=
  chunksFrom (max 1 size) items.length items

/-- Cuts items into rounds with a chunk for each worker. -/
def rounds {α : Type} (workers size : Nat) (items : List α) : List (List (List α)) :=
  (chunksOf (max 1 size * max 1 workers) items).map (chunksOf size)

/-- Cutting loses nothing and moves nothing. -/
theorem flatten_chunksFrom {α : Type} (size fuel : Nat) (items : List α) :
    (chunksFrom size fuel items).flatten = items := by
  induction fuel generalizing items with
  | zero => cases items <;> simp [chunksFrom]
  | succ fuel ih => cases items <;> simp [chunksFrom, ih]

/-- Chunks lose nothing and move nothing. -/
@[simp] theorem flatten_chunksOf {α : Type} (size : Nat) (items : List α) :
    (chunksOf size items).flatten = items := flatten_chunksFrom _ _ _

/-- Rounds lose nothing and move nothing. -/
theorem flatten_rounds {α : Type} (workers size : Nat) (items : List α) :
    (rounds workers size items).flatten.flatten = items := by
  have inner : ∀ parts : List (List α),
      (parts.map (chunksOf size)).flatten.flatten = parts.flatten := by
    intro parts
    induction parts with
    | nil => rfl
    | cons part parts ih => simp [ih]
  simp [rounds, inner]

/-- Applies a function to all items in rounds: each chunk of a round is gone through on its own. -/
def applyInRounds {α : Type} (f : α → α) (workers size : Nat) (items : List α) : List α :=
  ((rounds workers size items).map fun round =>
    (round.map fun chunk => chunk.map f).flatten).flatten

/-- In rounds the items become what going through them one by one makes of them. -/
theorem applyInRounds_eq {α : Type} (f : α → α) (workers size : Nat) (items : List α) :
    applyInRounds f workers size items = items.map f := by
  have key : ∀ parts : List (List (List α)),
      (parts.map fun round => (round.map fun chunk => chunk.map f).flatten).flatten =
        parts.flatten.flatten.map f := by
    intro parts
    induction parts with
    | nil => rfl
    | cons round parts ih =>
        simp only [List.map_cons, List.flatten_cons, List.flatten_append, List.map_append, ih,
          List.map_flatten]
  rw [applyInRounds, key, flatten_rounds]

/-! ### Reading -/

/-- Reads all sources ahead: the sources, and how many gave a text. -/
def prefetch (tree : FileTree) (limit workers : Nat) (sources : List SourceFile) :
    Logged (List SourceFile × Nat) :=
  if sources.isEmpty then pure (sources, 0)
  else do
    let workers := max 1 workers
    let size := chunkSize sources.length workers
    Logged.tell ((LogEvent.debug "Prefetching sources").notes
      [("sources", toString sources.length), ("threads", toString workers),
       ("chunk_size", toString size)])
    let loaded := applyInRounds (SourceFile.load tree limit) workers size sources
    return (loaded, loaded.countP SourceFile.isReadable)

/-- The sources after reading ahead are the sources read one by one. -/
theorem prefetch_sources (tree : FileTree) (limit workers : Nat) (sources : List SourceFile) :
    (prefetch tree limit workers sources).value.1 = sources.map (SourceFile.load tree limit) := by
  unfold prefetch
  split
  · rename_i h
    have : sources = [] := by simpa using h
    subst this
    rfl
  · simp [applyInRounds_eq]

end JavaOutline
