/-
**What outlives a batch.**

A session remembers which files were handled, how talkative the tool is, whether something went
wrong while units were being rebuilt, and the names that files have in scope.

Main definitions:

* `Session` — the state between batches;
* `Session.mark` — noting that a file was handled.

Main results:

* `Session.mem_processed_mark` — marking adds a file and forgets none;
* `Session.nodup_mark` — no file is listed twice;
* `Session.markAll_eq` — marking changes the list of files only.
-/

import JavaOutline.ConflictIndex

set_option autoImplicit false

namespace JavaOutline

/-- The state between batches. -/
structure Session where
  /-- The files that were handled, the earliest first. -/
  processed : List String := []
  verbosity : Nat := 0
  /-- Whether rebuilding ever failed. -/
  failed : Bool := false
  conflicts : ConflictIndex := {}
  /-- The number of batches that were begun. -/
  batches : Nat := 0
deriving DecidableEq, Repr, Inhabited

namespace Session

/-- Whether a file was handled. -/
def isProcessed (session : Session) (file : String) : Bool := session.processed.contains file

/-- Notes that a file was handled. -/
def mark (session : Session) (file : String) : Session :=
  if session.isProcessed file then session
  else { session with processed := session.processed ++ [file] }

/-- Notes that files were handled. -/
def markAll (session : Session) (files : List String) : Session := files.foldl mark session

/-- The number of files that were handled. -/
def processedCount (session : Session) : Nat := session.processed.length

/-- Whether every step is to be traced. -/
def isTracing (session : Session) : Bool := 2 < session.verbosity

/-- Notes that rebuilding failed; this is never forgotten. -/
def fail (session : Session) : Session := { session with failed := true }

/-- Whether a file sees another type than `package.name` under the name. -/
def hasConflict (session : Session) (file package name : String) : Bool :=
  session.conflicts.hasConflict file package name

/-- Begins a batch. -/
def beginBatch (session : Session) : Session := { session with batches := session.batches + 1 }

/-! ### Marking -/

/-- Marking adds a file and forgets none. -/
theorem mem_processed_mark (session : Session) (file other : String) :
    other ∈ (session.mark file).processed ↔ other = file ∨ other ∈ session.processed := by
  unfold mark isProcessed
  split
  · rename_i h
    have hmem : file ∈ session.processed := by simpa using h
    constructor
    · exact Or.inr
    · rintro (rfl | hother)
      · exact hmem
      · exact hother
  · simp [or_comm]

/-- No file is listed twice. -/
theorem nodup_mark {session : Session} (h : session.processed.Nodup) (file : String) :
    (session.mark file).processed.Nodup := by
  unfold mark isProcessed
  split
  · exact h
  · rename_i hnew
    have hnew : file ∉ session.processed := by simpa using hnew
    simp only [List.nodup_append, h, List.nodup_cons, List.not_mem_nil, not_false_eq_true,
      List.nodup_nil, and_self, true_and, List.mem_cons, or_false]
    rintro a ha b rfl rfl
    exact hnew ha

/-- Marking files changes the list of files only. -/
theorem markAll_eq (session : Session) (files : List String) :
    session.markAll files = { session with processed := (session.markAll files).processed } := by
  unfold markAll
  induction files generalizing session with
  | nil => rfl
  | cons file files ih =>
      rw [List.foldl_cons, ih]
      unfold mark
      split <;> rfl

/-- No file is listed twice after several were marked. -/
theorem nodup_markAll {session : Session} (h : session.processed.Nodup) (files : List String) :
    (session.markAll files).processed.Nodup := by
  unfold markAll
  induction files generalizing session with
  | nil => exact h
  | cons file files ih => exact ih (nodup_mark h file)

end Session

end JavaOutline
