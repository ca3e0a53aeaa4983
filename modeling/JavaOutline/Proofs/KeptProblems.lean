/-
**What a report keeps when the problems are too many.**

A report counts all problems, but it keeps no more of them than its limit.  An error that comes when
only warnings are kept takes the place of the last of them.  So what is kept is known from the list
of everything that was found: it is the beginning of the list, up to the limit, with the first error
behind the limit in the last place if there is no error in front of it.  In particular the report
has an error exactly if one was found.

Main definitions:

* `Finding` — what can be reported: a problem, or a syntax error;
* `UnitReport.noteAll` — reporting findings in order;
* `lateError` — the first error behind the limit, if there is none in front of it;
* `keptProblems` — what is kept of a list of problems.

Main results:

* `keptProblems_append` — what one more problem changes;
* `UnitReport.noteAll_eq` — a report after any findings, as a whole;
* `UnitReport.noteAll_hides_no_error` — **the limit hides problems, but never that the unit failed**.
-/

import Mathlib.Data.List.Induction
import JavaOutline.UnitReport

set_option autoImplicit false

namespace JavaOutline

/-! ### What is kept of a list of problems -/

/-- The first error behind the limit, if there is no error in front of it. -/
def lateError (limit : Nat) (problems : List Problem) : Option Problem :=
  if (problems.take limit).any Problem.isError then none
  else (problems.drop limit).find? Problem.isError

/-- What is kept of a list of problems: the beginning up to the limit, but if no error is there then
the first later error stands in the last place. -/
def keptProblems (limit : Nat) (problems : List Problem) : List Problem :=
  match lateError limit problems with
  | none => problems.take limit
  | some error => (problems.take limit).dropLast ++ [error]

section

variable {limit : Nat} {problems : List Problem}

/-- An error stands up to the limit or behind it. -/
theorem any_isError_eq (limit : Nat) (problems : List Problem) :
    problems.any Problem.isError =
      ((problems.take limit).any Problem.isError || (problems.drop limit).any Problem.isError) := by
  rw [← List.any_append, List.take_append_drop]

/-- An error behind the limit is an error of the list. -/
theorem lateError_spec {error : Problem} (h : lateError limit problems = some error) :
    error ∈ problems ∧ error.isError = true := by
  unfold lateError at h
  split at h
  · cases h
  · exact ⟨List.mem_of_mem_drop (List.mem_of_find?_eq_some h), List.find?_some h⟩

/-- Up to the limit there is nothing behind it. -/
theorem lateError_of_length_le (h : problems.length ≤ limit) : lateError limit problems = none := by
  simp [lateError, List.drop_eq_nil_of_le h]

/-- Up to the limit everything is kept. -/
theorem keptProblems_of_length_le (h : problems.length ≤ limit) :
    keptProblems limit problems = problems := by
  simp [keptProblems, lateError_of_length_le h, List.take_of_length_le h]

/-- An error is kept exactly if there is one. -/
theorem any_keptProblems :
    (keptProblems limit problems).any Problem.isError = problems.any Problem.isError := by
  unfold keptProblems
  split
  · rename_i hlate
    unfold lateError at hlate
    split at hlate
    · rename_i hearly
      rw [any_isError_eq limit problems, hearly, Bool.true_or]
    · have hnone : (problems.drop limit).any Problem.isError = false := by
        simpa [List.find?_eq_none] using hlate
      rw [any_isError_eq limit problems, hnone, Bool.or_false]
  · rename_i error hlate
    obtain ⟨hmem, herror⟩ := lateError_spec hlate
    rw [List.any_eq_true.2 ⟨error, hmem, herror⟩]
    simp [herror]

/-- The place of the last warning is all that the late error takes. -/
theorem length_keptProblems (problems : List Problem) (h : 0 < limit) :
    (keptProblems limit problems).length = min limit problems.length := by
  unfold keptProblems
  split
  · exact List.length_take
  · rename_i error hlate
    have hsome : 0 < problems.length := List.length_pos_of_mem (lateError_spec hlate).1
    simp only [List.length_append, List.length_dropLast, List.length_take, List.length_singleton]
    omega

/-- There is a free place exactly as long as the list is shorter than the limit. -/
theorem length_keptProblems_lt (limit : Nat) (problems : List Problem) :
    (keptProblems limit problems).length < limit ↔ problems.length < limit := by
  rcases Nat.eq_zero_or_pos limit with rfl | hpos
  · simp
  · rw [length_keptProblems problems hpos]
    omega

/-- Behind the limit, one more problem is the late error if it is the first error of all. -/
theorem lateError_append (h : limit ≤ problems.length) (problem : Problem) :
    lateError limit (problems ++ [problem]) =
      if problem.isError && !problems.any Problem.isError then some problem
      else lateError limit problems := by
  unfold lateError
  rw [List.take_append_of_le_length h, List.drop_append_of_le_length h, List.find?_append,
    any_isError_eq limit problems]
  cases hearly : (problems.take limit).any Problem.isError with
  | true => simp
  | false =>
      cases hlate : (problems.drop limit).find? Problem.isError with
      | none =>
          have hnone : (problems.drop limit).any Problem.isError = false := by
            simpa [List.find?_eq_none] using hlate
          cases herror : problem.isError <;> simp [hnone, herror]
      | some error =>
          have hsome : (problems.drop limit).any Problem.isError = true :=
            List.any_eq_true.2
              ⟨error, List.mem_of_find?_eq_some hlate, List.find?_some hlate⟩
          simp [hsome]

/-- What one more problem changes in what is kept. -/
theorem keptProblems_append (limit : Nat) (problems : List Problem) (problem : Problem) :
    keptProblems limit (problems ++ [problem]) =
      if problems.length < limit then keptProblems limit problems ++ [problem]
      else if problem.isError && !problems.any Problem.isError then
        (keptProblems limit problems).dropLast ++ [problem]
      else keptProblems limit problems := by
  split
  · rename_i hfree
    have hroom : (problems ++ [problem]).length ≤ limit := by
      rw [List.length_append, List.length_singleton]
      exact hfree
    rw [keptProblems_of_length_le (Nat.le_of_lt hfree), keptProblems_of_length_le hroom]
  · rename_i hfull
    have hle : limit ≤ problems.length := Nat.le_of_not_lt hfull
    have htake : (problems ++ [problem]).take limit = problems.take limit :=
      List.take_append_of_le_length hle
    split
    · rename_i hfirst
      -- no error came before, so nothing was replaced yet
      have hnone : lateError limit problems = none := by
        cases hlate : lateError limit problems with
        | none => rfl
        | some error =>
            rw [List.any_eq_true.2 ⟨error, lateError_spec hlate⟩] at hfirst
            simp at hfirst
      simp only [keptProblems, lateError_append hle, if_pos hfirst, htake, hnone]
    · rename_i hfirst
      simp only [keptProblems, lateError_append hle, if_neg hfirst, htake]

end

/-! ### Reporting findings -/

/-- What can be reported on a unit. -/
inductive Finding where
  | problem (problem : Problem)
  | syntaxError (message : String) (span : Option Span)
deriving DecidableEq, Repr

namespace Finding

/-- The problem that is recorded for a finding. -/
def recorded : Finding → Problem
  | .problem found => found
  | .syntaxError message span => { code := .syntaxError, message, span }

/-- Whether a finding says that the syntax is broken. -/
def isSyntaxError : Finding → Bool
  | .problem _ => false
  | .syntaxError _ _ => true

/-- A syntax error is an error. -/
theorem isError_of_isSyntaxError {finding : Finding} (h : finding.isSyntaxError = true) :
    finding.recorded.isError = true := by
  cases finding with
  | problem problem => cases h
  | syntaxError message span => rfl

end Finding

namespace UnitReport

/-- Reports a finding. -/
def note (report : UnitReport) : Finding → UnitReport
  | .problem problem => report.record problem
  | .syntaxError message span => report.recordSyntaxError message span

/-- Reports findings in order. -/
def noteAll (report : UnitReport) (findings : List Finding) : UnitReport := findings.foldl note report

/-- Nothing was reported yet. -/
structure IsBlank (report : UnitReport) : Prop where
  problems : report.problems = []
  suppressed : report.suppressed = 0
  hasSyntaxError : report.hasSyntaxError = false

/-- A report with everything that is known from the list of all findings. -/
def onAll (report : UnitReport) (findings : List Finding) : UnitReport :=
  { report with
    problems := keptProblems report.maxProblems (findings.map Finding.recorded)
    suppressed := findings.length - report.maxProblems
    hasSyntaxError := findings.any Finding.isSyntaxError }

variable {report : UnitReport}

/-- A finding is recorded as a problem, and broken syntax is kept in mind. -/
theorem note_eq (report : UnitReport) (finding : Finding) :
    report.note finding =
      { report with
        hasSyntaxError := report.hasSyntaxError || finding.isSyntaxError }.record
          finding.recorded := by
  cases finding with
  | problem problem => simp [note, Finding.isSyntaxError, Finding.recorded]
  | syntaxError message span =>
      simp [note, recordSyntaxError, Finding.isSyntaxError, Finding.recorded]

/-- One more finding is one more finding on the list. -/
theorem note_onAll (report : UnitReport) (findings : List Finding) (finding : Finding) :
    (report.onAll findings).note finding = report.onAll (findings ++ [finding]) := by
  have hfree := length_keptProblems_lt report.maxProblems (findings.map Finding.recorded)
  rw [List.length_map] at hfree
  have hkept := keptProblems_append report.maxProblems (findings.map Finding.recorded)
    finding.recorded
  rw [List.length_map] at hkept
  simp only [note_eq, record, onAll, hasErrors, any_keptProblems, hfree, List.map_append,
    List.map_cons, List.map_nil, hkept, List.length_append, List.length_singleton,
    List.any_append, List.any_cons, List.any_nil, Bool.or_false]
  split
  · rename_i hlt
    rw [show findings.length + 1 - report.maxProblems = findings.length - report.maxProblems by
      omega]
  · rename_i hfull
    rw [show findings.length + 1 - report.maxProblems = findings.length - report.maxProblems + 1 by
      omega]
    split <;> rfl

/-- A blank report after any findings. -/
theorem noteAll_eq (hblank : report.IsBlank) (findings : List Finding) :
    report.noteAll findings = report.onAll findings := by
  induction findings using List.reverseRecOn with
  | nil =>
      obtain ⟨hproblems, hsuppressed, hsyntax⟩ := hblank
      cases report
      simp_all [noteAll, onAll, keptProblems, lateError]
  | append_singleton findings finding ih =>
      rw [noteAll, List.foldl_append, List.foldl_cons, List.foldl_nil, ← noteAll, ih, note_onAll]

/-- **The limit hides problems, but never that the unit failed.**  Whatever is reported on a blank
report whose limit is at least one, all of it is counted, no more than the limit is kept, an error is
kept exactly if one was reported, broken syntax is an error, and it is known which problems are
kept. -/
theorem noteAll_hides_no_error (report : UnitReport) (hblank : report.IsBlank)
    (hlimit : 1 ≤ report.maxProblems) (findings : List Finding) :
    (report.noteAll findings).problemCount = findings.length ∧
    (report.noteAll findings).problems.length ≤ report.maxProblems ∧
    ((report.noteAll findings).hasErrors = true ↔
      ∃ finding ∈ findings, finding.recorded.isError = true) ∧
    ((report.noteAll findings).hasSyntaxError = true ↔
      ∃ finding ∈ findings, finding.isSyntaxError = true) ∧
    ((report.noteAll findings).hasSyntaxError = true →
      (report.noteAll findings).hasErrors = true) ∧
    (report.noteAll findings).problems =
      keptProblems report.maxProblems (findings.map Finding.recorded) := by
  have hkept := length_keptProblems (findings.map Finding.recorded) hlimit
  rw [List.length_map] at hkept
  have herrors : (report.noteAll findings).hasErrors = true ↔
      ∃ finding ∈ findings, finding.recorded.isError = true := by
    rw [noteAll_eq hblank]
    simp [hasErrors, onAll, any_keptProblems, List.any_eq_true]
  have hsyntax : (report.noteAll findings).hasSyntaxError = true ↔
      ∃ finding ∈ findings, finding.isSyntaxError = true := by
    rw [noteAll_eq hblank]
    simp [onAll, List.any_eq_true]
  refine ⟨?_, ?_, herrors, hsyntax, fun hbroken => ?_, ?_⟩
  · rw [noteAll_eq hblank]
    simp only [problemCount, onAll, hkept]
    omega
  · rw [noteAll_eq hblank]
    simp only [onAll, hkept]
    omega
  · obtain ⟨finding, hmem, hfinding⟩ := hsyntax.1 hbroken
    exact herrors.2 ⟨finding, hmem, Finding.isError_of_isSyntaxError hfinding⟩
  · rw [noteAll_eq hblank]
    rfl

/-- Two warnings fill the report, and the syntax error behind them takes the place of the second. -/
theorem noteAll_hides_no_error_two :
    let first : Problem := { code := .duplicateMember, message := "w1", isError := false }
    let second : Problem := { code := .duplicateMember, message := "w2", isError := false }
    let report : UnitReport := { file := "A.java", maxProblems := 2 }
    report.IsBlank ∧ 1 ≤ report.maxProblems ∧
    (report.noteAll
      [.problem first, .problem second, .syntaxError "expected ';'" none]).problems =
        [first, { code := .syntaxError, message := "expected ';'" }] := by
  intro first second report
  have hblank : report.IsBlank := ⟨rfl, rfl, rfl⟩
  have hlimit : 1 ≤ report.maxProblems := by decide
  obtain ⟨-, -, -, -, -, hproblems⟩ := noteAll_hides_no_error report hblank hlimit
    [.problem first, .problem second, .syntaxError "expected ';'" none]
  exact ⟨hblank, hlimit, hproblems.trans (by decide)⟩

end UnitReport

end JavaOutline
