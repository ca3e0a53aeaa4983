/-
**When a completed diet parse is the full parse.**

A diet parse passes over the bodies of a source by counting braces and leaves them to be read later,
each by itself.  A full parse reads them on the way.  The two agree about a source exactly if both
find errors, or if every body that was passed over reads the same in place as by itself.  That is
not always so: in place a reader may look past the end of the body for the closer of a type argument
list, and what it finds there belongs to another member.

Main definitions:

* `DietAgrees` — the completed diet parse and the full parse agree about a source;
* `BodiesReadAlike` — every body of a source reads the same in place as by itself.

Main results:

* `Outline.complete_of_readsAlike` — if every body reads alike, completing the diet parse gives the
  full parse;
* `Outline.readsAlike_of_complete` — and it gives the full parse in no other way;
* `dietAgrees_iff` — **when the two parses agree about a source**;
* `not_dietAgrees_comparison` — they disagree about a loop that compares with `<`, in front of a
  method that compares with `>`.
-/

import JavaOutline.Proofs.DietParse

set_option autoImplicit false

namespace JavaOutline

open JavaOutline.Parser

/-! ### The two parses -/

/-- The completed diet parse and the full parse agree about a source: one is without errors exactly
if the other is, and then they find the same outline. -/
def DietAgrees (source : String) : Prop :=
  ((Outline.parse source false).errors = [] ↔
    (Outline.parse source true).errors = [] ∧
      ((Outline.parse source true).outline.complete source).2 = []) ∧
  ((Outline.parse source false).errors = [] → (Outline.parse source true).errors = [] →
    ((Outline.parse source true).outline.complete source).2 = [] →
    ((Outline.parse source true).outline.complete source).1 = (Outline.parse source false).outline)

instance (source : String) : Decidable (DietAgrees source) :=
  inferInstanceAs (Decidable (_ ∧ _))

/-- Every body that the diet parse of a source passes over reads the same in place as by itself. -/
def BodiesReadAlike (source : String) : Prop :=
  ∀ site ∈ (Outline.parse source true).outline.waiting,
    site.ReadsAlike source.toList (Scan.ofText source)

namespace Outline

variable {source : String}

/-- What a parse is when the unit can be read. -/
theorem parse_of_ok {diet : Bool} {o : Outline} {s : State}
    (h : compilationUnit ((Scan.ofText source).setting diet) (Scan.ofText source).atStart =
      .ok o s) :
    parse source diet =
      { outline := o, separators := (Scan.ofText source).separators,
        errors := (Scan.ofText source).errors.map SyntaxError.lexical ++ s.errors.toList } := by
  unfold Scan.atStart at h
  unfold parse
  simp only [h]

/-- A parse is without errors if the scan is, and if reading the unit reports nothing. -/
theorem parse_errors_eq_nil {diet : Bool} :
    (parse source diet).errors = [] ↔ (Scan.ofText source).errors = [] ∧
      ∃ s, compilationUnit ((Scan.ofText source).setting diet) (Scan.ofText source).atStart =
        .ok (parse source diet).outline s ∧ s.errors = #[] := by
  cases h : compilationUnit ((Scan.ofText source).setting diet) (Scan.ofText source).atStart with
  | ok o s =>
      rw [parse_of_ok h]
      simp
  | fail error s =>
      unfold Scan.atStart at h
      unfold parse
      simp [h, State.report]

/-- The beginning of a scan is a place. -/
theorem atPlace_atStart (scan : Scan) : AtPlace scan 0 {} scan.atStart where
  silent := rfl
  depth := rfl
  reaches := State.Reaches.refl _
  before _ _ := Nat.zero_le _

/-- Units keep in step on every source. -/
theorem compilationUnit_inStep_ofText (source : String) :
    InStep source.toList (Scan.ofText source) Agreement.same 0 1 {} compilationUnit :=
  compilationUnit_inStep (Scan.ordered_ofChars Position.start source.toList)

/-- **If every body reads alike, completing the diet parse gives the full parse**, both without
errors. -/
theorem complete_of_readsAlike (hdiet : (parse source true).errors = [])
    (halike : BodiesReadAlike source) :
    (parse source false).errors = [] ∧
      (parse source true).outline.complete source = ((parse source false).outline, []) := by
  obtain ⟨hscan, t, hdiet, ht⟩ := parse_errors_eq_nil.1 hdiet
  obtain ⟨hfull, hnone⟩ := (compilationUnit_inStep_ofText source).completes
    (atPlace_atStart _) hdiet ht halike
  rw [parse_of_ok hfull]
  refine ⟨by simp [hscan, ht], Prod.ext rfl hnone⟩

/-- **Completing the diet parse gives the full parse in no other way.** -/
theorem readsAlike_of_complete (hfull : (parse source false).errors = [])
    (hdiet : (parse source true).errors = [])
    (hcomplete : (parse source true).outline.complete source = ((parse source false).outline, [])) :
    BodiesReadAlike source := by
  obtain ⟨-, t, hdiet, ht⟩ := parse_errors_eq_nil.1 hdiet
  obtain ⟨-, u, hfull, hu⟩ := parse_errors_eq_nil.1 hfull
  obtain ⟨-, -, halike⟩ := (compilationUnit_inStep_ofText source).reflects (atPlace_atStart _) hdiet
    ht hfull hu (congrArg Prod.fst hcomplete) (congrArg Prod.snd hcomplete)
  exact halike

end Outline

/-! ### When they agree -/

/-- **When the completed diet parse and the full parse agree about a source**: if both find errors,
or if the diet parse finds none and every body that it passes over reads the same in place as by
itself. -/
theorem dietAgrees_iff (source : String) :
    DietAgrees source ↔
      ((Outline.parse source false).errors ≠ [] ∧
        ((Outline.parse source true).errors ≠ [] ∨
          ((Outline.parse source true).outline.complete source).2 ≠ [])) ∨
      ((Outline.parse source true).errors = [] ∧ BodiesReadAlike source) := by
  constructor
  · rintro ⟨hclean, hsame⟩
    by_cases hfull : (Outline.parse source false).errors = []
    · obtain ⟨hdiet, hlater⟩ := hclean.1 hfull
      refine .inr ⟨hdiet, Outline.readsAlike_of_complete hfull hdiet ?_⟩
      exact Prod.ext (hsame hfull hdiet hlater) hlater
    · have hstaged := mt hclean.2 hfull
      exact .inl ⟨hfull, Decidable.not_and_iff_or_not.1 hstaged⟩
  · rintro (⟨hfull, hstaged⟩ | ⟨hdiet, halike⟩)
    · refine ⟨⟨fun h => absurd h hfull, ?_⟩, fun h => absurd h hfull⟩
      rintro ⟨hdiet, hlater⟩
      rcases hstaged with h | h
      · exact absurd hdiet h
      · exact absurd hlater h
    · obtain ⟨hfull, hcomplete⟩ := Outline.complete_of_readsAlike hdiet halike
      have hlater := congrArg Prod.snd hcomplete
      exact ⟨⟨fun _ => ⟨hdiet, hlater⟩, fun _ => hfull⟩,
        fun _ _ _ => congrArg Prod.fst hcomplete⟩

example : DietAgrees "class A \x7b int x = 1; void m() \x7b x = x + 1; \x7d \x7d" := by
  decide +kernel

/-- In place the comparison of the loop looks like type arguments that the comparison in the other
method closes; by itself the body has no such closer. -/
theorem not_dietAgrees_comparison :
    ¬ DietAgrees ("class A \x7b void m() \x7b for (int i = 0; i < n; i++) \x7b \x7d \x7d " ++
      "void n() \x7b boolean c = a > b; \x7d \x7d") := by
  decide +kernel

end JavaOutline
