/-
**What completing an outline leaves as it is.**

Completing an outline fills in the bodies that were passed over.  It does not touch what others see of
the unit: the types that it declares and what it refers to stay, and completing it again finds nothing
left to do.  So where a diet parse and a full parse agree about a source, it does not matter for the
batch which of them was made.

Main definitions:

* `SourceSound` — nothing is wrong with a source by itself;
* `ParsedAlike` — a source is parsed alike at all places of a command line.

Main results:

* `Outline.declaredTypes_complete`, `Outline.references_complete` — **completing keeps what others
  see**;
* `Outline.complete_complete` — completing a second time does nothing;
* `SourceSound.moved` — **a source that is parsed alike is as sound at any other place**.
-/

import JavaOutline.FrontEnd.Sources
import JavaOutline.Proofs.DietAgreement

set_option autoImplicit false

namespace JavaOutline

/-! ### Types -/

mutual

/-- A completed type declares the types that it declared. -/
theorem TypeDecl.declared_complete (text : List Char) (qualified : String) :
    (t : TypeDecl) → (t.complete text).1.declared qualified = t.declared qualified
  | ⟨_, _, _, _, _, _, members, _⟩ => by
      simp only [TypeDecl.complete, TypeDecl.declared,
        Member.declaredTypes_completeAll text qualified members]

/-- Completed members declare the types that they declared. -/
theorem Member.declaredTypes_completeAll (text : List Char) (qualified : String) :
    (ms : List Member) → Member.declaredTypes qualified (Member.completeAll text ms).1 =
      Member.declaredTypes qualified ms
  | [] => rfl
  | .field _ :: ms | .method _ :: ms | .initializer _ :: ms
  | .enumConstant ⟨_, _, none, _⟩ :: ms | .enumConstant ⟨_, _, some _, _⟩ :: ms => by
      simp only [Member.completeAll, Member.complete, Member.declaredTypes,
        Member.declaredTypes_completeAll text qualified ms]
  | .type t :: ms => by
      have hname : (t.complete text).1.name = t.name := by
        obtain ⟨_, _, _, _, _, _, _, _⟩ := t
        rfl
      simp only [Member.completeAll, Member.complete, Member.declaredTypes, hname,
        TypeDecl.declared_complete text _ t, Member.declaredTypes_completeAll text qualified ms]

end

/-- The names of the supertypes of a type, and where the type stands. -/
def TypeDecl.heritage (t : TypeDecl) : List String × Span := (Outline.supertypeNames t, t.span)

mutual

/-- The types in a completed type have the supertypes that they had. -/
theorem TypeDecl.heritage_complete (text : List Char) :
    (t : TypeDecl) → (t.complete text).1.withNested.map TypeDecl.heritage =
      t.withNested.map TypeDecl.heritage
  | ⟨_, _, _, _, _, _, members, _⟩ => by
      simp only [TypeDecl.complete, TypeDecl.withNested, List.map_cons,
        Member.heritage_completeAll text members]
      rfl

/-- The types among completed members have the supertypes that they had. -/
theorem Member.heritage_completeAll (text : List Char) :
    (ms : List Member) →
      (Member.nestedTypes (Member.completeAll text ms).1).map TypeDecl.heritage =
        (Member.nestedTypes ms).map TypeDecl.heritage
  | [] => rfl
  | .field _ :: ms | .method _ :: ms | .initializer _ :: ms
  | .enumConstant ⟨_, _, none, _⟩ :: ms | .enumConstant ⟨_, _, some _, _⟩ :: ms => by
      simp only [Member.completeAll, Member.complete, Member.nestedTypes,
        Member.heritage_completeAll text ms]
  | .type t :: ms => by
      simp only [Member.completeAll, Member.complete, Member.nestedTypes, List.map_append,
        TypeDecl.heritage_complete text t, Member.heritage_completeAll text ms]

end

/-- A completed body is not changed again. -/
theorem Body.complete_complete (text : List Char) (b : Body) :
    (b.complete text).1.complete text = ((b.complete text).1, []) := by
  cases b <;> rfl

mutual

/-- A completed type is not changed again. -/
theorem TypeDecl.complete_complete (text : List Char) :
    (t : TypeDecl) → (t.complete text).1.complete text = ((t.complete text).1, [])
  | ⟨_, _, _, _, _, _, members, _⟩ => by
      simp only [TypeDecl.complete, Member.completeAll_completeAll text members]

/-- Completed members are not changed again. -/
theorem Member.completeAll_completeAll (text : List Char) :
    (ms : List Member) → Member.completeAll text (Member.completeAll text ms).1 =
      ((Member.completeAll text ms).1, [])
  | [] => rfl
  | m :: ms => by
      simp only [Member.completeAll, Member.complete_complete text m,
        Member.completeAll_completeAll text ms, List.append_nil]

/-- A completed member is not changed again. -/
theorem Member.complete_complete (text : List Char) :
    (m : Member) → (m.complete text).1.complete text = ((m.complete text).1, [])
  | .field _ => rfl
  | .method decl => by simp only [Member.complete, decl.body.complete_complete text]
  | .initializer decl => by simp only [Member.complete, decl.body.complete_complete text]
  | .type t => by simp only [Member.complete, TypeDecl.complete_complete text t]
  | .enumConstant ⟨_, _, none, _⟩ => rfl
  | .enumConstant ⟨_, _, some body, _⟩ => by
      simp only [Member.complete, TypeDecl.complete_complete text body]

end

/-! ### Outlines -/

namespace Outline

variable (source : String) (o : Outline)

/-- **A completed outline declares the types that it declared.** -/
theorem declaredTypes_complete : (o.complete source).1.declaredTypes = o.declaredTypes := by
  have hname (t : TypeDecl) : (t.complete source.toList).1.name = t.name := by
    obtain ⟨_, _, _, _, _, _, _, _⟩ := t
    rfl
  simp only [complete, declaredTypes, packageName, List.map_map, List.flatMap_map,
    Function.comp_apply, hname, TypeDecl.declared_complete]

/-- **A completed outline refers to what it referred to.** -/
theorem references_complete : (o.complete source).1.references = o.references := by
  have hnamed (o : Outline) :
      (o.allTypes.flatMap fun t => (supertypeNames t).map (·, t.span)) =
        (o.allTypes.map TypeDecl.heritage).flatMap fun own => own.1.map (·, own.2) := by
    rw [List.flatMap_map]
    rfl
  have htypes : (o.complete source).1.allTypes.map TypeDecl.heritage =
      o.allTypes.map TypeDecl.heritage := by
    simp only [complete, allTypes, List.map_map, List.flatMap_map, List.map_flatMap,
      Function.comp_apply, TypeDecl.heritage_complete]
  unfold references supertypeReferences
  rw [hnamed, htypes, ← hnamed]
  rfl

/-- A completed outline is not changed again. -/
theorem complete_complete :
    (o.complete source).1.complete source = ((o.complete source).1, []) := by
  simp only [complete, List.map_map, Function.comp_def, TypeDecl.complete_complete,
    List.flatMap_map]
  simp

end Outline

/-! ### Sound sources -/

/-- Nothing is wrong with a source by itself: it is parsed without errors, on a diet or in full, its
bodies are too, and its members are in order. -/
structure SourceSound (file text : String) (diet : Bool) : Prop where
  parsed : (Outline.parse text diet).errors = []
  bodies : ((Outline.parse text diet).outline.complete text).2 = []
  members : ((Outline.parse text diet).outline.complete text).1.memberProblems
    (Path.fileStem file) = []

/-- A source is parsed alike at all places of a command line with so many sources: they are all parsed
on a diet or all in full, or the two parses agree about the source. -/
def ParsedAlike (threshold total : Nat) (text : String) : Prop :=
  threshold = 0 ∨ total ≤ threshold ∨ DietAgrees text

section

variable {file text : String}

/-- Where the two parses agree about a sound source, the full parse is the completed diet parse. -/
theorem SourceSound.complete_eq {diet : Bool} (h : SourceSound file text diet)
    (hagrees : DietAgrees text) :
    (Outline.parse text false).errors = [] ∧ (Outline.parse text true).errors = [] ∧
      (Outline.parse text true).outline.complete text =
        ((Outline.parse text false).outline, []) := by
  obtain ⟨hclean, hsame⟩ := hagrees
  have hfull : (Outline.parse text false).errors = [] := by
    cases diet with
    | false => exact h.parsed
    | true => exact hclean.2 ⟨h.parsed, h.bodies⟩
  obtain ⟨hdiet, hbodies⟩ := hclean.1 hfull
  exact ⟨hfull, hdiet, Prod.ext (hsame hfull hdiet hbodies) hbodies⟩

/-- Such a source is sound in both parses, and others see the same of it. -/
theorem SourceSound.agrees {diet : Bool} (h : SourceSound file text diet)
    (hagrees : DietAgrees text) (other : Bool) :
    SourceSound file text other ∧
      (Outline.parse text other).outline.declaredTypes =
        (Outline.parse text diet).outline.declaredTypes ∧
      (Outline.parse text other).outline.references =
        (Outline.parse text diet).outline.references := by
  obtain ⟨hfull, hdiet, hcomplete⟩ := h.complete_eq hagrees
  have hparsed (diet : Bool) : (Outline.parse text diet).errors = [] ∧
      (Outline.parse text diet).outline.complete text =
        ((Outline.parse text false).outline, []) := by
    cases diet with
    | true => exact ⟨hdiet, hcomplete⟩
    | false =>
        have hagain := (Outline.parse text true).outline.complete_complete text
        rw [hcomplete] at hagain
        exact ⟨hfull, hagain⟩
  have hdeclared (diet : Bool) : (Outline.parse text diet).outline.declaredTypes =
      (Outline.parse text false).outline.declaredTypes := by
    rw [← Outline.declaredTypes_complete text, (hparsed diet).2]
  have hreferences (diet : Bool) : (Outline.parse text diet).outline.references =
      (Outline.parse text false).outline.references := by
    rw [← Outline.references_complete text, (hparsed diet).2]
  have hmembers := h.members
  rw [(hparsed diet).2] at hmembers
  refine ⟨⟨(hparsed other).1, ?_, ?_⟩, ?_, ?_⟩
  · rw [(hparsed other).2]
  · rw [(hparsed other).2]
    exact hmembers
  · rw [hdeclared other, hdeclared diet]
  · rw [hreferences other, hreferences diet]

/-- **A source that is parsed alike is as sound at any other place**, and others see the same of it. -/
theorem SourceSound.moved {threshold total place other : Nat}
    (h : SourceSound file text (decide (threshold ≤ place)))
    (halike : ParsedAlike threshold total text) (hplace : place < total) (hother : other < total) :
    SourceSound file text (decide (threshold ≤ other)) ∧
      (Outline.parse text (decide (threshold ≤ other))).outline.declaredTypes =
        (Outline.parse text (decide (threshold ≤ place))).outline.declaredTypes ∧
      (Outline.parse text (decide (threshold ≤ other))).outline.references =
        (Outline.parse text (decide (threshold ≤ place))).outline.references := by
  have hsame (hsame : threshold ≤ other ↔ threshold ≤ place) :
      decide (threshold ≤ other) = decide (threshold ≤ place) := decide_eq_decide.2 hsame
  rcases halike with hzero | htotal | hagrees
  · rw [hsame (by omega)]
    exact ⟨h, rfl, rfl⟩
  · rw [hsame (by omega)]
    exact ⟨h, rfl, rfl⟩
  · exact h.agrees hagrees _

end

end JavaOutline
