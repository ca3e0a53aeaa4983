/-
**Bodies that were left for later.**

A diet parse keeps a body as the span of its braces.  Completing an outline parses these bodies
from the source and leaves everything else as it is.

Main definitions:

* `Block.parse` — the block that stands at a span of a source;
* `Body.complete`, `TypeDecl.complete`, `Outline.complete` — filling in what was left.

Main results:

* `Body.complete_isUnparsed`, `TypeDecl.complete_hasUnparsedBodies`,
  `Outline.complete_hasUnparsedBodies` — **nothing is left unparsed**.
-/

import JavaOutline.Outline.Declarations
import JavaOutline.Token.Range

set_option autoImplicit false

namespace JavaOutline

open JavaOutline.Parser

/-! ### Completing -/

/-- Parses the block that stands at a span of a source.  A block that cannot be read is empty. -/
def Block.parse (source : List Char) (span : Span) : Block × List SyntaxError :=
  let scan := Scan.ofRange source span.start span.stop.offset
  let lexical := scan.errors.map SyntaxError.lexical
  match block outermost (scan.setting false) { rest := scan.tokens } with
  | .ok found s => (found, lexical ++ s.errors.toList)
  | .fail error s => ({ span }, lexical ++ (s.report error).errors.toList)

/-- The body with what was left filled in, and the errors found. -/
def Body.complete (source : List Char) : Body → Body × List SyntaxError
  | .unparsed span =>
      let (found, errors) := Block.parse source span
      (.parsed found, errors)
  | .absent => (.absent, [])
  | .parsed found => (.parsed found, [])

mutual

/-- The type with what was left filled in, and the errors found. -/
def TypeDecl.complete (source : List Char) : TypeDecl → TypeDecl × List SyntaxError
  | ⟨kind, name, modifiers, typeParameters, superclass, interfaces, members, span⟩ =>
      let (members, errors) := Member.completeAll source members
      (⟨kind, name, modifiers, typeParameters, superclass, interfaces, members, span⟩, errors)

/-- The members with what was left filled in, and the errors found. -/
def Member.completeAll (source : List Char) : List Member → List Member × List SyntaxError
  | [] => ([], [])
  | m :: ms =>
      let (m, errors) := m.complete source
      let (ms, later) := Member.completeAll source ms
      (m :: ms, errors ++ later)

/-- The member with what was left filled in, and the errors found. -/
def Member.complete (source : List Char) : Member → Member × List SyntaxError
  | .field decl => (.field decl, [])
  | .method decl =>
      let (body, errors) := decl.body.complete source
      (.method { decl with body }, errors)
  | .initializer decl =>
      let (body, errors) := decl.body.complete source
      (.initializer { decl with body }, errors)
  | .type decl =>
      let (decl, errors) := decl.complete source
      (.type decl, errors)
  | .enumConstant ⟨name, arguments, none, span⟩ => (.enumConstant ⟨name, arguments, none, span⟩, [])
  | .enumConstant ⟨name, arguments, some body, span⟩ =>
      let (body, errors) := body.complete source
      (.enumConstant ⟨name, arguments, some body, span⟩, errors)

end

/-- The outline with what was left filled in, and the errors found. -/
def Outline.complete (source : String) (o : Outline) : Outline × List SyntaxError :=
  let text := source.toList
  let completed := o.types.map (TypeDecl.complete text)
  ({ o with types := completed.map Prod.fst }, completed.flatMap Prod.snd)

/-! ### Nothing is left -/

/-- A completed body is not left for later. -/
theorem Body.complete_isUnparsed (source : List Char) (b : Body) :
    (b.complete source).1.isUnparsed = false := by
  cases b <;> rfl

mutual

/-- In a completed type nothing is left for later. -/
theorem TypeDecl.complete_hasUnparsedBodies (source : List Char) :
    (t : TypeDecl) → (t.complete source).1.hasUnparsedBodies = false
  | ⟨_, _, _, _, _, _, members, _⟩ => by
      simpa [TypeDecl.complete, TypeDecl.hasUnparsedBodies] using
        Member.completeAll_anyUnparsed source members

/-- In completed members nothing is left for later. -/
theorem Member.completeAll_anyUnparsed (source : List Char) :
    (ms : List Member) → Member.anyUnparsed (Member.completeAll source ms).1 = false
  | [] => rfl
  | m :: ms => by
      simp [Member.completeAll, Member.anyUnparsed, Member.complete_hasUnparsedBodies source m,
        Member.completeAll_anyUnparsed source ms]

/-- In a completed member nothing is left for later. -/
theorem Member.complete_hasUnparsedBodies (source : List Char) :
    (m : Member) → (m.complete source).1.hasUnparsedBodies = false
  | .field _ => rfl
  | .method decl => Body.complete_isUnparsed source decl.body
  | .initializer decl => Body.complete_isUnparsed source decl.body
  | .type decl => by
      simpa [Member.complete, Member.hasUnparsedBodies] using
        TypeDecl.complete_hasUnparsedBodies source decl
  | .enumConstant ⟨_, _, none, _⟩ => rfl
  | .enumConstant ⟨_, _, some body, _⟩ => by
      simpa [Member.complete, Member.hasUnparsedBodies] using
        TypeDecl.complete_hasUnparsedBodies source body

end

/-- **In a completed outline nothing is left for later.** -/
theorem Outline.complete_hasUnparsedBodies (source : String) (o : Outline) :
    (o.complete source).1.hasUnparsedBodies = false := by
  simp [Outline.complete, Outline.hasUnparsedBodies, TypeDecl.complete_hasUnparsedBodies]

end JavaOutline
