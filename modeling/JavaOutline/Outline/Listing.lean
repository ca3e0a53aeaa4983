/-
**Listings of outlines.**

A listing has a row for every node of an outline, in the order in which the nodes begin, with the
depth of the node and what is known about it besides the nodes inside.  Written as JSON it shows an
outline to programs that do not have its types.

Main definitions:

* `OutlineRow` — a row of a listing;
* `Statement.listing`, `TypeDecl.listing`, `Member.listing` — the rows for a part of an outline;
* `Outline.listing` — the rows for an outline;
* `Outline.json` — an outline with its listing.
-/

import JavaOutline.JsonValue
import JavaOutline.Outline

set_option autoImplicit false

namespace JavaOutline

/-! ### Rows -/

/-- The numbers of a span: offset, line and column of its start and of its end. -/
def Span.json (span : Span) : JsonValue :=
  .numbers [span.start.offset, span.start.line, span.start.column,
    span.stop.offset, span.stop.line, span.stop.column]

/-- A node of an outline, without the nodes inside it. -/
structure OutlineRow where
  /-- The number of nodes around the node. -/
  depth : Nat
  /-- What sort of node it is. -/
  tag : String
  span : Span
  /-- What else is known about the node. -/
  fields : List JsonField

/-- The row as depth, sort and fields. -/
def OutlineRow.json (row : OutlineRow) : JsonValue :=
  .array [.number row.depth, .text row.tag, .object (⟨"span", row.span.json⟩ :: row.fields)]

/-! ### Bodies -/

/-- The row for an expression. -/
def Expression.row (depth : Nat) (e : Expression) : OutlineRow :=
  ⟨depth, "expr", e.span, [⟨"kind", .text e.kind.word⟩, ⟨"text", .text e.text⟩]⟩

mutual

/-- The rows for a statement: its own, those of its expressions, those of the statements inside. -/
def Statement.listing (depth : Nat) : Statement → List OutlineRow
  | ⟨kind, label, expressions, children, span⟩ =>
      ⟨depth, "stmt", span, [⟨"kind", .text kind.word⟩, ⟨"label", .optional .text label⟩]⟩ ::
        (expressions.map (Expression.row (depth + 1)) ++
          Statement.listingAll (depth + 1) children)

/-- The rows for statements. -/
def Statement.listingAll (depth : Nat) : List Statement → List OutlineRow
  | [] => []
  | s :: ss => s.listing depth ++ Statement.listingAll depth ss

end

/-- What is known about a body besides its statements. -/
def Body.fields : Body → List JsonField
  | .absent => [⟨"body", .text "none"⟩, ⟨"body_span", .null⟩]
  | .unparsed span => [⟨"body", .text "unparsed"⟩, ⟨"body_span", span.json⟩]
  | .parsed block => [⟨"body", .text "parsed"⟩, ⟨"body_span", block.span.json⟩]

/-- The rows for the statements of a body. -/
def Body.listing (depth : Nat) : Body → List OutlineRow
  | .absent | .unparsed _ => []
  | .parsed block => Statement.listingAll depth block.statements

/-! ### Members -/

/-- The rows for a variable of a field. -/
def VariableDecl.listing (depth : Nat) (v : VariableDecl) : List OutlineRow :=
  ⟨depth, "var", v.span, [⟨"name", .text v.name⟩]⟩ ::
    v.initializer.toList.map (Expression.row (depth + 1))

/-- The rows for a field. -/
def FieldDecl.listing (depth : Nat) (f : FieldDecl) : List OutlineRow :=
  ⟨depth, "field", f.span, [⟨"modifiers", .texts f.modifiers⟩, ⟨"type", .text f.typeName⟩]⟩ ::
    f.declarators.flatMap (VariableDecl.listing (depth + 1))

/-- The row for a parameter. -/
def Parameter.row (depth : Nat) (p : Parameter) : OutlineRow :=
  ⟨depth, "param", p.span,
    [⟨"modifiers", .texts p.modifiers⟩, ⟨"type", .text p.typeName⟩, ⟨"name", .text p.name⟩,
     ⟨"varargs", .bool p.varargs⟩]⟩

/-- The rows for a method. -/
def MethodDecl.listing (depth : Nat) (m : MethodDecl) : List OutlineRow :=
  ⟨depth, "method", m.span,
    [⟨"modifiers", .texts m.modifiers⟩, ⟨"type_parameters", .optional .text m.typeParameters⟩,
     ⟨"returns", .optional .text m.returnType⟩, ⟨"name", .text m.name⟩,
     ⟨"throws", .texts m.throws⟩, ⟨"key", .text m.signatureKey⟩,
     ⟨"constructor", .bool m.isConstructor⟩] ++ m.body.fields⟩ ::
    (m.parameters.map (Parameter.row (depth + 1)) ++ m.body.listing (depth + 1))

/-- The rows for an initializer. -/
def InitializerDecl.listing (depth : Nat) (i : InitializerDecl) : List OutlineRow :=
  ⟨depth, "initializer", i.span, ⟨"static", .bool i.isStatic⟩ :: i.body.fields⟩ ::
    i.body.listing (depth + 1)

/-- The row for a type. -/
def TypeDecl.row (depth : Nat) (t : TypeDecl) : OutlineRow :=
  ⟨depth, "type", t.span,
    [⟨"kind", .text t.kind.word⟩, ⟨"name", .text t.name⟩, ⟨"modifiers", .texts t.modifiers⟩,
     ⟨"public", .bool t.isPublic⟩, ⟨"type_parameters", .optional .text t.typeParameters⟩,
     ⟨"superclass", .optional .text t.superclass⟩, ⟨"interfaces", .texts t.interfaces⟩]⟩

mutual

/-- The rows for a type: its own and those of its members. -/
def TypeDecl.listing (depth : Nat) : TypeDecl → List OutlineRow
  | ⟨k, n, m, t, p, i, ms, s⟩ =>
      TypeDecl.row depth ⟨k, n, m, t, p, i, ms, s⟩ :: Member.listingAll (depth + 1) ms

/-- The rows for members. -/
def Member.listingAll (depth : Nat) : List Member → List OutlineRow
  | [] => []
  | m :: ms => m.listing depth ++ Member.listingAll depth ms

/-- The rows for a member. -/
def Member.listing (depth : Nat) : Member → List OutlineRow
  | .field f => f.listing depth
  | .method m => m.listing depth
  | .initializer i => i.listing depth
  | .type t => t.listing depth
  | .enumConstant ⟨name, arguments, none, span⟩ =>
      ⟨depth, "enum_constant", span, [⟨"name", .text name⟩]⟩ ::
        arguments.map (Expression.row (depth + 1))
  | .enumConstant ⟨name, arguments, some body, span⟩ =>
      ⟨depth, "enum_constant", span, [⟨"name", .text name⟩]⟩ ::
        (arguments.map (Expression.row (depth + 1)) ++ body.listing (depth + 1))

end

/-! ### Outlines -/

/-- What is known about a package declaration. -/
def PackageDecl.json (package : PackageDecl) : JsonValue :=
  .object
    [⟨"name", .text package.name⟩, ⟨"tokens", .texts (nameParts package.name)⟩,
     ⟨"span", package.span.json⟩]

/-- What is known about an import. -/
def ImportDecl.json (i : ImportDecl) : JsonValue :=
  .object
    [⟨"name", .text i.name⟩, ⟨"static", .bool i.isStatic⟩, ⟨"on_demand", .bool i.onDemand⟩,
     ⟨"simple", .optional .text i.simpleName⟩, ⟨"qualifier", .text i.qualifier⟩,
     ⟨"span", i.span.json⟩]

namespace Outline

/-- The rows for the types of an outline. -/
def listing (o : Outline) : List OutlineRow := o.types.flatMap (TypeDecl.listing 0)

/-- The outline with its listing. -/
def json (o : Outline) : JsonValue :=
  .object
    [⟨"span", o.span.json⟩, ⟨"package", .optional PackageDecl.json o.package⟩,
     ⟨"imports", .array (o.imports.map ImportDecl.json)⟩,
     ⟨"nodes", .array (o.listing.map OutlineRow.json)⟩,
     ⟨"all_types", .texts (o.allTypes.map TypeDecl.name)⟩,
     ⟨"unparsed", .bool o.hasUnparsedBodies⟩]

end Outline

end JavaOutline
