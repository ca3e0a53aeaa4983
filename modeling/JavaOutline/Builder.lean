/-
**Builders.**

A unit is rebuilt elsewhere by telling a builder about its nodes one after another: nodes with parts
are entered and left, other nodes are told of once.  A builder may reject what it is told, or may
turn out to lack an entry point.

Main definitions:

* `NodeEvent` — what a builder is told;
* `BuilderError`, `Builder` — builders with a state of their own, and how they fail;
* `Outline.nodeEvents` — what is told about a unit, node by node;
* `Builder.feed` — telling a builder several things, up to the first failure.

Main results:

* `Builder.feed_append` — feeding two lists is feeding one and then the other.
-/

import JavaOutline.LanguageLevel
import JavaOutline.Outline

set_option autoImplicit false

namespace JavaOutline

/-! ### Events -/

/-- What a builder is told about a unit. -/
inductive NodeEvent where
  | enterUnit (file : String) (package : Option String) (level : LanguageLevel)
  | leaveUnit (file : String)
  | packageClause (decl : PackageDecl)
  | importClause (decl : ImportDecl)
  | enterType (decl : TypeDecl)
  | leaveType (name : String)
  | field (decl : FieldDecl)
  | enumConstant (decl : EnumConstant)
  | enterMethod (decl : MethodDecl)
  | leaveMethod (name : String)
  | enterInitializer (decl : InitializerDecl)
  | leaveInitializer
  | enterStatement (statement : Statement)
  | leaveStatement (kind : Statement.Kind)
  | expression (e : Expression)
deriving DecidableEq

/-- The name of the entry point for an event. -/
def NodeEvent.entryPoint : NodeEvent → String
  | .enterUnit _ _ _ => "enter_compilation_unit"
  | .leaveUnit _ => "leave_compilation_unit"
  | .packageClause _ => "package"
  | .importClause _ => "import"
  | .enterType _ => "enter_type"
  | .leaveType _ => "leave_type"
  | .field _ => "field"
  | .enumConstant _ => "enum_constant"
  | .enterMethod _ => "enter_method"
  | .leaveMethod _ => "leave_method"
  | .enterInitializer _ => "enter_initializer"
  | .leaveInitializer => "leave_initializer"
  | .enterStatement _ => "enter_statement"
  | .leaveStatement _ => "leave_statement"
  | .expression _ => "expression"

/-! ### Builders -/

/-- How a builder fails. -/
inductive BuilderError where
  /-- It does not accept a node. -/
  | rejected (node message : String)
  /-- It lacks an entry point. -/
  | linkage (entryPoint : String)
deriving DecidableEq, Repr, Inhabited

/-- The text of the error. -/
def BuilderError.message : BuilderError → String
  | .rejected node message => "builder rejected " ++ node ++ ": " ++ message
  | .linkage entryPoint => "builder entry point '" ++ entryPoint ++ "' is unavailable"

/-- A builder with a state. -/
structure Builder (β : Type) where
  /-- A batch begins. -/
  beginBatch : β → Except BuilderError Unit × β
  /-- A batch ends. -/
  endBatch : β → Except BuilderError Unit × β
  /-- Whether a file is to be rebuilt; without an answer the command line decides. -/
  isSpecified : String → β → Option Bool × β
  /-- What was told about a unit is to be forgotten. -/
  abort : String → β → β
  /-- The next thing about a unit. -/
  node : NodeEvent → β → Except BuilderError Unit × β

/-- Tells a builder several things, up to the first failure. -/
def Builder.feed {β : Type} (builder : Builder β) : List NodeEvent → β → Except BuilderError Unit × β
  | [], state => (.ok (), state)
  | event :: events, state =>
      match builder.node event state with
      | (.ok (), next) => builder.feed events next
      | (.error e, next) => (.error e, next)

/-- Feeding two lists is feeding the first and, unless that fails, the second. -/
theorem Builder.feed_append {β : Type} (builder : Builder β) (front back : List NodeEvent)
    (state : β) :
    builder.feed (front ++ back) state =
      match builder.feed front state with
      | (.ok (), next) => builder.feed back next
      | (.error e, next) => (.error e, next) := by
  induction front generalizing state with
  | nil => rfl
  | cons event front ih =>
      simp only [List.cons_append, Builder.feed]
      split
      · exact ih _
      · rfl

/-! ### The events of a unit -/

mutual

/-- What is told about a statement: its expressions and then the statements inside. -/
def Statement.nodeEvents : Statement → List NodeEvent
  | ⟨kind, label, expressions, children, span⟩ =>
      .enterStatement ⟨kind, label, expressions, children, span⟩ ::
        (expressions.map .expression ++ Statement.allNodeEvents children ++ [.leaveStatement kind])

/-- What is told about statements. -/
def Statement.allNodeEvents : List Statement → List NodeEvent
  | [] => []
  | s :: ss => s.nodeEvents ++ Statement.allNodeEvents ss

end

/-- What is told about a body: its statements, once they are known. -/
def Body.nodeEvents : Body → List NodeEvent
  | .parsed block => Statement.allNodeEvents block.statements
  | .absent => []
  | .unparsed _ => []

mutual

/-- What is told about a type. -/
def TypeDecl.nodeEvents : TypeDecl → List NodeEvent
  | ⟨kind, name, modifiers, typeParameters, superclass, interfaces, members, span⟩ =>
      .enterType ⟨kind, name, modifiers, typeParameters, superclass, interfaces, members, span⟩ ::
        (Member.allNodeEvents members ++ [.leaveType name])

/-- What is told about members. -/
def Member.allNodeEvents : List Member → List NodeEvent
  | [] => []
  | m :: ms => m.nodeEvents ++ Member.allNodeEvents ms

/-- What is told about a member.  The body of an enum constant is a type of its own behind the
constant. -/
def Member.nodeEvents : Member → List NodeEvent
  | .field decl => [.field decl]
  | .method decl => .enterMethod decl :: (decl.body.nodeEvents ++ [.leaveMethod decl.name])
  | .initializer decl =>
      .enterInitializer decl :: (decl.body.nodeEvents ++ [.leaveInitializer])
  | .type decl => decl.nodeEvents
  | .enumConstant ⟨name, arguments, none, span⟩ => [.enumConstant ⟨name, arguments, none, span⟩]
  | .enumConstant ⟨name, arguments, some body, span⟩ =>
      .enumConstant ⟨name, arguments, some body, span⟩ :: body.nodeEvents

end

/-- What is told about a unit. -/
def Outline.nodeEvents (outline : Outline) (file : String) (level : LanguageLevel) :
    List NodeEvent :=
  .enterUnit file outline.packageName level ::
    (outline.package.toList.map .packageClause ++ outline.imports.map .importClause ++
      outline.types.flatMap TypeDecl.nodeEvents ++ [.leaveUnit file])

end JavaOutline
