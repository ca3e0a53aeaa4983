/-
**The outline of a compilation unit.**

Declarations are kept precisely; statements and expressions keep their sort, their text and how
they nest, which is what rebuilding them elsewhere takes.  The body of a method or an initializer
may be missing, left for later as the span of its braces, or parsed.

Main definitions:

* `Expression`, `Statement`, `Block`, `Body` — what stands in bodies;
* `FieldDecl`, `MethodDecl`, `InitializerDecl`, `TypeDecl`, `Member`, `EnumConstant` — what stands
  in types;
* `PackageDecl`, `ImportDecl`, `Outline` — a compilation unit;
* `Outline.allTypes` — every type, outer types before their members;
* `Outline.hasUnparsedBodies` — some body still waits.

Main results:

* decidable equality of statements, types and outlines.
-/

import JavaOutline.Span

set_option autoImplicit false

namespace JavaOutline

/-! ### Expressions -/

/-- The sorts of expressions. -/
inductive Expression.Kind where
  | literal
  | name
  | methodInvocation
  | fieldAccess
  | assignment
  | objectCreation
  | arrayCreation
  | lambda
  | conditional
  | binary
  | unary
  | cast
  | parenthesized
  | other
deriving DecidableEq, Repr, Inhabited

/-- The word for a sort of expressions. -/
def Expression.Kind.word : Expression.Kind → String
  | .literal => "literal"
  | .name => "name"
  | .methodInvocation => "method_invocation"
  | .fieldAccess => "field_access"
  | .assignment => "assignment"
  | .objectCreation => "object_creation"
  | .arrayCreation => "array_creation"
  | .lambda => "lambda"
  | .conditional => "conditional"
  | .binary => "binary"
  | .unary => "unary"
  | .cast => "cast"
  | .parenthesized => "parenthesized"
  | .other => "other"

/-- The sort of expressions that a word names; other words name no sort in particular. -/
def Expression.Kind.ofWord (word : String) : Expression.Kind :=
  ([.literal, .name, .methodInvocation, .fieldAccess, .assignment, .objectCreation,
    .arrayCreation, .lambda, .conditional, .binary, .unary, .cast,
    .parenthesized].find? (·.word == word)).getD other

/-- The sort is found by its word. -/
theorem Expression.Kind.ofWord_word (kind : Expression.Kind) : ofWord kind.word = kind := by
  cases kind <;> rfl

/-- An expression, kept as classified text. -/
structure Expression where
  /-- What sort of expression it is. -/
  kind : Expression.Kind
  /-- The text, with one blank where the source has a gap. -/
  text : String
  /-- Where it stands. -/
  span : Span
deriving DecidableEq, Repr, Inhabited

/-! ### Statements -/

/-- The sorts of statements. -/
inductive Statement.Kind where
  | block
  | localVariable
  | localType
  | expression
  | ifThen
  | forLoop
  | forEach
  | whileLoop
  | doLoop
  | switch
  | switchCase
  | tryBlock
  | catchBlock
  | finallyBlock
  | returnValue
  | throwValue
  | breakOut
  | continueLoop
  | synchronized
  | labeled
  | assertion
  | empty
deriving DecidableEq, Repr, Inhabited

/-- The word for a sort of statements. -/
def Statement.Kind.word : Statement.Kind → String
  | .block => "block"
  | .localVariable => "local_variable"
  | .localType => "local_type"
  | .expression => "expression"
  | .ifThen => "if"
  | .forLoop => "for"
  | .forEach => "foreach"
  | .whileLoop => "while"
  | .doLoop => "do"
  | .switch => "switch"
  | .switchCase => "case"
  | .tryBlock => "try"
  | .catchBlock => "catch"
  | .finallyBlock => "finally"
  | .returnValue => "return"
  | .throwValue => "throw"
  | .breakOut => "break"
  | .continueLoop => "continue"
  | .synchronized => "synchronized"
  | .labeled => "labeled"
  | .assertion => "assert"
  | .empty => "empty"

/-- The sort of statements that a word names; other words name the empty statement. -/
def Statement.Kind.ofWord (word : String) : Statement.Kind :=
  ([.block, .localVariable, .localType, .expression, .ifThen, .forLoop, .forEach, .whileLoop,
    .doLoop, .switch, .switchCase, .tryBlock, .catchBlock, .finallyBlock, .returnValue,
    .throwValue, .breakOut, .continueLoop, .synchronized, .labeled,
    .assertion].find? (·.word == word)).getD empty

/-- The sort is found by its word. -/
theorem Statement.Kind.ofWord_word (kind : Statement.Kind) : ofWord kind.word = kind := by
  cases kind <;> rfl

/-- A statement with the expressions and statements inside it. -/
structure Statement where
  /-- What sort of statement it is. -/
  kind : Statement.Kind
  /-- A label, the names of local variables or a parameter, where the sort has one. -/
  label : Option String := none
  /-- The expressions of the statement itself. -/
  expressions : List Expression := []
  /-- The statements inside. -/
  children : List Statement := []
  /-- Where it stands. -/
  span : Span
deriving Repr, Inhabited

mutual

/-- Equality of statements is decidable. -/
def Statement.decEq : (a b : Statement) → Decidable (a = b)
  | ⟨k, l, es, cs, s⟩, ⟨k', l', es', cs', s'⟩ =>
      if h : k = k' ∧ l = l' ∧ es = es' ∧ s = s' then
        match Statement.decEqList cs cs' with
        | isTrue h' => isTrue (by simp [h, h'])
        | isFalse h' => isFalse (by simp [h'])
      else isFalse fun e => h (by cases e; simp)

/-- Equality of lists of statements is decidable. -/
def Statement.decEqList : (as bs : List Statement) → Decidable (as = bs)
  | [], [] => isTrue rfl
  | [], _ :: _ => isFalse (by simp)
  | _ :: _, [] => isFalse (by simp)
  | a :: as, b :: bs =>
      match Statement.decEq a b, Statement.decEqList as bs with
      | isTrue h, isTrue h' => isTrue (by simp [h, h'])
      | isFalse h, _ => isFalse (by simp [h])
      | _, isFalse h' => isFalse (by simp [h'])

end

instance : DecidableEq Statement := Statement.decEq

/-- Statements between braces. -/
structure Block where
  /-- The statements in order. -/
  statements : List Statement := []
  /-- The span of the braces. -/
  span : Span := {}
deriving DecidableEq, Repr, Inhabited

/-- The body of a method or an initializer. -/
inductive Body where
  /-- There is none: the method is abstract or native. -/
  | absent
  /-- It was passed over; the span covers its braces. -/
  | unparsed (span : Span)
  /-- It was parsed. -/
  | parsed (block : Block)
deriving DecidableEq, Repr, Inhabited

/-- Whether the body still waits to be parsed. -/
def Body.isUnparsed : Body → Bool
  | .unparsed _ => true
  | .absent | .parsed _ => false

/-! ### Members -/

/-- A variable of a field declaration. -/
structure VariableDecl where
  name : String
  initializer : Option Expression := none
  span : Span
deriving DecidableEq, Repr, Inhabited

/-- A field declaration with one or more variables. -/
structure FieldDecl where
  modifiers : List String
  typeName : String
  /-- The variables in order. -/
  declarators : List VariableDecl
  span : Span
deriving DecidableEq, Repr, Inhabited

/-- A parameter of a method. -/
structure Parameter where
  modifiers : List String
  typeName : String
  name : String
  varargs : Bool
  span : Span
deriving DecidableEq, Repr, Inhabited

/-- A method or a constructor. -/
structure MethodDecl where
  modifiers : List String
  typeParameters : Option String
  /-- The return type; a constructor has none. -/
  returnType : Option String
  name : String
  parameters : List Parameter
  throws : List String
  body : Body
  span : Span
deriving DecidableEq, Repr, Inhabited

namespace MethodDecl

/-- Whether the method is a constructor. -/
def isConstructor (m : MethodDecl) : Bool := m.returnType.isNone

/-- The name with the written types of the parameters, by which a repeated method is told. -/
def signatureKey (m : MethodDecl) : String :=
  m.name ++ "(" ++ ",".intercalate (m.parameters.map Parameter.typeName) ++ ")"

end MethodDecl

/-- An initializer of a type. -/
structure InitializerDecl where
  isStatic : Bool
  body : Body
  span : Span
deriving DecidableEq, Repr, Inhabited

/-! ### Types -/

/-- The sorts of types. -/
inductive TypeDecl.Kind where
  | classType
  | interfaceType
  | enumType
  | annotationType
deriving DecidableEq, Repr, Inhabited

/-- The word for a sort of types. -/
def TypeDecl.Kind.word : TypeDecl.Kind → String
  | .classType => "class"
  | .interfaceType => "interface"
  | .enumType => "enum"
  | .annotationType => "annotation"

/-- The sort of types that a word names; other words name a class. -/
def TypeDecl.Kind.ofWord (word : String) : TypeDecl.Kind :=
  ([.interfaceType, .enumType, .annotationType].find? (·.word == word)).getD classType

/-- The sort is found by its word. -/
theorem TypeDecl.Kind.ofWord_word (kind : TypeDecl.Kind) : ofWord kind.word = kind := by
  cases kind <;> rfl

mutual

/-- A type declaration. -/
structure TypeDecl where
  kind : TypeDecl.Kind
  name : String
  modifiers : List String := []
  typeParameters : Option String := none
  superclass : Option String := none
  interfaces : List String := []
  members : List Member := []
  span : Span

/-- A member of a type. -/
inductive Member where
  | field (decl : FieldDecl)
  | method (decl : MethodDecl)
  | initializer (decl : InitializerDecl)
  | type (decl : TypeDecl)
  | enumConstant (decl : EnumConstant)

/-- A constant of an enum, which may have a class body of its own. -/
structure EnumConstant where
  name : String
  arguments : List Expression := []
  body : Option TypeDecl := none
  span : Span

end

mutual

/-- Equality of types is decidable. -/
def TypeDecl.decEq : (a b : TypeDecl) → Decidable (a = b)
  | ⟨k, n, m, t, p, i, ms, s⟩, ⟨k', n', m', t', p', i', ms', s'⟩ =>
      if h : k = k' ∧ n = n' ∧ m = m' ∧ t = t' ∧ p = p' ∧ i = i' ∧ s = s' then
        match Member.decEqList ms ms' with
        | isTrue h' => isTrue (by simp [h, h'])
        | isFalse h' => isFalse (by simp [h'])
      else isFalse fun e => h (by cases e; simp)

/-- Equality of optional types is decidable. -/
def TypeDecl.decEqOption : (a b : Option TypeDecl) → Decidable (a = b)
  | none, none => isTrue rfl
  | none, some _ => isFalse (by simp)
  | some _, none => isFalse (by simp)
  | some a, some b =>
      match TypeDecl.decEq a b with
      | isTrue h => isTrue (by simp [h])
      | isFalse h => isFalse (by simp [h])

/-- Equality of enum constants is decidable. -/
def EnumConstant.decEq : (a b : EnumConstant) → Decidable (a = b)
  | ⟨n, as, b, s⟩, ⟨n', as', b', s'⟩ =>
      if h : n = n' ∧ as = as' ∧ s = s' then
        match TypeDecl.decEqOption b b' with
        | isTrue h' => isTrue (by simp [h, h'])
        | isFalse h' => isFalse (by simp [h'])
      else isFalse fun e => h (by cases e; simp)

/-- Equality of members is decidable. -/
def Member.decEq : (a b : Member) → Decidable (a = b)
  | .field a, .field b => if h : a = b then isTrue (by rw [h]) else isFalse (by simp [h])
  | .method a, .method b => if h : a = b then isTrue (by rw [h]) else isFalse (by simp [h])
  | .initializer a, .initializer b =>
      if h : a = b then isTrue (by rw [h]) else isFalse (by simp [h])
  | .type a, .type b =>
      match TypeDecl.decEq a b with
      | isTrue h => isTrue (by rw [h])
      | isFalse h => isFalse (by simp [h])
  | .enumConstant a, .enumConstant b =>
      match EnumConstant.decEq a b with
      | isTrue h => isTrue (by rw [h])
      | isFalse h => isFalse (by simp [h])
  | .field _, .method _ | .field _, .initializer _ | .field _, .type _
  | .field _, .enumConstant _ | .method _, .field _ | .method _, .initializer _
  | .method _, .type _ | .method _, .enumConstant _ | .initializer _, .field _
  | .initializer _, .method _ | .initializer _, .type _ | .initializer _, .enumConstant _
  | .type _, .field _ | .type _, .method _ | .type _, .initializer _
  | .type _, .enumConstant _ | .enumConstant _, .field _ | .enumConstant _, .method _
  | .enumConstant _, .initializer _ | .enumConstant _, .type _ => isFalse (by simp)

/-- Equality of lists of members is decidable. -/
def Member.decEqList : (as bs : List Member) → Decidable (as = bs)
  | [], [] => isTrue rfl
  | [], _ :: _ => isFalse (by simp)
  | _ :: _, [] => isFalse (by simp)
  | a :: as, b :: bs =>
      match Member.decEq a b, Member.decEqList as bs with
      | isTrue h, isTrue h' => isTrue (by simp [h, h'])
      | isFalse h, _ => isFalse (by simp [h])
      | _, isFalse h' => isFalse (by simp [h'])

end

instance : DecidableEq TypeDecl := TypeDecl.decEq
instance : DecidableEq Member := Member.decEq
instance : DecidableEq EnumConstant := EnumConstant.decEq

namespace TypeDecl

/-- Whether the type is public. -/
def isPublic (t : TypeDecl) : Bool := t.modifiers.contains "public"

/-- The supertypes as they are written, the superclass first. -/
def supertypes (t : TypeDecl) : List String := t.superclass.toList ++ t.interfaces

end TypeDecl

/-! ### Walks over types -/

mutual

/-- The type and the types among its members, outer types first. -/
def TypeDecl.withNested : TypeDecl → List TypeDecl
  | ⟨k, n, m, t, p, i, ms, s⟩ => ⟨k, n, m, t, p, i, ms, s⟩ :: Member.nestedTypes ms

/-- The types among the members, outer types first. -/
def Member.nestedTypes : List Member → List TypeDecl
  | [] => []
  | .type t :: ms => t.withNested ++ Member.nestedTypes ms
  | _ :: ms => Member.nestedTypes ms

end

mutual

/-- Whether a body inside the type still waits to be parsed. -/
def TypeDecl.hasUnparsedBodies : TypeDecl → Bool
  | ⟨_, _, _, _, _, _, ms, _⟩ => Member.anyUnparsed ms

/-- Whether a body inside one of the members still waits to be parsed. -/
def Member.anyUnparsed : List Member → Bool
  | [] => false
  | m :: ms => m.hasUnparsedBodies || Member.anyUnparsed ms

/-- Whether a body inside the member still waits to be parsed. -/
def Member.hasUnparsedBodies : Member → Bool
  | .field _ => false
  | .method m => m.body.isUnparsed
  | .initializer i => i.body.isUnparsed
  | .type t => t.hasUnparsedBodies
  | .enumConstant ⟨_, _, none, _⟩ => false
  | .enumConstant ⟨_, _, some t, _⟩ => t.hasUnparsedBodies

end

/-! ### Compilation units -/

/-- A package declaration. -/
structure PackageDecl where
  /-- The dotted name. -/
  name : String
  span : Span
deriving DecidableEq, Repr, Inhabited

/-- The parts of a dotted name. -/
def nameParts (name : String) : List String :=
  (name.toList.splitOn '.').map String.ofList

/-- An import declaration. -/
structure ImportDecl where
  /-- The dotted name, without the star of an import on demand. -/
  name : String
  isStatic : Bool
  onDemand : Bool
  span : Span
deriving DecidableEq, Repr, Inhabited

namespace ImportDecl

/-- The last part of the name of a single import. -/
def simpleName (i : ImportDecl) : Option String :=
  if i.onDemand then none else (nameParts i.name).getLast?

/-- The name without its last part, empty for a name of one part. -/
def qualifier (i : ImportDecl) : String :=
  ".".intercalate (nameParts i.name).dropLast

end ImportDecl

/-- A compilation unit. -/
structure Outline where
  package : Option PackageDecl := none
  imports : List ImportDecl := []
  types : List TypeDecl := []
  span : Span := {}
deriving DecidableEq

namespace Outline

/-- Every type of the unit, outer types before their members. -/
def allTypes (o : Outline) : List TypeDecl := o.types.flatMap TypeDecl.withNested

/-- Whether some body still waits to be parsed. -/
def hasUnparsedBodies (o : Outline) : Bool := o.types.any TypeDecl.hasUnparsedBodies

/-- The name of the package, if one is declared. -/
def packageName (o : Outline) : Option String := o.package.map PackageDecl.name

end Outline

end JavaOutline
