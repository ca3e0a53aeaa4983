/-
**Sketches of units.**

A sketch says what a unit declares: its package, its imports and its types with their members.  Types
are written as one token, variables have no initializers, and bodies are empty.  A sketch is written
down as a list of tokens without places, and it has an outline, which is a tree without places.

Main definitions:

* `Outline.bare` — an outline without the places of its nodes;
* `PlainName`, `ModifierWord`, `TypeWord` — the words that sketches are made of;
* `TypeSketch`, `MemberSketch`, `UnitSketch` — sketches;
* `UnitSketch.words` — the tokens that a sketch is written with;
* `UnitSketch.outline` — the outline that a sketch stands for, with the bodies of a full or a diet
  parse;
* `TypeSketch.depth` — how deeply types are nested.
-/

import JavaOutline.Outline.Declarations
import JavaOutline.Proofs.Relexing

set_option autoImplicit false

namespace JavaOutline

/-! ### Outlines without places -/

/-- The expression without its place. -/
def Expression.bare (e : Expression) : Expression := { e with span := {} }

mutual

/-- The statement without the places of its parts. -/
def Statement.bare : Statement → Statement
  | ⟨kind, label, expressions, children, _⟩ =>
      ⟨kind, label, expressions.map Expression.bare, Statement.bareAll children, {}⟩

/-- The statements without places. -/
def Statement.bareAll : List Statement → List Statement
  | [] => []
  | s :: ss => s.bare :: Statement.bareAll ss

end

/-- The body without the places of its parts. -/
def Body.bare : Body → Body
  | .absent => .absent
  | .unparsed _ => .unparsed {}
  | .parsed block => .parsed ⟨Statement.bareAll block.statements, {}⟩

/-- The variable without its place. -/
def VariableDecl.bare (v : VariableDecl) : VariableDecl :=
  { v with initializer := v.initializer.map Expression.bare, span := {} }

/-- The parameter without its place. -/
def Parameter.bare (p : Parameter) : Parameter := { p with span := {} }

mutual

/-- The type without the places of its parts. -/
def TypeDecl.bare : TypeDecl → TypeDecl
  | ⟨kind, name, modifiers, typeParameters, superclass, interfaces, members, _⟩ =>
      ⟨kind, name, modifiers, typeParameters, superclass, interfaces, Member.bareAll members, {}⟩

/-- The members without places. -/
def Member.bareAll : List Member → List Member
  | [] => []
  | m :: ms => m.bare :: Member.bareAll ms

/-- The member without the places of its parts. -/
def Member.bare : Member → Member
  | .field decl => .field
      { decl with declarators := decl.declarators.map VariableDecl.bare, span := {} }
  | .method decl => .method
      { decl with parameters := decl.parameters.map Parameter.bare, body := decl.body.bare
                  span := {} }
  | .initializer decl => .initializer { decl with body := decl.body.bare, span := {} }
  | .type decl => .type decl.bare
  | .enumConstant ⟨name, arguments, none, _⟩ =>
      .enumConstant ⟨name, arguments.map Expression.bare, none, {}⟩
  | .enumConstant ⟨name, arguments, some body, _⟩ =>
      .enumConstant ⟨name, arguments.map Expression.bare, some body.bare, {}⟩

end

theorem Member.bareAll_eq (ms : List Member) : Member.bareAll ms = ms.map Member.bare := by
  induction ms with
  | nil => rfl
  | cons m ms ih => rw [Member.bareAll, ih, List.map_cons]

/-- The package declaration without its place. -/
def PackageDecl.bare (p : PackageDecl) : PackageDecl := { p with span := {} }

/-- The import declaration without its place. -/
def ImportDecl.bare (i : ImportDecl) : ImportDecl := { i with span := {} }

/-- The outline without the places of its parts. -/
def Outline.bare (o : Outline) : Outline where
  package := o.package.map PackageDecl.bare
  imports := o.imports.map ImportDecl.bare
  types := o.types.map TypeDecl.bare

/-! ### Words -/

namespace Token

/-- The keyword, without a place. -/
def keyword (text : String) : Token := ⟨.keyword, text, {}⟩

/-- The operator, without a place. -/
def operator (text : String) : Token := ⟨.operator, text, {}⟩

/-- The identifier, without a place. -/
def identifier (text : String) : Token := ⟨.identifier, text, {}⟩

end Token

/-- The identifiers that mean something in front of a type although they are no keywords. -/
def contextualWords : List String := ["record", "sealed", "non", "permits"]

/-- An identifier that means nothing in particular. -/
structure PlainName where
  text : String
  plain : text ∉ contextualWords
deriving DecidableEq, Repr

/-- A keyword that is a modifier. -/
structure ModifierWord where
  text : String
  known : text ∈ modifierWords
deriving DecidableEq, Repr

/-- A type that is written as one token. -/
inductive TypeWord where
  | name (name : PlainName)
  | primitive (text : String) (known : text ∈ primitiveTypes)
  | wildcard
deriving DecidableEq, Repr

/-- The token of a name. -/
def PlainName.token (n : PlainName) : Token := .identifier n.text

/-- The token of a modifier. -/
def ModifierWord.token (m : ModifierWord) : Token := .keyword m.text

/-- The token of a type. -/
def TypeWord.token : TypeWord → Token
  | name n => n.token
  | primitive text _ => .keyword text
  | wildcard => .operator "?"

/-- The text of a type. -/
def TypeWord.text (t : TypeWord) : String := t.token.text

/-- What items are written with, and a comma in front of every item but the first. -/
def commaWords {β : Type} (words : β → List Token) : List β → List Token
  | [] => []
  | first :: others => words first ++ others.flatMap fun item => .operator "," :: words item

/-- Words that are written if a flag is set. -/
def wordsIf (flag : Bool) (words : List Token) : List Token := if flag then words else []

/-- Types behind a keyword; without types the keyword is not written either. -/
def clauseWords (opening : String) : List TypeWord → List Token
  | [] => []
  | types => .keyword opening :: commaWords (fun t => [t.token]) types

/-! ### Names, imports and parameters -/

/-- A name of one or more parts. -/
structure DottedName where
  first : PlainName
  others : List PlainName := []
deriving DecidableEq, Repr

namespace DottedName

/-- The name with its points. -/
def text (n : DottedName) : String :=
  ".".intercalate (n.first.text :: n.others.map PlainName.text)

/-- The tokens of the name. -/
def words (n : DottedName) : List Token :=
  n.first.token :: n.others.flatMap fun part => [.operator ".", part.token]

end DottedName

/-- An import. -/
structure ImportSketch where
  name : DottedName
  isStatic : Bool := false
  onDemand : Bool := false
deriving DecidableEq, Repr

namespace ImportSketch

def words (i : ImportSketch) : List Token :=
  .keyword "import" :: (wordsIf i.isStatic [.keyword "static"] ++
    (i.name.words ++ (wordsIf i.onDemand [.operator ".", .operator "*"] ++ [.operator ";"])))

def decl (i : ImportSketch) : ImportDecl :=
  { name := i.name.text, isStatic := i.isStatic, onDemand := i.onDemand, span := {} }

end ImportSketch

/-- A parameter. -/
structure ParameterSketch where
  modifiers : List ModifierWord := []
  type : TypeWord
  varargs : Bool := false
  name : PlainName
deriving DecidableEq, Repr

namespace ParameterSketch

def words (p : ParameterSketch) : List Token :=
  p.modifiers.map ModifierWord.token ++
    (p.type.token :: (wordsIf p.varargs [.operator "..."] ++ [p.name.token]))

def decl (p : ParameterSketch) : Parameter :=
  { modifiers := p.modifiers.map ModifierWord.text, typeName := p.type.text, name := p.name.text
    varargs := p.varargs, span := {} }

end ParameterSketch

/-! ### Members and types -/

/-- Empty braces, or a semicolon where there is no body. -/
def bodyWords (hasBody : Bool) : List Token :=
  if hasBody then [.operator "\x7b", .operator "\x7d"] else [.operator ";"]

/-- The body that is read for empty braces; on a diet it waits. -/
def emptyBody (diet : Bool) : Body := if diet then .unparsed {} else .parsed {}

/-- What follows the name of a method or a constructor. -/
structure MethodTail where
  parameters : List ParameterSketch := []
  throws : List TypeWord := []
  /-- Whether there is a body, which then is empty. -/
  hasBody : Bool
deriving DecidableEq, Repr

namespace MethodTail

def words (m : MethodTail) : List Token :=
  .operator "(" :: (commaWords ParameterSketch.words m.parameters ++
    (.operator ")" :: (clauseWords "throws" m.throws ++ bodyWords m.hasBody)))

/-- The method with some modifiers, a type and a name in front. -/
def decl (diet : Bool) (modifiers : List ModifierWord) (returnType : Option TypeWord)
    (name : String) (m : MethodTail) : MethodDecl :=
  { modifiers := modifiers.map ModifierWord.text, typeParameters := none
    returnType := returnType.map TypeWord.text, name
    parameters := m.parameters.map ParameterSketch.decl, throws := m.throws.map TypeWord.text
    body := if m.hasBody then emptyBody diet else .absent, span := {} }

end MethodTail

/-- What sort of type it is, with the supertypes that the sort may have, and for an enum with its
constants. -/
inductive TypeHeader where
  | classType (superclass : Option TypeWord) (interfaces : List TypeWord)
  | interfaceType (interfaces : List TypeWord)
  | enumType (interfaces : List TypeWord) (constants : List PlainName)
  | annotationType
deriving DecidableEq, Repr

namespace TypeHeader

def kind : TypeHeader → TypeDecl.Kind
  | classType _ _ => .classType
  | interfaceType _ => .interfaceType
  | enumType _ _ => .enumType
  | annotationType => .annotationType

def superclass : TypeHeader → Option TypeWord
  | classType superclass _ => superclass
  | interfaceType _ | enumType _ _ | annotationType => none

def interfaces : TypeHeader → List TypeWord
  | classType _ interfaces | interfaceType interfaces | enumType interfaces _ => interfaces
  | annotationType => []

def constants : TypeHeader → List PlainName
  | enumType _ constants => constants
  | classType _ _ | interfaceType _ | annotationType => []

/-- The tokens in front of the name of the type. -/
def opening : TypeHeader → List Token
  | classType _ _ => [.keyword "class"]
  | interfaceType _ => [.keyword "interface"]
  | enumType _ _ => [.keyword "enum"]
  | annotationType => [.operator "@", .keyword "interface"]

/-- The tokens of the supertypes.  An interface extends its interfaces. -/
def supertypeWords : TypeHeader → List Token
  | classType superclass interfaces =>
      clauseWords "extends" superclass.toList ++ clauseWords "implements" interfaces
  | interfaceType interfaces => clauseWords "extends" interfaces
  | enumType interfaces _ => clauseWords "implements" interfaces
  | annotationType => []

/-- The tokens of the constants of an enum, which end with a semicolon if members follow. -/
def constantWords (hasMembers : Bool) : TypeHeader → List Token
  | enumType _ constants =>
      commaWords (fun n => [n.token]) constants ++ wordsIf hasMembers [.operator ";"]
  | classType _ _ | interfaceType _ | annotationType => []

end TypeHeader

mutual

/-- A type declaration. -/
inductive TypeSketch where
  | mk (modifiers : List ModifierWord) (header : TypeHeader) (name : PlainName)
      (members : List MemberSketch)

/-- A member of a type.  A constructor has the name of the type. -/
inductive MemberSketch where
  | type (decl : TypeSketch)
  | field (modifiers : List ModifierWord) (type : TypeWord) (first : PlainName)
      (others : List PlainName)
  | method (modifiers : List ModifierWord) (type : TypeWord) (name : PlainName) (tail : MethodTail)
  | constructor (modifiers : List ModifierWord) (tail : MethodTail)
  | initializer (isStatic : Bool)

end

mutual

/-- How deeply types are nested in the type, which counts itself. -/
def TypeSketch.depth : TypeSketch → Nat
  | .mk _ _ _ members => MemberSketch.depthIn members + 1

/-- How deeply types are nested in members. -/
def MemberSketch.depthIn : List MemberSketch → Nat
  | [] => 0
  | m :: ms => max m.depth (MemberSketch.depthIn ms)

/-- How deeply types are nested in a member. -/
def MemberSketch.depth : MemberSketch → Nat
  | .type decl => decl.depth
  | .field _ _ _ _ | .method _ _ _ _ | .constructor _ _ | .initializer _ => 0

end

mutual

/-- The tokens of a type. -/
def TypeSketch.words : TypeSketch → List Token
  | .mk modifiers header name members =>
      modifiers.map ModifierWord.token ++ (header.opening ++ (name.token ::
        (header.supertypeWords ++ (.operator "\x7b" :: (header.constantWords (!members.isEmpty) ++
          (MemberSketch.wordsIn name members ++ [.operator "\x7d"]))))))

/-- The tokens of the members of the type with a name. -/
def MemberSketch.wordsIn (typeName : PlainName) : List MemberSketch → List Token
  | [] => []
  | m :: ms => m.words typeName ++ MemberSketch.wordsIn typeName ms

/-- The tokens of a member of the type with a name. -/
def MemberSketch.words (typeName : PlainName) : MemberSketch → List Token
  | .type decl => decl.words
  | .field modifiers type first others =>
      modifiers.map ModifierWord.token ++ (type.token ::
        (commaWords (fun n => [n.token]) (first :: others) ++ [.operator ";"]))
  | .method modifiers type name tail =>
      modifiers.map ModifierWord.token ++ (type.token :: name.token :: tail.words)
  | .constructor modifiers tail =>
      modifiers.map ModifierWord.token ++ (typeName.token :: tail.words)
  | .initializer isStatic =>
      wordsIf isStatic [.keyword "static"] ++ bodyWords true

end

mutual

/-- The type that is read, with the bodies of a full or a diet parse. -/
def TypeSketch.decl (diet : Bool) : TypeSketch → TypeDecl
  | .mk modifiers header name members =>
      { kind := header.kind, name := name.text, modifiers := modifiers.map ModifierWord.text
        superclass := header.superclass.map TypeWord.text
        interfaces := header.interfaces.map TypeWord.text
        members := header.constants.map (fun n => .enumConstant { name := n.text, span := {} }) ++
          MemberSketch.membersIn diet name members
        span := {} }

/-- The members that are read for those of the type with a name. -/
def MemberSketch.membersIn (diet : Bool) (typeName : PlainName) : List MemberSketch → List Member
  | [] => []
  | m :: ms => m.member diet typeName :: MemberSketch.membersIn diet typeName ms

/-- The member that is read for one of the type with a name. -/
def MemberSketch.member (diet : Bool) (typeName : PlainName) : MemberSketch → Member
  | .type decl => .type (decl.decl diet)
  | .field modifiers type first others => .field
      { modifiers := modifiers.map ModifierWord.text, typeName := type.text
        declarators := (first :: others).map fun n => { name := n.text, span := {} }
        span := {} }
  | .method modifiers type name tail => .method (tail.decl diet modifiers (some type) name.text)
  | .constructor modifiers tail => .method (tail.decl diet modifiers none typeName.text)
  | .initializer isStatic => .initializer { isStatic, body := emptyBody diet, span := {} }

end

theorem MemberSketch.wordsIn_eq (typeName : PlainName) (ms : List MemberSketch) :
    MemberSketch.wordsIn typeName ms = ms.flatMap (MemberSketch.words typeName) := by
  induction ms with
  | nil => rfl
  | cons m ms ih => rw [MemberSketch.wordsIn, ih, List.flatMap_cons]

theorem MemberSketch.membersIn_eq (diet : Bool) (typeName : PlainName) (ms : List MemberSketch) :
    MemberSketch.membersIn diet typeName ms = ms.map (MemberSketch.member diet typeName) := by
  induction ms with
  | nil => rfl
  | cons m ms ih => rw [MemberSketch.membersIn, ih, List.map_cons]

/-- No member is nested more deeply than all of them. -/
theorem MemberSketch.depth_le {ms : List MemberSketch} {m : MemberSketch} (h : m ∈ ms) :
    m.depth ≤ MemberSketch.depthIn ms := by
  induction ms with
  | nil => cases h
  | cons m' ms ih =>
      rw [MemberSketch.depthIn]
      rcases List.mem_cons.1 h with rfl | hlater
      · exact Nat.le_max_left _ _
      · exact Nat.le_trans (ih hlater) (Nat.le_max_right _ _)

/-! ### Units -/

/-- A unit. -/
structure UnitSketch where
  package : Option DottedName := none
  imports : List ImportSketch := []
  types : List TypeSketch := []

namespace UnitSketch

/-- The tokens of the package declaration, if there is one. -/
def packageWords : Option DottedName → List Token
  | none => []
  | some name => .keyword "package" :: (name.words ++ [.operator ";"])

/-- The tokens that a unit is written with. -/
def words (u : UnitSketch) : List Token :=
  packageWords u.package ++ (u.imports.flatMap ImportSketch.words ++
    u.types.flatMap TypeSketch.words)

/-- The outline that is read, with the bodies of a full or a diet parse. -/
def outline (diet : Bool) (u : UnitSketch) : Outline where
  package := u.package.map fun name => { name := name.text, span := {} }
  imports := u.imports.map ImportSketch.decl
  types := u.types.map (TypeSketch.decl diet)

end UnitSketch

end JavaOutline
