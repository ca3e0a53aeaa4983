/-
**The syntax tree of a unit.**

What a unit looks like as a tree can be said without a builder: by recursion on its declarations, with
the attributes of every node written down in the order of their names.  A node has its own parts
first: an initializer below a variable, parameters below a method, expressions below a statement.  The
body of an enum constant is a type of its own behind the constant.

The builder comes to the same tree by another way.  It is told of the nodes one by one, collects
attributes as it reads a declaration, and finds out from its stack what a node belongs to.

Main definitions:

* `valueAttribute`, `joinedAttribute`, `flagAttribute` — attributes that a node may have;
* `Statement.syntaxTree`, `TypeDecl.syntaxTree`, `Member.syntaxTrees`, `Outline.syntaxTree` — the
  syntax trees of declarations.

Main results:

* `TypeDecl.treeNode_eq`, `MethodDecl.treeNode_eq` — a node is begun with the attributes of its
  declaration in order;
* `TypeDecl.tree_eq`, `Outline.tree_eq` — **the tree that is kept is the syntax tree**;
* `rebuildUnit_syntaxTree` — **rebuilding a unit adds its syntax tree**.
-/

import JavaOutline.Proofs.Stages
import JavaOutline.Proofs.TreeBuilding

set_option autoImplicit false

namespace JavaOutline

/-! ### Syntax trees -/

/-- An attribute with a value, if there is one. -/
def valueAttribute (key : String) (value : Option String) : Attributes :=
  value.toList.map fun text => (key, text)

/-- An attribute that joins texts, if there are any. -/
def joinedAttribute (key separator : String) (texts : List String) : Attributes :=
  if texts = [] then [] else [(key, separator.intercalate texts)]

/-- An attribute that is there if something holds. -/
def flagAttribute (key : String) (holds : Bool) : Attributes :=
  if holds then [(key, "true")] else []

/-- The syntax tree of an expression. -/
def Expression.syntaxTree (e : Expression) : TreeNode where
  kind := e.kind.word
  attributes := [("text", e.text)]

mutual

/-- The syntax tree of a statement: its expressions, and then the statements inside. -/
def Statement.syntaxTree : Statement → TreeNode
  | ⟨kind, label, expressions, children, span⟩ =>
      { kind := kind.word
        name := label
        attributes := [("line", toString span.start.line)]
        children := expressions.map Expression.syntaxTree ++ Statement.syntaxTrees children }

/-- The syntax trees of statements. -/
def Statement.syntaxTrees : List Statement → List TreeNode
  | [] => []
  | statement :: statements => statement.syntaxTree :: Statement.syntaxTrees statements

end

/-- The syntax trees of the statements of a body. -/
def Body.syntaxTrees : Body → List TreeNode
  | .parsed block => Statement.syntaxTrees block.statements
  | .absent | .unparsed _ => []

/-- The syntax tree of a variable of a field, with its initializer below. -/
def VariableDecl.syntaxTree (decl : FieldDecl) (declared : VariableDecl) : TreeNode where
  kind := "field"
  name := some declared.name
  attributes := joinedAttribute "modifiers" " " decl.modifiers ++ [("type", decl.typeName)]
  children := declared.initializer.toList.map Expression.syntaxTree

/-- The syntax tree of a parameter. -/
def Parameter.syntaxTree (parameter : Parameter) : TreeNode where
  kind := "parameter"
  name := some parameter.name
  attributes := ("type", parameter.typeName) :: flagAttribute "varargs" parameter.varargs

/-- The syntax tree of a method or a constructor: its parameters, and then the statements of its
body. -/
def MethodDecl.syntaxTree (decl : MethodDecl) : TreeNode where
  kind := if decl.isConstructor then "constructor" else "method"
  name := some decl.name
  attributes := joinedAttribute "modifiers" " " decl.modifiers ++
    valueAttribute "returns" decl.returnType ++ joinedAttribute "throws" ", " decl.throws
  children := decl.parameters.map Parameter.syntaxTree ++ decl.body.syntaxTrees

/-- The syntax tree of an initializer. -/
def InitializerDecl.syntaxTree (decl : InitializerDecl) : TreeNode where
  kind := "initializer"
  attributes := [("static", if decl.isStatic then "true" else "false")]
  children := decl.body.syntaxTrees

mutual

/-- The syntax tree of a type. -/
def TypeDecl.syntaxTree : TypeDecl → TreeNode
  | ⟨kind, name, modifiers, typeParameters, superclass, interfaces, members, _⟩ =>
      { kind := kind.word
        name := some name
        attributes := valueAttribute "extends" superclass ++
          joinedAttribute "implements" ", " interfaces ++
          joinedAttribute "modifiers" " " modifiers ++ valueAttribute "type_parameters" typeParameters
        children := Member.allSyntaxTrees members }

/-- The syntax trees of members. -/
def Member.allSyntaxTrees : List Member → List TreeNode
  | [] => []
  | member :: members => member.syntaxTrees ++ Member.allSyntaxTrees members

/-- The syntax trees of a member: one for every variable of a field, and a second one behind an enum
constant with a body. -/
def Member.syntaxTrees : Member → List TreeNode
  | .field decl => decl.declarators.map (VariableDecl.syntaxTree decl)
  | .method decl => [decl.syntaxTree]
  | .initializer decl => [decl.syntaxTree]
  | .type decl => [decl.syntaxTree]
  | .enumConstant ⟨name, arguments, none, _⟩ =>
      [{ kind := "enum_constant", name := some name
         children := arguments.map Expression.syntaxTree }]
  | .enumConstant ⟨name, arguments, some body, _⟩ =>
      [{ kind := "enum_constant", name := some name
         children := arguments.map Expression.syntaxTree }, body.syntaxTree]

end

/-- The syntax tree of an import. -/
def ImportDecl.syntaxTree (decl : ImportDecl) : TreeNode where
  kind := "import"
  name := some decl.name
  attributes := flagAttribute "on_demand" decl.onDemand ++ flagAttribute "static" decl.isStatic

/-- The syntax tree of a unit: its package, its imports and its types. -/
def Outline.syntaxTree (outline : Outline) (file : String) (level : LanguageLevel) : TreeNode where
  kind := "compilation_unit"
  name := some file
  attributes := ("level", level.tag) :: valueAttribute "package" (outline.package.map PackageDecl.name)
  children :=
    (outline.package.toList.map fun decl => { kind := "package", name := some decl.name }) ++
      outline.imports.map ImportDecl.syntaxTree ++ outline.types.map TypeDecl.syntaxTree

/-! ### Nodes as they are begun -/

theorem ImportDecl.treeNode_eq (decl : ImportDecl) : decl.treeNode = decl.syntaxTree := by
  obtain ⟨name, isStatic, onDemand, span⟩ := decl
  cases isStatic <;> cases onDemand <;> rfl

theorem Parameter.treeNode_eq (parameter : Parameter) :
    parameter.treeNode = parameter.syntaxTree := by
  obtain ⟨modifiers, typeName, name, varargs, span⟩ := parameter
  cases varargs <;> rfl

theorem FieldDecl.treeNodes_eq (decl : FieldDecl) :
    decl.treeNodes = decl.declarators.map (VariableDecl.syntaxTree decl) := by
  obtain ⟨modifiers, typeName, declarators, span⟩ := decl
  refine List.map_congr_left fun declared _ => ?_
  cases modifiers <;> rfl

/-- A method is begun with its parameters. -/
theorem MethodDecl.treeNode_eq (decl : MethodDecl) :
    decl.treeNode =
      { decl.syntaxTree with children := decl.parameters.map Parameter.syntaxTree } := by
  have hparameters : decl.parameters.map Parameter.treeNode =
      decl.parameters.map Parameter.syntaxTree :=
    List.map_congr_left fun parameter _ => parameter.treeNode_eq
  obtain ⟨modifiers, typeParameters, returnType, name, parameters, throws, body, span⟩ := decl
  unfold treeNode
  rw [hparameters]
  cases modifiers <;> cases returnType <;> cases throws <;> rfl

theorem InitializerDecl.treeNode_eq (decl : InitializerDecl) :
    decl.treeNode = { decl.syntaxTree with children := [] } := rfl

/-- A type is begun without its members. -/
theorem TypeDecl.treeNode_eq (decl : TypeDecl) :
    decl.treeNode = { decl.syntaxTree with children := [] } := by
  obtain ⟨kind, name, modifiers, typeParameters, superclass, interfaces, members, span⟩ := decl
  rw [TypeDecl.syntaxTree]
  cases modifiers <;> cases typeParameters <;> cases superclass <;> cases interfaces <;> rfl

/-! ### Trees that are kept -/

mutual

theorem Statement.tree_eq : ∀ statement : Statement, statement.tree = statement.syntaxTree
  | ⟨kind, label, expressions, children, span⟩ => by
      rw [Statement.tree, Statement.syntaxTree, Statement.trees_eq children]
      rfl

theorem Statement.trees_eq : ∀ statements : List Statement,
    Statement.trees statements = Statement.syntaxTrees statements
  | [] => rfl
  | statement :: statements => by
      rw [Statement.trees, Statement.syntaxTrees, Statement.tree_eq statement,
        Statement.trees_eq statements]

end

theorem Body.trees_eq (body : Body) : body.trees = body.syntaxTrees := by
  cases body with
  | parsed block => exact Statement.trees_eq block.statements
  | absent => rfl
  | unparsed span => rfl

mutual

theorem TypeDecl.tree_eq : ∀ decl : TypeDecl, decl.tree = decl.syntaxTree
  | ⟨kind, name, modifiers, typeParameters, superclass, interfaces, members, span⟩ => by
      rw [TypeDecl.tree, TypeDecl.treeNode_eq, Member.allTrees_eq members, TypeDecl.syntaxTree]
      rfl

theorem Member.allTrees_eq : ∀ members : List Member,
    Member.allTrees members = Member.allSyntaxTrees members
  | [] => rfl
  | member :: members => by
      rw [Member.allTrees, Member.allSyntaxTrees, Member.trees_eq member,
        Member.allTrees_eq members]

theorem Member.trees_eq : ∀ member : Member, member.trees = member.syntaxTrees
  | .field decl => by rw [Member.trees, Member.syntaxTrees, decl.treeNodes_eq]
  | .method decl => by
      rw [Member.trees, Member.syntaxTrees, decl.treeNode_eq, decl.body.trees_eq]
      rfl
  | .initializer decl => by
      rw [Member.trees, Member.syntaxTrees, decl.treeNode_eq, decl.body.trees_eq]
      rfl
  | .type decl => by rw [Member.trees, Member.syntaxTrees, TypeDecl.tree_eq decl]
  | .enumConstant ⟨name, arguments, none, span⟩ => by
      rw [Member.trees, Member.syntaxTrees]
      rfl
  | .enumConstant ⟨name, arguments, some body, span⟩ => by
      rw [Member.trees, Member.syntaxTrees, TypeDecl.tree_eq body]
      rfl

end

/-- **The tree that is kept for a unit is its syntax tree.** -/
theorem Outline.tree_eq (outline : Outline) (file : String) (level : LanguageLevel) :
    outline.tree file level = outline.syntaxTree file level := by
  have himports : outline.imports.map ImportDecl.treeNode =
      outline.imports.map ImportDecl.syntaxTree :=
    List.map_congr_left fun decl _ => decl.treeNode_eq
  have htypes : outline.types.map TypeDecl.tree = outline.types.map TypeDecl.syntaxTree :=
    List.map_congr_left fun decl _ => decl.tree_eq
  rw [Outline.tree, himports, htypes, Outline.syntaxTree]
  unfold Outline.packageName
  cases outline.package <;> rfl

/-- **Rebuilding a unit adds its syntax tree**, whatever its outline, its file and the language level:
the builder takes every unit whose bodies are parsed, leaves no node open, and keeps one more tree
behind those it has. -/
theorem rebuildUnit_syntaxTree (level : LanguageLevel) (verbosity : Nat) (unit : CompilationUnit)
    (outline : Outline) (houtline : unit.outline = some outline)
    (hparsed : outline.hasUnparsedBodies = false) (shop : Workshop TreeBuilder)
    (hshop : shop.builder.pending = []) :
    (rebuildUnit treeBuilder level verbosity unit shop).value =
      (.ok (), { unit with state := .rebuilt },
        { builder :=
            { shop.builder with
              pending := []
              units := shop.builder.units ++ [outline.syntaxTree unit.file level] }
          conflicts := shop.conflicts.record unit.file outline }) := by
  have hready : unit.readyOutline = .ok outline := by
    simp [CompilationUnit.readyOutline, houtline, hparsed]
  rw [rebuildUnit_rebuilt hready (feed_nodeEvents outline unit.file level hshop),
    outline.tree_eq unit.file level, ← hshop]

/-- A class with two variables, a method with a branch, and an enum whose constant has a body. -/
def latchOutline : Outline where
  package := some { name := "locks", span := {} }
  imports := [{ name := "locks.keys", isStatic := false, onDemand := true, span := {} }]
  types :=
    [{ kind := .classType, name := "Latch", modifiers := ["public", "final"], span := {}
       members :=
        [.field
          { modifiers := ["private"], typeName := "int", span := {}
            declarators :=
              [{ name := "low", span := {}
                 initializer := some { kind := .literal, text := "1", span := {} } },
               { name := "high", span := {} }] },
         .method
          { modifiers := [], typeParameters := none, returnType := some "void", name := "shut"
            parameters :=
              [{ modifiers := [], typeName := "int", name := "turns", varargs := true, span := {} }]
            throws := ["Jam"], span := {}
            body := .parsed
              { statements :=
                  [{ kind := .ifThen, span := { start := { line := 5 } }
                     expressions := [{ kind := .name, text := "stuck", span := {} }]
                     children := [{ kind := .returnValue, span := { start := { line := 6 } } }] }] } },
         .type
          { kind := .enumType, name := "Mode", span := {}
            members :=
              [.enumConstant
                { name := "ON", span := {}
                  body := some { kind := .classType, name := "ON", span := {} } }] }] }]

/-- The builder keeps the class with all that is inside it, every part in its place. -/
theorem rebuildUnit_syntaxTree_latch :
    (rebuildUnit treeBuilder .jdk7 0
      (.make "Latch.java" .requested { file := "Latch.java", maxProblems := 100 } none
        (some latchOutline))
      { builder := {}, conflicts := {} }).value.2.2.builder.units =
      [{ kind := "compilation_unit", name := some "Latch.java"
         attributes := [("level", "JDK1_7"), ("package", "locks")]
         children :=
          [{ kind := "package", name := some "locks" },
           { kind := "import", name := some "locks.keys", attributes := [("on_demand", "true")] },
           { kind := "class", name := some "Latch", attributes := [("modifiers", "public final")]
             children :=
              [{ kind := "field", name := some "low"
                 attributes := [("modifiers", "private"), ("type", "int")]
                 children := [{ kind := "literal", attributes := [("text", "1")] }] },
               { kind := "field", name := some "high"
                 attributes := [("modifiers", "private"), ("type", "int")] },
               { kind := "method", name := some "shut"
                 attributes := [("returns", "void"), ("throws", "Jam")]
                 children :=
                  [{ kind := "parameter", name := some "turns"
                     attributes := [("type", "int"), ("varargs", "true")] },
                   { kind := "if", attributes := [("line", "5")]
                     children :=
                      [{ kind := "name", attributes := [("text", "stuck")] },
                       { kind := "return", attributes := [("line", "6")] }] }] },
               { kind := "enum", name := some "Mode"
                 children :=
                  [{ kind := "enum_constant", name := some "ON" },
                   { kind := "class", name := some "ON" }] }] }] }] := by
  rw [rebuildUnit_syntaxTree .jdk7 0 _ latchOutline rfl (by decide) _ rfl]
  rfl

end JavaOutline
