/-
**Trees in memory.**

A builder that keeps every unit as a tree of nodes with a sort, a name where they have one, and
attributes.  Nodes that were entered and not yet left stand on a stack.

Main definitions:

* `TreeNode` — the trees;
* `TreeBuilder` — the state of the builder;
* `TreeBuilder.node`, `treeBuilder` — the builder;
* `TreeNode.json`, `TreeBuilder.exported` — the trees as JSON.
-/

import JavaOutline.Attributes
import JavaOutline.Builder
import JavaOutline.JsonValue

set_option autoImplicit false

namespace JavaOutline

/-! ### Trees -/

/-- A node of a tree. -/
structure TreeNode where
  kind : String
  name : Option String := none
  attributes : Attributes := []
  children : List TreeNode := []
deriving Inhabited

namespace TreeNode

/-- The node with one more attribute. -/
def note (node : TreeNode) (key value : String) : TreeNode :=
  { node with attributes := node.attributes.set key value }

/-- The node with one more attribute, if there is a value. -/
def noteSome (node : TreeNode) (key : String) : Option String → TreeNode
  | some value => node.note key value
  | none => node

/-- The node with an attribute that joins texts, if there are any. -/
def noteJoined (node : TreeNode) (key separator : String) (texts : List String) : TreeNode :=
  if texts.isEmpty then node else node.note key (separator.intercalate texts)

/-- The node with an attribute, if it holds. -/
def noteFlag (node : TreeNode) (key : String) (holds : Bool) : TreeNode :=
  if holds then node.note key "true" else node

/-- The node with one more child behind the others. -/
def push (node child : TreeNode) : TreeNode := { node with children := node.children ++ [child] }

mutual

/-- The number of nodes of a tree. -/
def count : TreeNode → Nat
  | ⟨_, _, _, children⟩ => 1 + countAll children

/-- The number of nodes of trees. -/
def countAll : List TreeNode → Nat
  | [] => 0
  | node :: nodes => node.count + countAll nodes

end

/-- The first child of a sort with a name. -/
def findChild? (node : TreeNode) (kind name : String) : Option TreeNode :=
  node.children.find? fun child => child.kind == kind && child.name == some name

mutual

/-- The tree as JSON; parts that are missing or empty are left out. -/
def json : TreeNode → JsonValue
  | ⟨kind, name, attributes, children⟩ =>
      .object
        (⟨"kind", .text kind⟩ ::
          ((name.toList.map fun text => ⟨"name", .text text⟩) ++
            (if attributes.isEmpty then []
              else [⟨"attributes",
                .object (attributes.map fun pair => ⟨pair.1, .text pair.2⟩)⟩]) ++
            (if children.isEmpty then [] else [⟨"children", .array (jsonAll children)⟩])))

/-- Trees as JSON. -/
def jsonAll : List TreeNode → List JsonValue
  | [] => []
  | node :: nodes => node.json :: jsonAll nodes

end

end TreeNode

/-! ### Nodes for declarations -/

/-- The node for an expression. -/
def Expression.treeNode (e : Expression) : TreeNode :=
  { kind := e.kind.word : TreeNode }.note "text" e.text

/-- The node for an import. -/
def ImportDecl.treeNode (decl : ImportDecl) : TreeNode :=
  ({ kind := "import", name := some decl.name : TreeNode }.noteFlag "static" decl.isStatic).noteFlag
    "on_demand" decl.onDemand

/-- The node for a type, without its members. -/
def TypeDecl.treeNode (decl : TypeDecl) : TreeNode :=
  ((({ kind := decl.kind.word, name := some decl.name : TreeNode }.noteJoined "modifiers" " "
    decl.modifiers).noteSome "type_parameters" decl.typeParameters).noteSome
    "extends" decl.superclass).noteJoined "implements" ", " decl.interfaces

/-- The nodes for a field, one for each variable with its initializer below. -/
def FieldDecl.treeNodes (decl : FieldDecl) : List TreeNode :=
  decl.declarators.map fun declared =>
    { (({ kind := "field", name := some declared.name : TreeNode }.note "type"
        decl.typeName).noteJoined "modifiers" " " decl.modifiers) with
      children := declared.initializer.toList.map Expression.treeNode }

/-- The node for an enum constant, with its arguments below. -/
def EnumConstant.treeNode (decl : EnumConstant) : TreeNode where
  kind := "enum_constant"
  name := some decl.name
  children := decl.arguments.map Expression.treeNode

/-- The node for a parameter. -/
def Parameter.treeNode (parameter : Parameter) : TreeNode :=
  ({ kind := "parameter", name := some parameter.name : TreeNode }.note "type"
    parameter.typeName).noteFlag "varargs" parameter.varargs

/-- The sort of the node for a method or a constructor. -/
def MethodDecl.nodeKind (decl : MethodDecl) : String :=
  if decl.isConstructor then "constructor" else "method"

/-- The node for a method, with its parameters below and without its body. -/
def MethodDecl.treeNode (decl : MethodDecl) : TreeNode :=
  { ((({ kind := decl.nodeKind, name := some decl.name : TreeNode }.noteSome "returns"
      decl.returnType).noteJoined "modifiers" " " decl.modifiers).noteJoined
      "throws" ", " decl.throws) with
    children := decl.parameters.map Parameter.treeNode }

/-- The node for an initializer, without its body. -/
def InitializerDecl.treeNode (decl : InitializerDecl) : TreeNode :=
  { kind := "initializer" : TreeNode }.note "static" (if decl.isStatic then "true" else "false")

/-- The node for a statement, without what is inside. -/
def Statement.treeNode (statement : Statement) : TreeNode :=
  { kind := statement.kind.word, name := statement.label : TreeNode }.note "line"
    (toString statement.span.start.line)

/-- The node for a unit, without its declarations. -/
def unitTreeNode (file : String) (package : Option String) (level : LanguageLevel) : TreeNode :=
  ({ kind := "compilation_unit", name := some file : TreeNode }.note "level" level.tag).noteSome
    "package" package

/-! ### The builder -/

/-- The state of a builder that keeps trees. -/
structure TreeBuilder where
  /-- The trees of the units, in order. -/
  units : List TreeNode := []
  /-- The nodes that were entered and not left, the innermost first. -/
  pending : List TreeNode := []
  batchesStarted : Nat := 0
  batchesCompleted : Nat := 0
deriving Inhabited

namespace TreeBuilder

/-- Enters a node; the outermost one stands for a unit. -/
def enter (node : TreeNode) (state : TreeBuilder) : Except BuilderError Unit × TreeBuilder :=
  if state.pending.isEmpty && node.kind != "compilation_unit" then
    (.error (.rejected node.kind "no open compilation unit"), state)
  else (.ok (), { state with pending := node :: state.pending })

/-- Puts a node below the innermost one that was entered. -/
def leaf (node : TreeNode) (state : TreeBuilder) : Except BuilderError Unit × TreeBuilder :=
  match state.pending with
  | parent :: outer => (.ok (), { state with pending := parent.push node :: outer })
  | [] => (.error (.rejected node.kind "no open compilation unit"), state)

/-- Puts nodes below the innermost one that was entered, up to the first failure. -/
def leaves : List TreeNode → TreeBuilder → Except BuilderError Unit × TreeBuilder
  | [], state => (.ok (), state)
  | node :: nodes, state =>
      match state.leaf node with
      | (.ok (), next) => leaves nodes next
      | (.error e, next) => (.error e, next)

/-- Takes the innermost node that was entered off the stack, which should be of a sort.  It is off
the stack even if it is not. -/
def close (kind : String) (state : TreeBuilder) : Except BuilderError TreeNode × TreeBuilder :=
  match state.pending with
  | [] => (.error (.rejected kind "nothing to close"), state)
  | node :: outer =>
      let next := { state with pending := outer }
      if node.kind = kind then (.ok node, next)
      else (.error (.rejected kind ("innermost open node is " ++ node.kind)), next)

/-- Leaves a node of a sort, which becomes a child of the node around it. -/
def leave (kind : String) (state : TreeBuilder) : Except BuilderError Unit × TreeBuilder :=
  match state.close kind with
  | (.ok node, next) => next.leaf node
  | (.error e, next) => (.error e, next)

/-- The sort of the innermost node that was entered, empty if there is none. -/
def innermostKind (state : TreeBuilder) : String :=
  (state.pending.head?.map TreeNode.kind).getD ""

/-- Enters a unit; no other one may be pending. -/
def enterUnit (node : TreeNode) (state : TreeBuilder) : Except BuilderError Unit × TreeBuilder :=
  if state.pending.isEmpty then state.enter node
  else (.error (.rejected "compilation_unit" "previous unit still open"), state)

/-- Leaves a unit, whose tree is kept. -/
def leaveUnit (file : String) (state : TreeBuilder) : Except BuilderError Unit × TreeBuilder :=
  match state.close "compilation_unit" with
  | (.error e, next) => (.error e, next)
  | (.ok node, next) =>
      if node.name = some file then (.ok (), { next with units := next.units ++ [node] })
      else (.error (.rejected "compilation_unit" "file name mismatch"), next)

/-- The sorts of types. -/
def typeKinds : List String := ["class", "interface", "enum", "annotation"]

/-- Leaves a type, of whatever sort it is. -/
def leaveType (state : TreeBuilder) : Except BuilderError Unit × TreeBuilder :=
  if typeKinds.contains state.innermostKind then state.leave state.innermostKind
  else (.error (.rejected "type" "innermost open node is not a type"), state)

/-- Leaves a method or a constructor. -/
def leaveMethod (state : TreeBuilder) : Except BuilderError Unit × TreeBuilder :=
  state.leave (if state.innermostKind = "constructor" then "constructor" else "method")

/-- What an event does to the trees. -/
def node : NodeEvent → TreeBuilder → Except BuilderError Unit × TreeBuilder
  | .enterUnit file package level => enterUnit (unitTreeNode file package level)
  | .leaveUnit file => leaveUnit file
  | .packageClause decl => leaf { kind := "package", name := some decl.name }
  | .importClause decl => leaf decl.treeNode
  | .enterType decl => enter decl.treeNode
  | .leaveType _ => leaveType
  | .field decl => leaves decl.treeNodes
  | .enumConstant decl => leaf decl.treeNode
  | .enterMethod decl => enter decl.treeNode
  | .leaveMethod _ => leaveMethod
  | .enterInitializer decl => enter decl.treeNode
  | .leaveInitializer => leave "initializer"
  | .enterStatement statement => enter statement.treeNode
  | .leaveStatement kind => leave kind.word
  | .expression e => leaf e.treeNode

/-- Begins a batch. -/
def beginBatch (state : TreeBuilder) : Except BuilderError Unit × TreeBuilder :=
  (.ok (), { state with batchesStarted := state.batchesStarted + 1 })

/-- Ends a batch; no unit may be pending. -/
def endBatch (state : TreeBuilder) : Except BuilderError Unit × TreeBuilder :=
  if state.pending.isEmpty then
    (.ok (), { state with batchesCompleted := state.batchesCompleted + 1 })
  else (.error (.rejected "batch" "a unit is still open"), state)

/-- Forgets the unit that is pending. -/
def abort (state : TreeBuilder) : TreeBuilder := { state with pending := [] }

/-- The trees of all units as JSON. -/
def exported (state : TreeBuilder) : String :=
  (JsonValue.array (TreeNode.jsonAll state.units)).pretty

end TreeBuilder

/-- The builder that keeps trees. -/
def treeBuilder : Builder TreeBuilder where
  beginBatch := TreeBuilder.beginBatch
  endBatch := TreeBuilder.endBatch
  isSpecified := fun _ state => (none, state)
  abort := fun _ => TreeBuilder.abort
  node := TreeBuilder.node

end JavaOutline
