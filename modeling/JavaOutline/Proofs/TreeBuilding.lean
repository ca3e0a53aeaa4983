/-
**What the tree builder makes of a unit.**

The builder keeps the nodes that were entered on a stack, and rejects what does not fit the stack.
What it is told about an outline always fits: every node that is entered is left again, with its own
sort.  So a builder with an empty stack takes every outline, and adds one tree that can be written
down by recursion on the outline.

Main definitions:

* `Statement.tree`, `TypeDecl.tree`, `Member.trees`, `Outline.tree` — the trees of an outline;
* `Grows` — events that add trees below the innermost node.

Main results:

* `Grows.append`, `Grows.nested` — how such events are put together;
* `TypeDecl.grows` — a type adds its tree;
* `feed_nodeEvents` — an outline that is told to a builder with an empty stack adds its tree.
-/

import JavaOutline.Builder.Tree

set_option autoImplicit false

namespace JavaOutline

/-! ### The trees of an outline -/

/-- The node with trees below it, behind what is there. -/
def TreeNode.pushAll (node : TreeNode) (trees : List TreeNode) : TreeNode :=
  { node with children := node.children ++ trees }

@[simp] theorem TreeNode.pushAll_nil (node : TreeNode) : node.pushAll [] = node := by
  cases node
  simp [TreeNode.pushAll]

theorem TreeNode.pushAll_pushAll (node : TreeNode) (trees later : List TreeNode) :
    (node.pushAll trees).pushAll later = node.pushAll (trees ++ later) := by
  simp [TreeNode.pushAll]

mutual

/-- The tree of a statement: its expressions and then the statements inside. -/
def Statement.tree : Statement → TreeNode
  | ⟨kind, label, expressions, children, span⟩ =>
      (Statement.treeNode ⟨kind, label, expressions, children, span⟩).pushAll
        (expressions.map Expression.treeNode ++ Statement.trees children)

/-- The trees of statements. -/
def Statement.trees : List Statement → List TreeNode
  | [] => []
  | statement :: statements => statement.tree :: Statement.trees statements

end

/-- The trees of a body, once its statements are known. -/
def Body.trees : Body → List TreeNode
  | .parsed block => Statement.trees block.statements
  | .absent => []
  | .unparsed _ => []

mutual

/-- The tree of a type. -/
def TypeDecl.tree : TypeDecl → TreeNode
  | ⟨kind, name, modifiers, typeParameters, superclass, interfaces, members, span⟩ =>
      (TypeDecl.treeNode
        ⟨kind, name, modifiers, typeParameters, superclass, interfaces, members, span⟩).pushAll
        (Member.allTrees members)

/-- The trees of members. -/
def Member.allTrees : List Member → List TreeNode
  | [] => []
  | member :: members => member.trees ++ Member.allTrees members

/-- The trees of a member: one for every variable of a field, and two for an enum constant with a
body. -/
def Member.trees : Member → List TreeNode
  | .field decl => decl.treeNodes
  | .method decl => [decl.treeNode.pushAll decl.body.trees]
  | .initializer decl => [decl.treeNode.pushAll decl.body.trees]
  | .type decl => [decl.tree]
  | .enumConstant ⟨name, arguments, none, span⟩ =>
      [EnumConstant.treeNode ⟨name, arguments, none, span⟩]
  | .enumConstant ⟨name, arguments, some body, span⟩ =>
      [EnumConstant.treeNode ⟨name, arguments, some body, span⟩, body.tree]

end

/-- The tree of a unit. -/
def Outline.tree (outline : Outline) (file : String) (level : LanguageLevel) : TreeNode :=
  (unitTreeNode file outline.packageName level).pushAll
    ((outline.package.toList.map fun decl =>
        { kind := "package", name := some decl.name : TreeNode }) ++
      outline.imports.map ImportDecl.treeNode ++ outline.types.map TypeDecl.tree)

/-! ### Sorts and names -/

@[simp] theorem TreeNode.kind_noteSome (node : TreeNode) (key : String) (value : Option String) :
    (node.noteSome key value).kind = node.kind := by
  cases value <;> rfl

@[simp] theorem TreeNode.kind_noteJoined (node : TreeNode) (key separator : String)
    (texts : List String) : (node.noteJoined key separator texts).kind = node.kind := by
  unfold TreeNode.noteJoined
  split <;> rfl

@[simp] theorem TreeNode.kind_note (node : TreeNode) (key value : String) :
    (node.note key value).kind = node.kind := rfl

@[simp] theorem TreeNode.kind_pushAll (node : TreeNode) (trees : List TreeNode) :
    (node.pushAll trees).kind = node.kind := rfl

theorem TypeDecl.kind_treeNode (decl : TypeDecl) : decl.treeNode.kind = decl.kind.word := by
  simp [TypeDecl.treeNode]

theorem MethodDecl.kind_treeNode (decl : MethodDecl) : decl.treeNode.kind = decl.nodeKind := by
  simp [MethodDecl.treeNode]

theorem Statement.kind_treeNode (statement : Statement) :
    statement.treeNode.kind = statement.kind.word := by
  simp [Statement.treeNode]

theorem kind_unitTreeNode (file : String) (package : Option String) (level : LanguageLevel) :
    (unitTreeNode file package level).kind = "compilation_unit" := by
  simp [unitTreeNode]

theorem name_unitTreeNode (file : String) (package : Option String) (level : LanguageLevel) :
    (unitTreeNode file package level).name = some file := by
  cases package <;> rfl

/-- The tree of a unit is named like its file. -/
theorem Outline.name_tree (outline : Outline) (file : String) (level : LanguageLevel) :
    (outline.tree file level).name = some file :=
  name_unitTreeNode file outline.packageName level

/-! ### Events that add trees -/

/-- A builder is told events inside a node, and takes them: they add trees below the node. -/
def Grows (events : List NodeEvent) (trees : List TreeNode) : Prop :=
  ∀ (state : TreeBuilder) (node : TreeNode) (outer : List TreeNode), state.pending = node :: outer →
    treeBuilder.feed events state =
      (.ok (), { state with pending := node.pushAll trees :: outer })

namespace Grows

theorem nil : Grows [] [] := by
  intro state node outer h
  rw [TreeNode.pushAll_nil, ← h]
  rfl

/-- Events that add trees, one lot after the other. -/
theorem append {first second : List NodeEvent} {trees later : List TreeNode}
    (h : Grows first trees) (hlater : Grows second later) :
    Grows (first ++ second) (trees ++ later) := by
  intro state node outer hstate
  rw [Builder.feed_append, h state node outer hstate]
  simp only
  rw [hlater _ (node.pushAll trees) outer rfl, TreeNode.pushAll_pushAll]

/-- A node that is told of once. -/
theorem leaf {event : NodeEvent} {tree : TreeNode}
    (h : ∀ state, treeBuilder.node event state = state.leaf tree) : Grows [event] [tree] := by
  intro state node outer hstate
  simp only [Builder.feed, h, TreeBuilder.leaf, hstate]
  rfl

/-- The nodes that stand for a field. -/
theorem field (decl : FieldDecl) : Grows [.field decl] decl.treeNodes := by
  intro state node outer hstate
  have hleaves (trees : List TreeNode) (node : TreeNode) (state : TreeBuilder)
      (hstate : state.pending = node :: outer) :
      TreeBuilder.leaves trees state =
        (.ok (), { state with pending := node.pushAll trees :: outer }) := by
    induction trees generalizing node state with
    | nil =>
        rw [TreeNode.pushAll_nil, ← hstate]
        rfl
    | cons tree trees ih =>
        simp only [TreeBuilder.leaves, TreeBuilder.leaf, hstate]
        rw [ih (node.push tree) _ rfl]
        simp [TreeNode.pushAll, TreeNode.push]
  have hnode : treeBuilder.node (.field decl) state = TreeBuilder.leaves decl.treeNodes state := rfl
  simp only [Builder.feed, hnode, hleaves decl.treeNodes node state hstate]

/-- A node that is entered and left, with events in between that add trees below it. -/
theorem nested {enter leave : NodeEvent} {inside : List NodeEvent} {tree : TreeNode}
    {trees : List TreeNode}
    (henter : ∀ state, treeBuilder.node enter state = state.enter tree)
    (hleave : ∀ state node outer, state.pending = node :: outer → node.kind = tree.kind →
      treeBuilder.node leave state = state.leave node.kind)
    (hinside : Grows inside trees) :
    Grows (enter :: (inside ++ [leave])) [tree.pushAll trees] := by
  intro state node outer hstate
  have hentered : state.enter tree =
      (.ok (), { state with pending := tree :: node :: outer }) := by
    simp [TreeBuilder.enter, hstate]
  simp only [Builder.feed, henter, hentered]
  rw [Builder.feed_append, hinside _ tree (node :: outer) rfl]
  simp only [Builder.feed]
  rw [hleave _ (tree.pushAll trees) (node :: outer) rfl rfl]
  simp [TreeBuilder.leave, TreeBuilder.close, TreeBuilder.leaf, TreeNode.push, TreeNode.pushAll]

end Grows

/-! ### Outlines -/

theorem Grows.expressions (expressions : List Expression) :
    Grows (expressions.map .expression) (expressions.map Expression.treeNode) := by
  induction expressions with
  | nil => exact Grows.nil
  | cons e expressions ih => exact (Grows.leaf fun _ => rfl).append ih

mutual

theorem Statement.grows : ∀ statement : Statement, Grows statement.nodeEvents [statement.tree]
  | ⟨kind, label, expressions, children, span⟩ => by
      rw [Statement.nodeEvents, Statement.tree]
      refine Grows.nested (fun _ => rfl) ?_
        ((Grows.expressions expressions).append (Statement.allGrow children))
      intro state node outer hstate hkind
      rw [hkind, Statement.kind_treeNode]
      rfl

theorem Statement.allGrow : ∀ statements : List Statement,
    Grows (Statement.allNodeEvents statements) (Statement.trees statements)
  | [] => Grows.nil
  | statement :: statements => by
      rw [Statement.allNodeEvents, Statement.trees]
      exact (Statement.grows statement).append (Statement.allGrow statements)

end

theorem Body.grows (body : Body) : Grows body.nodeEvents body.trees := by
  cases body with
  | parsed block => exact Statement.allGrow block.statements
  | absent => exact Grows.nil
  | unparsed span => exact Grows.nil

/-- A type is left by the sort that it was entered with. -/
theorem leaveType_eq {state : TreeBuilder} {node : TreeNode} {outer : List TreeNode}
    {kind : TypeDecl.Kind} (hstate : state.pending = node :: outer)
    (hkind : node.kind = kind.word) : state.leaveType = state.leave node.kind := by
  have hinner : state.innermostKind = node.kind := by simp [TreeBuilder.innermostKind, hstate]
  have hknown : TreeBuilder.typeKinds.contains kind.word = true := by cases kind <;> decide
  simp only [TreeBuilder.leaveType, hinner, hkind, hknown, if_true]

/-- A method or a constructor is left by the sort that it was entered with. -/
theorem leaveMethod_eq {state : TreeBuilder} {node : TreeNode} {outer : List TreeNode}
    {decl : MethodDecl} (hstate : state.pending = node :: outer)
    (hkind : node.kind = decl.nodeKind) : state.leaveMethod = state.leave node.kind := by
  have hinner : state.innermostKind = node.kind := by simp [TreeBuilder.innermostKind, hstate]
  unfold TreeBuilder.leaveMethod
  rw [hinner, hkind]
  unfold MethodDecl.nodeKind
  cases decl.isConstructor <;> rfl

mutual

theorem TypeDecl.grows : ∀ decl : TypeDecl, Grows decl.nodeEvents [decl.tree]
  | ⟨kind, name, modifiers, typeParameters, superclass, interfaces, members, span⟩ => by
      rw [TypeDecl.nodeEvents, TypeDecl.tree]
      refine Grows.nested (fun _ => rfl) ?_ (Member.allGrow members)
      intro state node outer hstate hkind
      rw [TypeDecl.kind_treeNode] at hkind
      exact leaveType_eq hstate hkind

theorem Member.allGrow : ∀ members : List Member,
    Grows (Member.allNodeEvents members) (Member.allTrees members)
  | [] => Grows.nil
  | member :: members => by
      rw [Member.allNodeEvents, Member.allTrees]
      exact (Member.grows member).append (Member.allGrow members)

theorem Member.grows : ∀ member : Member, Grows member.nodeEvents member.trees
  | .field decl => Grows.field decl
  | .method decl => by
      rw [Member.nodeEvents, Member.trees]
      refine Grows.nested (fun _ => rfl) ?_ decl.body.grows
      intro state node outer hstate hkind
      rw [MethodDecl.kind_treeNode] at hkind
      exact leaveMethod_eq hstate hkind
  | .initializer decl => by
      rw [Member.nodeEvents, Member.trees]
      refine Grows.nested (fun _ => rfl) ?_ decl.body.grows
      intro state node outer hstate hkind
      rw [hkind]
      rfl
  | .type decl => TypeDecl.grows decl
  | .enumConstant ⟨name, arguments, none, span⟩ => Grows.leaf fun _ => rfl
  | .enumConstant ⟨name, arguments, some body, span⟩ => by
      rw [Member.nodeEvents, Member.trees]
      exact (Grows.leaf fun _ => rfl).append (TypeDecl.grows body)

end

theorem TypeDecl.allGrow (types : List TypeDecl) :
    Grows (types.flatMap TypeDecl.nodeEvents) (types.map TypeDecl.tree) := by
  induction types with
  | nil => exact Grows.nil
  | cons decl types ih => exact decl.grows.append ih

theorem Grows.packages (package : Option PackageDecl) :
    Grows (package.toList.map .packageClause)
      (package.toList.map fun decl => { kind := "package", name := some decl.name }) := by
  cases package with
  | none => exact Grows.nil
  | some decl => exact Grows.leaf fun _ => rfl

theorem Grows.imports (imports : List ImportDecl) :
    Grows (imports.map .importClause) (imports.map ImportDecl.treeNode) := by
  induction imports with
  | nil => exact Grows.nil
  | cons decl imports ih => exact (Grows.leaf fun _ => rfl).append ih

/-- An outline that is told to a builder with an empty stack is taken, adds its tree to the units
and leaves the stack empty. -/
theorem feed_nodeEvents (outline : Outline) (file : String) (level : LanguageLevel)
    {state : TreeBuilder} (hstate : state.pending = []) :
    treeBuilder.feed (outline.nodeEvents file level) state =
      (.ok (), { state with units := state.units ++ [outline.tree file level] }) := by
  have hentered : treeBuilder.node (.enterUnit file outline.packageName level) state =
      (.ok (), { state with pending := [unitTreeNode file outline.packageName level] }) := by
    simp [treeBuilder, TreeBuilder.node, TreeBuilder.enterUnit, TreeBuilder.enter, hstate,
      kind_unitTreeNode]
  have hinside := ((Grows.packages outline.package).append (Grows.imports outline.imports)).append
    (TypeDecl.allGrow outline.types)
  rw [Outline.nodeEvents, Builder.feed, hentered]
  simp only
  rw [Builder.feed_append, hinside _ _ [] rfl]
  simp only [Builder.feed]
  have hname : (outline.tree file level).name = some file := outline.name_tree file level
  have hkind : (outline.tree file level).kind = "compilation_unit" :=
    kind_unitTreeNode file outline.packageName level
  have hleft : treeBuilder.node (.leaveUnit file)
      { state with pending := [outline.tree file level] } =
        (.ok (), { state with
          pending := []
          units := state.units ++ [outline.tree file level] }) := by
    simp [treeBuilder, TreeBuilder.node, TreeBuilder.leaveUnit, TreeBuilder.close, hname, hkind]
  rw [Outline.tree] at hleft ⊢
  rw [hleft, ← hstate]

end JavaOutline
