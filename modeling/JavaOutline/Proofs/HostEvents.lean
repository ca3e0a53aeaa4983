/-
**What a host hears, and the tree it stands for.**

Two builders take the same events.  One keeps a stack of nodes and hangs parameters, initializers and
arguments below them at once; the other tells a host of every node when it is entered and when it is
left, and remembers only the sorts of types and methods.  A host that rejects nothing hears calls that
are nested, and the tree of sorts and names which can be drawn from these calls is that of the tree
which the first builder keeps.

Main definitions:

* `Skeleton`, `TreeNode.skeleton` — trees of sorts and names;
* `Draws`, `Skeleton.ofCalls?` — the trees that nested calls stand for, and how they are drawn;
* `HostTable.overheard` — a host with a list of the calls made to it;
* `HostTable.Willing`, `NodeEvent.hostTexts` — hosts that reject nothing, and the texts they are told;
* `Says`, `Sketches` — what an action of the builder tells the host.

Main results:

* `Draws.ofCalls?_eq` — the trees are drawn from the calls;
* `HostTable.overheard_shows` — listening changes nothing;
* `Sketches.nested`, `TypeDecl.sketches`, `Outline.sketches` — what the host hears of nodes, types and
  outlines;
* `rebuildUnit_hears_tree` — the host hears the tree that the other builder keeps.
-/

import JavaOutline.Builder.Host
import JavaOutline.Proofs.BuilderCalls
import JavaOutline.Proofs.TreeBuilding

set_option autoImplicit false

namespace JavaOutline

/-! ### Trees of sorts and names -/

/-- A tree of sorts and names. -/
inductive Skeleton where
  | node (kind : String) (name : Option String) (children : List Skeleton)

mutual

/-- The sorts and names of a tree. -/
def TreeNode.skeleton : TreeNode → Skeleton
  | ⟨kind, name, _, children⟩ => .node kind name (TreeNode.skeletons children)

/-- The sorts and names of trees. -/
def TreeNode.skeletons : List TreeNode → List Skeleton
  | [] => []
  | node :: nodes => node.skeleton :: TreeNode.skeletons nodes

end

theorem TreeNode.skeletons_eq_map (nodes : List TreeNode) :
    TreeNode.skeletons nodes = nodes.map TreeNode.skeleton := by
  induction nodes with
  | nil => rfl
  | cons node nodes ih => rw [TreeNode.skeletons, ih, List.map_cons]

/-- Trees are drawn below a node behind what is there. -/
theorem TreeNode.skeleton_pushAll {node : TreeNode} {kind : String} {name : Option String}
    {parts : List Skeleton} (h : node.skeleton = .node kind name parts) (trees : List TreeNode) :
    (node.pushAll trees).skeleton = .node kind name (parts ++ trees.map TreeNode.skeleton) := by
  cases node
  simp only [TreeNode.skeleton, Skeleton.node.injEq, TreeNode.skeletons_eq_map] at h
  simp [TreeNode.pushAll, TreeNode.skeleton, TreeNode.skeletons_eq_map, h]

/-- Other trees are drawn below a node in place of those that are there. -/
theorem TreeNode.skeleton_children {node : TreeNode} {kind : String} {name : Option String}
    {parts : List Skeleton} (h : node.skeleton = .node kind name parts) (trees : List TreeNode) :
    { node with children := trees : TreeNode }.skeleton =
      .node kind name (trees.map TreeNode.skeleton) := by
  cases node
  simp only [TreeNode.skeleton, Skeleton.node.injEq] at h
  simp [TreeNode.skeleton, TreeNode.skeletons_eq_map, h]

@[simp] theorem TreeNode.skeleton_note (node : TreeNode) (key value : String) :
    (node.note key value).skeleton = node.skeleton := by
  cases node
  simp [TreeNode.note, TreeNode.skeleton]

@[simp] theorem TreeNode.skeleton_noteSome (node : TreeNode) (key : String)
    (value : Option String) : (node.noteSome key value).skeleton = node.skeleton := by
  cases value with
  | none => rfl
  | some value => exact node.skeleton_note key value

@[simp] theorem TreeNode.skeleton_noteJoined (node : TreeNode) (key separator : String)
    (texts : List String) : (node.noteJoined key separator texts).skeleton = node.skeleton := by
  unfold TreeNode.noteJoined
  split
  · rfl
  · exact node.skeleton_note key _

@[simp] theorem TreeNode.skeleton_noteFlag (node : TreeNode) (key : String) (holds : Bool) :
    (node.noteFlag key holds).skeleton = node.skeleton := by
  cases holds with
  | false => rfl
  | true => exact node.skeleton_note key "true"

/-! ### Drawing trees from calls -/

/-- Calls that are nested, with the trees they stand for: what is entered is left by its own sort,
and what happens in between stands below it. -/
inductive Draws : List HostCall → List Skeleton → Prop where
  | nil : Draws [] []
  | append {calls later : List HostCall} {trees others : List Skeleton} (h : Draws calls trees)
      (hlater : Draws later others) : Draws (calls ++ later) (trees ++ others)
  | node (node : HostNode) {inside : List HostCall} {trees : List Skeleton}
      (h : Draws inside trees) :
      Draws (.enter node :: (inside ++ [.leave node.kind])) [.node node.kind node.name trees]

/-- A drawing that is not finished. -/
structure Drawing where
  /-- The trees that are finished. -/
  done : List Skeleton := []
  /-- The nodes that were entered and not left, the innermost first, with the trees below them. -/
  pending : List (String × Option String × List Skeleton) := []

namespace Drawing

/-- Draws a tree below the innermost node, or by itself. -/
def add (drawing : Drawing) (tree : Skeleton) : Drawing :=
  match drawing.pending with
  | [] => { drawing with done := drawing.done ++ [tree] }
  | (kind, name, trees) :: outer =>
      { drawing with pending := (kind, name, trees ++ [tree]) :: outer }

/-- Draws what a call stands for.  Only the innermost node can be left, and only by its own sort. -/
def step (drawing : Drawing) : HostCall → Option Drawing
  | .enter node => some { drawing with pending := (node.kind, node.name, []) :: drawing.pending }
  | .leave sort =>
      match drawing.pending with
      | [] => none
      | (kind, name, trees) :: outer =>
          if kind = sort then some ({ drawing with pending := outer }.add (.node kind name trees))
          else none
  | _ => none

/-- Draws what calls stand for. -/
def steps (drawing : Drawing) : List HostCall → Option Drawing
  | [] => some drawing
  | call :: calls => (drawing.step call).bind (·.steps calls)

/-- Draws trees in order. -/
def addAll (drawing : Drawing) (trees : List Skeleton) : Drawing := trees.foldl add drawing

theorem addAll_done (done trees : List Skeleton) :
    ({ done } : Drawing).addAll trees = { done := done ++ trees } := by
  unfold addAll
  induction trees generalizing done with
  | nil => simp
  | cons tree trees ih =>
      rw [List.foldl_cons]
      exact (ih (done ++ [tree])).trans (by simp)

theorem addAll_pending (done trees below : List Skeleton) (kind : String) (name : Option String)
    (outer : List (String × Option String × List Skeleton)) :
    ({ done, pending := (kind, name, below) :: outer } : Drawing).addAll trees =
      { done, pending := (kind, name, below ++ trees) :: outer } := by
  unfold addAll
  induction trees generalizing below with
  | nil => simp
  | cons tree trees ih =>
      rw [List.foldl_cons]
      exact (ih (below ++ [tree])).trans (by simp)

end Drawing

/-- The trees that calls stand for, if the calls are nested. -/
def Skeleton.ofCalls? (calls : List HostCall) : Option (List Skeleton) :=
  (({} : Drawing).steps calls).bind fun drawing =>
    if drawing.pending.isEmpty then some drawing.done else none

theorem Draws.steps_append {calls : List HostCall} {trees : List Skeleton} (h : Draws calls trees)
    (rest : List HostCall) (drawing : Drawing) :
    drawing.steps (calls ++ rest) = (drawing.addAll trees).steps rest := by
  induction h generalizing rest drawing with
  | nil => rfl
  | append _ _ ih ihlater =>
      rw [List.append_assoc, ih, ihlater, Drawing.addAll, Drawing.addAll, Drawing.addAll,
        List.foldl_append]
  | node node _ ih =>
      obtain ⟨done, pending⟩ := drawing
      simp only [List.cons_append, List.append_assoc, Drawing.steps, Drawing.step,
        Option.bind_some]
      rw [ih, Drawing.addAll_pending]
      simp [Drawing.steps, Drawing.step, Drawing.addAll]

/-- The trees that nested calls stand for are drawn from the calls. -/
theorem Draws.ofCalls?_eq {calls : List HostCall} {trees : List Skeleton} (h : Draws calls trees) :
    Skeleton.ofCalls? calls = some trees := by
  have hsteps := h.steps_append [] {}
  rw [List.append_nil, Drawing.addAll_done, List.nil_append] at hsteps
  simp [Skeleton.ofCalls?, hsteps, Drawing.steps]

/-! ### Listening to a host -/

/-- A host's state with the calls that were made, the earliest first. -/
structure Overheard (η : Type) where
  host : η
  calls : List HostCall := []

section Listening

variable {η : Type}

/-- Makes a call and writes it down. -/
def Overheard.hear (heard : HostCall) (call : η → Int × η) (state : Overheard η) :
    Int × Overheard η :=
  ((call state.host).1, { host := (call state.host).2, calls := state.calls ++ [heard] })

/-- The host with a list of the calls made to it. -/
def HostTable.overheard (table : HostTable η) : HostTable (Overheard η) where
  beginBatch := table.beginBatch.map (Overheard.hear .beginBatch)
  endBatch := table.endBatch.map (Overheard.hear .endBatch)
  enterNode := table.enterNode.map fun call node => Overheard.hear (.enter node) (call node)
  leaveNode := table.leaveNode.map fun call kind => Overheard.hear (.leave kind) (call kind)
  isSpecified := table.isSpecified.map fun call file =>
    Overheard.hear (.isSpecified file) (call file)
  abortUnit := table.abortUnit.map fun call file => Overheard.hear (.abort file) (call file)

namespace HostBuilder

/-- The builder's state without the list of calls. -/
def unheard (state : HostBuilder (Overheard η)) : HostBuilder η where
  host := state.host.host
  openKinds := state.openKinds

/-- The answer without the list of calls. -/
def unheardAnswer (answer : Answer (Overheard η)) : Answer η := (answer.1, answer.2.unheard)

/-- An action is the same whether somebody listens or not. -/
def SameUnheard (act : HostBuilder η → Answer η)
    (overheard : HostBuilder (Overheard η) → Answer (Overheard η)) : Prop :=
  ∀ state, act state.unheard = unheardAnswer (overheard state)

namespace SameUnheard

theorem andThen {first second : HostBuilder η → Answer η}
    {first' second' : HostBuilder (Overheard η) → Answer (Overheard η)}
    (h : SameUnheard first first') (hnext : SameUnheard second second') :
    SameUnheard (fun state => HostBuilder.andThen (first state) second)
      (fun state => HostBuilder.andThen (first' state) second') := by
  intro state
  simp only [h state, unheardAnswer]
  rcases first' state with ⟨answer, next⟩
  cases answer with
  | ok => exact hnext next
  | error => rfl

theorem forAll {α : Type} {act : α → HostBuilder η → Answer η}
    {act' : α → HostBuilder (Overheard η) → Answer (Overheard η)}
    (h : ∀ item, SameUnheard (act item) (act' item)) (items : List α) :
    SameUnheard (HostBuilder.forAll act items) (HostBuilder.forAll act' items) := by
  induction items with
  | nil => exact fun _ => rfl
  | cons item items ih => exact (h item).andThen ih

variable (table : HostTable η)

theorem enter (node : HostNode) :
    SameUnheard (HostBuilder.enter table node) (HostBuilder.enter table.overheard node) := by
  intro state
  unfold HostBuilder.enter HostTable.overheard
  cases table.enterNode with
  | none => rfl
  | some call =>
      simp only [Option.map_some]
      split <;> rfl

theorem leave (kind : String) :
    SameUnheard (HostBuilder.leave table kind) (HostBuilder.leave table.overheard kind) := by
  intro state
  unfold HostBuilder.leave HostTable.overheard
  cases table.leaveNode with
  | none => rfl
  | some call =>
      simp only [Option.map_some]
      split <;> rfl

theorem leaf (node : HostNode) :
    SameUnheard (HostBuilder.leaf table node) (HostBuilder.leaf table.overheard node) :=
  (enter table node).andThen (leave table node.kind)

theorem opened (kind : String) :
    SameUnheard (HostBuilder.opened kind : HostBuilder η → Answer η) (HostBuilder.opened kind) :=
  fun _ => rfl

theorem leaveInnermost (standard : String) :
    SameUnheard (HostBuilder.leaveInnermost table standard)
      (HostBuilder.leaveInnermost table.overheard standard) :=
  fun state => leave table (state.openKinds.head?.getD standard)
    { state with openKinds := state.openKinds.tail }

theorem boundary (call : Option (η → Int × η)) (heard : HostCall) (entryPoint : String) :
    SameUnheard (HostBuilder.boundary call entryPoint)
      (HostBuilder.boundary (call.map (Overheard.hear heard)) entryPoint) := by
  intro state
  cases call <;> rfl

/-- Every event is passed on as if nobody listened. -/
theorem node (event : NodeEvent) :
    SameUnheard (HostBuilder.node table event) (HostBuilder.node table.overheard event) := by
  cases event with
  | enterUnit file package level => exact enter table _
  | leaveUnit file => exact leave table _
  | packageClause decl => exact leaf table _
  | importClause decl => exact leaf table _
  | enterType decl => exact (enter table _).andThen (opened _)
  | leaveType name => exact leaveInnermost table _
  | field decl =>
      refine forAll (fun _ => ?_) decl.declarators
      exact ((enter table _).andThen (forAll (fun e => leaf table (expressionNode e)) _)).andThen
        (leave table _)
  | enumConstant decl =>
      exact ((enter table _).andThen (forAll (fun e => leaf table (expressionNode e)) _)).andThen
        (leave table _)
  | enterMethod decl =>
      exact ((enter table _).andThen (opened _)).andThen (forAll (fun _ => leaf table _) _)
  | leaveMethod name => exact leaveInnermost table _
  | enterInitializer decl => exact enter table _
  | leaveInitializer => exact leave table _
  | enterStatement statement => exact enter table _
  | leaveStatement kind => exact leave table _
  | expression e => exact leaf table _

end SameUnheard

end HostBuilder

/-- The builder for a host behaves the same whether somebody listens or not. -/
theorem HostTable.overheard_shows (table : HostTable η) :
    (hostBuilder table.overheard).Shows (hostBuilder table) HostBuilder.unheard where
  beginBatch := HostBuilder.SameUnheard.boundary table.beginBatch .beginBatch "begin_batch"
  endBatch := HostBuilder.SameUnheard.boundary table.endBatch .endBatch "end_batch"
  isSpecified := by
    intro file state
    simp only [hostBuilder, HostBuilder.isSpecified, HostTable.overheard]
    cases table.isSpecified with
    | none => rfl
    | some call =>
        simp only [Option.map_some]
        split <;> rfl
  abort := by
    intro file state
    simp only [hostBuilder, HostBuilder.abort, HostTable.overheard]
    cases table.abortUnit with
    | none => rfl
    | some call =>
        simp only [Option.map_some]
        split <;> rfl
  node := HostBuilder.SameUnheard.node table

end Listening

/-! ### Hosts that reject nothing -/

/-- The host has the entry points for nodes, and always answers with zero. -/
structure HostTable.Willing {η : Type} (table : HostTable η) : Prop where
  enterNode : ∃ call, table.enterNode = some call ∧ ∀ node host, (call node host).1 = 0
  leaveNode : ∃ call, table.leaveNode = some call ∧ ∀ kind host, (call kind host).1 = 0

/-- The texts of an event that a host is told, besides words that are fixed. -/
def NodeEvent.hostTexts : NodeEvent → List String
  | .enterUnit file package _ => file :: package.toList
  | .packageClause decl => [decl.name]
  | .importClause decl => [decl.name]
  | .enterType decl => decl.name :: (HostBuilder.modifierDetail decl.modifiers).toList
  | .field decl =>
      decl.declarators.flatMap fun declared =>
        declared.name :: decl.typeName :: declared.initializer.toList.map Expression.text
  | .enumConstant decl => decl.name :: decl.arguments.map Expression.text
  | .enterMethod decl =>
      decl.name :: (decl.returnType.toList ++
        decl.parameters.flatMap fun parameter => [parameter.name, parameter.typeName])
  | .enterStatement statement => statement.label.toList
  | .expression e => [e.text]
  | .leaveUnit _ | .leaveType _ | .leaveMethod _ | .enterInitializer _ | .leaveInitializer
  | .leaveStatement _ => []

/-- What is told of an event can be passed to a host. -/
def NodeEvent.Passable (event : NodeEvent) : Prop :=
  ∀ text ∈ event.hostTexts, HostBuilder.isPassable text = true

namespace HostBuilder

theorem isPassable_append (first second : String) :
    isPassable (first ++ second) = (isPassable first && isPassable second) := by
  simp [isPassable, String.toList_append]

/-- The sort, the name and the detail of a node can be passed to a host. -/
structure NodePassable (node : HostNode) : Prop where
  kind : isPassable node.kind = true
  name : node.name.all isPassable = true := by rfl
  detail : node.detail.all isPassable = true := by rfl

theorem isPassable_typeKind (kind : TypeDecl.Kind) : isPassable kind.word = true := by
  cases kind <;> decide

theorem isPassable_statementKind (kind : Statement.Kind) : isPassable kind.word = true := by
  cases kind <;> decide

theorem isPassable_expressionKind (kind : Expression.Kind) : isPassable kind.word = true := by
  cases kind <;> decide

theorem isPassable_tag (level : LanguageLevel) : isPassable level.tag = true := by
  cases level <;> decide

end HostBuilder

/-! ### What an action says -/

section Saying

open HostBuilder

variable {η : Type} {table : HostTable η} {before between after kinds : List String}

/-- With some sorts open, an action succeeds, makes calls and leaves other sorts open. -/
def Says (act : HostBuilder (Overheard η) → Answer (Overheard η)) (calls : List HostCall)
    (before after : List String) : Prop :=
  ∀ state, state.openKinds = before →
    ∃ host, act state =
      (.ok (), { host := { host, calls := state.host.calls ++ calls }, openKinds := after })

namespace Says

variable {first second : HostBuilder (Overheard η) → Answer (Overheard η)}
  {calls later : List HostCall}

theorem nil : Says (fun state : HostBuilder (Overheard η) => (.ok (), state)) [] kinds kinds := by
  intro state h
  exact ⟨state.host.host, by rw [List.append_nil, ← h]⟩

theorem andThen (h : Says first calls before between) (hlater : Says second later between after) :
    Says (fun state => HostBuilder.andThen (first state) second) (calls ++ later)
      before after := by
  intro state hstate
  obtain ⟨host, hfirst⟩ := h state hstate
  obtain ⟨host', hsecond⟩ := hlater _ (rfl : (HostBuilder.mk _ between).openKinds = between)
  refine ⟨host', ?_⟩
  simp only [hfirst, HostBuilder.andThen]
  rw [hsecond, List.append_assoc]

theorem enter (hwilling : table.Willing) {node : HostNode} (h : NodePassable node) :
    Says (HostBuilder.enter table.overheard node)
      [.enter { node with line := min node.line maxLine }] kinds kinds := by
  intro state hstate
  obtain ⟨call, hcall, hzero⟩ := hwilling.enterNode
  refine ⟨(call { node with line := min node.line maxLine } state.host.host).2, ?_⟩
  simp [HostBuilder.enter, HostTable.overheard, hcall, h.kind, h.name, h.detail, Overheard.hear,
    hzero, check, hstate]

theorem leave (hwilling : table.Willing) {kind : String} (h : isPassable kind = true) :
    Says (HostBuilder.leave table.overheard kind) [.leave kind] kinds kinds := by
  intro state hstate
  obtain ⟨call, hcall, hzero⟩ := hwilling.leaveNode
  refine ⟨(call kind state.host.host).2, ?_⟩
  simp [HostBuilder.leave, HostTable.overheard, hcall, h, Overheard.hear, hzero, check, hstate]

theorem opened (kind : String) :
    Says (HostBuilder.opened kind : HostBuilder (Overheard η) → Answer (Overheard η)) []
      kinds (kind :: kinds) := by
  intro state h
  exact ⟨state.host.host, by rw [HostBuilder.opened, List.append_nil, h]⟩

/-- The innermost type or method is left by its own sort. -/
theorem leaveInnermost (hwilling : table.Willing) {kind : String} (h : isPassable kind = true)
    (standard : String) :
    Says (HostBuilder.leaveInnermost table.overheard standard) [.leave kind]
      (kind :: kinds) kinds := by
  intro state hstate
  have hleft := leave hwilling h { state with openKinds := kinds } (rfl : kinds = kinds)
  simpa [HostBuilder.leaveInnermost, hstate] using hleft

theorem feed_append {events others : List NodeEvent}
    (h : Says ((hostBuilder table.overheard).feed events) calls before between)
    (hlater : Says ((hostBuilder table.overheard).feed others) later between after) :
    Says ((hostBuilder table.overheard).feed (events ++ others)) (calls ++ later)
      before after := by
  intro state hstate
  obtain ⟨host, hsaid⟩ := h.andThen hlater state hstate
  refine ⟨host, Eq.trans ?_ hsaid⟩
  simp only [Builder.feed_append, HostBuilder.andThen]
  rcases (hostBuilder table.overheard).feed events state with ⟨answer, next⟩
  cases answer <;> rfl

theorem feed_single {event : NodeEvent}
    (h : Says (HostBuilder.node table.overheard event) calls before after) :
    Says ((hostBuilder table.overheard).feed [event]) calls before after := by
  intro state hstate
  obtain ⟨host, hsaid⟩ := h state hstate
  have hnode : (hostBuilder table.overheard).node event state = _ := hsaid
  exact ⟨host, by rw [Builder.feed, hnode]; rfl⟩

end Says

/-- With some sorts open, an action makes nested calls that stand for trees, and leaves the sorts
as they were. -/
def Sketches (act : HostBuilder (Overheard η) → Answer (Overheard η)) (trees : List Skeleton)
    (kinds : List String) : Prop :=
  ∃ calls, Draws calls trees ∧ Says act calls kinds kinds

namespace Sketches

variable {first second : HostBuilder (Overheard η) → Answer (Overheard η)}
  {trees others : List Skeleton}

theorem nil : Sketches (fun state : HostBuilder (Overheard η) => (.ok (), state)) [] kinds :=
  ⟨[], .nil, .nil⟩

theorem andThen (h : Sketches first trees kinds) (hlater : Sketches second others kinds) :
    Sketches (fun state => HostBuilder.andThen (first state) second) (trees ++ others) kinds := by
  obtain ⟨calls, hdraws, htells⟩ := h
  obtain ⟨later, hdraws', htells'⟩ := hlater
  exact ⟨calls ++ later, hdraws.append hdraws', htells.andThen htells'⟩

/-- A node with something inside it. -/
theorem around (hwilling : table.Willing) {node : HostNode} {tree : Skeleton}
    (h : NodePassable node) (hinside : Sketches first trees kinds)
    (htree : tree = .node node.kind node.name trees) :
    Sketches
      (fun state => HostBuilder.andThen
        (HostBuilder.andThen (HostBuilder.enter table.overheard node state) first)
        (HostBuilder.leave table.overheard node.kind))
      [tree] kinds := by
  obtain ⟨calls, hdraws, htells⟩ := hinside
  rw [htree]
  exact ⟨_, Draws.node { node with line := min node.line maxLine } hdraws,
    ((Says.enter hwilling h).andThen htells).andThen (Says.leave hwilling h.kind)⟩

/-- A node without parts. -/
theorem leaf (hwilling : table.Willing) {node : HostNode} {tree : Skeleton}
    (h : NodePassable node) (htree : tree = .node node.kind node.name []) :
    Sketches (HostBuilder.leaf table.overheard node) [tree] kinds := by
  rw [htree]
  exact ⟨_, Draws.node { node with line := min node.line maxLine } .nil,
    (Says.enter hwilling h).andThen (Says.leave hwilling h.kind)⟩

theorem forAll {α : Type} {act : α → HostBuilder (Overheard η) → Answer (Overheard η)}
    {tree : α → Skeleton} {items : List α}
    (h : ∀ item ∈ items, Sketches (act item) [tree item] kinds) :
    Sketches (HostBuilder.forAll act items) (items.map tree) kinds := by
  induction items with
  | nil => exact nil
  | cons item items ih =>
      exact (h item (by simp)).andThen (ih fun other hother => h other (by simp [hother]))

theorem feed_nil : Sketches ((hostBuilder table.overheard).feed []) [] kinds := nil

theorem feed_single {event : NodeEvent}
    (h : Sketches (HostBuilder.node table.overheard event) trees kinds) :
    Sketches ((hostBuilder table.overheard).feed [event]) trees kinds := by
  obtain ⟨calls, hdraws, htells⟩ := h
  exact ⟨calls, hdraws, htells.feed_single⟩

theorem feed_append {events later : List NodeEvent}
    (h : Sketches ((hostBuilder table.overheard).feed events) trees kinds)
    (hlater : Sketches ((hostBuilder table.overheard).feed later) others kinds) :
    Sketches ((hostBuilder table.overheard).feed (events ++ later)) (trees ++ others) kinds := by
  obtain ⟨calls, hdraws, htells⟩ := h
  obtain ⟨calls', hdraws', htells'⟩ := hlater
  exact ⟨calls ++ calls', hdraws.append hdraws', htells.feed_append htells'⟩

/-- A node that is entered, with parts that are told at once, and left behind events that tell of
more parts. -/
theorem nested {enter leave : NodeEvent} {inside : List NodeEvent} {inner : List String}
    {node : HostNode} {parts : List HostCall} {tree : Skeleton} (hparts : Draws parts others)
    (henter : Says (HostBuilder.node table.overheard enter) (.enter node :: parts) kinds inner)
    (hinside : Sketches ((hostBuilder table.overheard).feed inside) trees inner)
    (hleave : Says (HostBuilder.node table.overheard leave) [.leave node.kind] inner kinds)
    (htree : tree = .node node.kind node.name (others ++ trees)) :
    Sketches ((hostBuilder table.overheard).feed (enter :: (inside ++ [leave]))) [tree] kinds := by
  obtain ⟨calls, hdraws, htells⟩ := hinside
  rw [htree]
  have hall := henter.feed_single.feed_append (htells.feed_append hleave.feed_single)
  refine ⟨_, Draws.node node (hparts.append hdraws), ?_⟩
  simpa using hall

/-- Events of one sort, each of which tells of a tree. -/
theorem feed_map {α : Type} {event : α → NodeEvent} {tree : α → Skeleton} {items : List α}
    (h : ∀ item ∈ items, Sketches (HostBuilder.node table.overheard (event item)) [tree item]
      kinds) :
    Sketches ((hostBuilder table.overheard).feed (items.map event)) (items.map tree) kinds := by
  induction items with
  | nil => exact feed_nil
  | cons item items ih =>
      exact (h item (by simp)).feed_single.feed_append
        (ih fun other hother => h other (by simp [hother]))

end Sketches

/-! ### What the events of an outline say -/

theorem Sketches.expressionLeaf (hwilling : table.Willing) {e : Expression}
    (h : isPassable e.text = true) :
    Sketches (HostBuilder.leaf table.overheard (expressionNode e)) [e.treeNode.skeleton] kinds :=
  Sketches.leaf hwilling { kind := isPassable_expressionKind e.kind, detail := h } (by
    simp [Expression.treeNode, TreeNode.skeleton, TreeNode.skeletons, expressionNode])

/-- Expressions that stand below a node without events of their own. -/
theorem Sketches.expressionLeaves (hwilling : table.Willing) {expressions : List Expression}
    (h : ∀ e ∈ expressions, isPassable e.text = true) :
    Sketches (HostBuilder.forAll (fun e => HostBuilder.leaf table.overheard (expressionNode e))
      expressions) ((expressions.map Expression.treeNode).map TreeNode.skeleton) kinds := by
  rw [List.map_map]
  exact Sketches.forAll fun e he => Sketches.expressionLeaf hwilling (h e he)

theorem Sketches.expressions (hwilling : table.Willing) {expressions : List Expression}
    (h : ∀ event ∈ expressions.map NodeEvent.expression, event.Passable) :
    Sketches ((hostBuilder table.overheard).feed (expressions.map .expression))
      ((expressions.map Expression.treeNode).map TreeNode.skeleton) kinds := by
  rw [List.map_map]
  refine Sketches.feed_map fun e he => Sketches.expressionLeaf hwilling ?_
  exact h (.expression e) (List.mem_map_of_mem he) e.text (by simp [NodeEvent.hostTexts])

theorem Sketches.packages (hwilling : table.Willing) {package : Option PackageDecl}
    (h : ∀ event ∈ package.toList.map NodeEvent.packageClause, event.Passable) :
    Sketches ((hostBuilder table.overheard).feed (package.toList.map .packageClause))
      ((package.toList.map fun decl =>
        { kind := "package", name := some decl.name : TreeNode }).map TreeNode.skeleton) kinds := by
  rw [List.map_map]
  refine Sketches.feed_map fun decl hdecl => ?_
  have hname : isPassable decl.name = true :=
    h (.packageClause decl) (List.mem_map_of_mem hdecl) _ (by simp [NodeEvent.hostTexts])
  exact Sketches.leaf hwilling
    { kind := (by decide : isPassable "package" = true)
      name := hname }
    (by simp [TreeNode.skeleton, TreeNode.skeletons])

theorem Sketches.imports (hwilling : table.Willing) {imports : List ImportDecl}
    (h : ∀ event ∈ imports.map NodeEvent.importClause, event.Passable) :
    Sketches ((hostBuilder table.overheard).feed (imports.map .importClause))
      ((imports.map ImportDecl.treeNode).map TreeNode.skeleton) kinds := by
  rw [List.map_map]
  refine Sketches.feed_map fun decl hdecl => ?_
  have hname : isPassable decl.name = true :=
    h (.importClause decl) (List.mem_map_of_mem hdecl) _ (by simp [NodeEvent.hostTexts])
  have hdetail : (importDetail decl).all isPassable = true := by
    unfold importDetail
    split <;> decide
  exact Sketches.leaf hwilling
    { kind := (by decide : isPassable "import" = true)
      name := hname
      detail := hdetail }
    (by simp [ImportDecl.treeNode, TreeNode.skeleton, TreeNode.skeletons])

theorem Sketches.field (hwilling : table.Willing) {decl : FieldDecl}
    (h : (NodeEvent.field decl).Passable) :
    Sketches ((hostBuilder table.overheard).feed [.field decl])
      (decl.treeNodes.map TreeNode.skeleton) kinds := by
  refine Sketches.feed_single ?_
  rw [FieldDecl.treeNodes, List.map_map]
  refine Sketches.forAll fun declared hdeclared => ?_
  have htexts (text : String) (htext : text ∈ declared.name :: decl.typeName ::
      declared.initializer.toList.map Expression.text) : isPassable text = true :=
    h text (List.mem_flatMap.2 ⟨declared, hdeclared, htext⟩)
  refine Sketches.around hwilling
    { kind := (by decide : isPassable "field" = true)
      name := htexts _ (by simp)
      detail := htexts _ (by simp) }
    (Sketches.expressionLeaves hwilling fun e he => ?_) ?_
  · exact htexts e.text (by simp only [List.mem_cons, List.mem_map]; exact .inr (.inr ⟨e, he, rfl⟩))
  · exact TreeNode.skeleton_children (by simp [TreeNode.skeleton, TreeNode.skeletons]; rfl) _

theorem Sketches.enumConstant (hwilling : table.Willing) {decl : EnumConstant}
    (h : (NodeEvent.enumConstant decl).Passable) :
    Sketches ((hostBuilder table.overheard).feed [.enumConstant decl]) [decl.treeNode.skeleton]
      kinds := by
  refine Sketches.feed_single ?_
  have harguments (e : Expression) (he : e ∈ decl.arguments) : isPassable e.text = true :=
    h e.text (by
      simp only [NodeEvent.hostTexts, List.mem_cons, List.mem_map]
      exact .inr ⟨e, he, rfl⟩)
  refine Sketches.around hwilling
    { kind := (by decide : isPassable "enum_constant" = true)
      name := h decl.name (by simp [NodeEvent.hostTexts]) }
    (Sketches.expressionLeaves hwilling harguments) ?_
  simp [EnumConstant.treeNode, TreeNode.skeleton, TreeNode.skeletons_eq_map]

mutual

theorem Statement.sketches (hwilling : table.Willing) : ∀ (statement : Statement)
    (kinds : List String),
    (∀ event ∈ statement.nodeEvents, event.Passable) →
    Sketches ((hostBuilder table.overheard).feed statement.nodeEvents) [statement.tree.skeleton]
      kinds
  | ⟨kind, label, expressions, children, span⟩, kinds, h => by
      rw [Statement.nodeEvents] at h ⊢
      rw [Statement.tree]
      simp only [List.forall_mem_cons, List.forall_mem_append] at h
      obtain ⟨henter, ⟨hexpressions, hchildren⟩, -⟩ := h
      have hlabel : label.all isPassable = true := by
        cases label with
        | none => rfl
        | some text => exact henter text (by simp [NodeEvent.hostTexts])
      refine Sketches.nested .nil
        (Says.enter hwilling { kind := isPassable_statementKind kind, name := hlabel })
        ((Sketches.expressions hwilling hexpressions).feed_append
          (Statement.allSketch hwilling children kinds hchildren))
        (Says.leave hwilling (isPassable_statementKind kind)) ?_
      rw [← List.map_append]
      exact TreeNode.skeleton_pushAll (by simp [Statement.treeNode, TreeNode.skeleton,
        TreeNode.skeletons]) _

theorem Statement.allSketch (hwilling : table.Willing) : ∀ (statements : List Statement)
    (kinds : List String),
    (∀ event ∈ Statement.allNodeEvents statements, event.Passable) →
    Sketches ((hostBuilder table.overheard).feed (Statement.allNodeEvents statements))
      ((Statement.trees statements).map TreeNode.skeleton) kinds
  | [], _, _ => Sketches.feed_nil
  | statement :: statements, kinds, h => by
      rw [Statement.allNodeEvents] at h ⊢
      obtain ⟨hfirst, hothers⟩ := List.forall_mem_append.1 h
      exact (Statement.sketches hwilling statement kinds hfirst).feed_append
        (Statement.allSketch hwilling statements kinds hothers)

end

theorem Body.sketches (hwilling : table.Willing) (body : Body) (kinds : List String)
    (h : ∀ event ∈ body.nodeEvents, event.Passable) :
    Sketches ((hostBuilder table.overheard).feed body.nodeEvents)
      (body.trees.map TreeNode.skeleton) kinds := by
  cases body with
  | parsed block => exact Statement.allSketch hwilling block.statements kinds h
  | absent => exact Sketches.feed_nil
  | unparsed span => exact Sketches.feed_nil

theorem isPassable_nodeKind (decl : MethodDecl) : isPassable decl.nodeKind = true := by
  unfold MethodDecl.nodeKind
  split <;> decide

/-- A type is entered and put on the stack of open sorts. -/
theorem Says.enterType (hwilling : table.Willing) {decl : TypeDecl}
    (h : (NodeEvent.enterType decl).Passable) :
    Says (HostBuilder.node table.overheard (.enterType decl))
      [.enter
        { kind := decl.kind.word, name := some decl.name, detail := modifierDetail decl.modifiers
          line := min decl.span.start.line maxLine }]
      kinds (decl.kind.word :: kinds) := by
  have hdetail : (modifierDetail decl.modifiers).all isPassable = true := by
    cases hmodifiers : modifierDetail decl.modifiers with
    | none => rfl
    | some text => exact h text (by simp [NodeEvent.hostTexts, hmodifiers])
  have hname : isPassable decl.name = true := h decl.name (by simp [NodeEvent.hostTexts])
  have hnode : NodePassable
      { kind := decl.kind.word, name := some decl.name, detail := modifierDetail decl.modifiers
        line := decl.span.start.line } :=
    { kind := isPassable_typeKind decl.kind, name := hname, detail := hdetail }
  exact (Says.enter hwilling hnode).andThen (Says.opened decl.kind.word)

/-- A method is entered and put on the stack of open sorts, and its parameters are told at once. -/
theorem Says.enterMethod (hwilling : table.Willing) {decl : MethodDecl}
    (h : (NodeEvent.enterMethod decl).Passable) :
    ∃ parts, Draws parts ((decl.parameters.map Parameter.treeNode).map TreeNode.skeleton) ∧
      Says (HostBuilder.node table.overheard (.enterMethod decl))
        (.enter
          { kind := decl.nodeKind, name := some decl.name, detail := decl.returnType
            line := min decl.span.start.line maxLine } :: parts)
        kinds (decl.nodeKind :: kinds) := by
  have hparameters : Sketches
      (HostBuilder.forAll
        (fun parameter : Parameter => HostBuilder.leaf table.overheard
          { kind := "parameter", name := some parameter.name
            detail := some parameter.typeName, line := decl.span.start.line })
        decl.parameters)
      ((decl.parameters.map Parameter.treeNode).map TreeNode.skeleton)
      (decl.nodeKind :: kinds) := by
    rw [List.map_map]
    refine Sketches.forAll fun parameter hparameter => ?_
    have htexts (text : String) (htext : text ∈ [parameter.name, parameter.typeName]) :
        isPassable text = true := by
      refine h text ?_
      simp only [NodeEvent.hostTexts, List.mem_cons, List.mem_append, List.mem_flatMap]
      exact .inr (.inr ⟨parameter, hparameter, by simpa using htext⟩)
    exact Sketches.leaf hwilling
      { kind := (by decide : isPassable "parameter" = true)
        name := htexts _ (by simp)
        detail := htexts _ (by simp) }
      (by simp [Parameter.treeNode, TreeNode.skeleton, TreeNode.skeletons])
  obtain ⟨parts, hdraws, htells⟩ := hparameters
  have hdetail : decl.returnType.all isPassable = true := by
    cases hreturn : decl.returnType with
    | none => rfl
    | some text => exact h text (by simp [NodeEvent.hostTexts, hreturn])
  have hname : isPassable decl.name = true := h decl.name (by simp [NodeEvent.hostTexts])
  have hnode : NodePassable
      { kind := decl.nodeKind, name := some decl.name, detail := decl.returnType
        line := decl.span.start.line } :=
    { kind := isPassable_nodeKind decl, name := hname, detail := hdetail }
  exact ⟨parts, hdraws,
    ((Says.enter hwilling hnode).andThen (Says.opened decl.nodeKind)).andThen htells⟩

mutual

theorem TypeDecl.sketches (hwilling : table.Willing) : ∀ (decl : TypeDecl) (kinds : List String),
    (∀ event ∈ decl.nodeEvents, event.Passable) →
    Sketches ((hostBuilder table.overheard).feed decl.nodeEvents) [decl.tree.skeleton] kinds
  | ⟨kind, name, modifiers, typeParameters, superclass, interfaces, members, span⟩, kinds, h => by
      rw [TypeDecl.nodeEvents] at h ⊢
      rw [TypeDecl.tree]
      simp only [List.forall_mem_cons, List.forall_mem_append] at h
      obtain ⟨henter, hmembers, -⟩ := h
      refine Sketches.nested .nil (Says.enterType hwilling henter)
        (Member.allSketch hwilling members (kind.word :: kinds) hmembers)
        (Says.leaveInnermost hwilling (isPassable_typeKind kind) "class") ?_
      exact TreeNode.skeleton_pushAll (by simp [TypeDecl.treeNode, TreeNode.skeleton,
        TreeNode.skeletons]) _

theorem Member.allSketch (hwilling : table.Willing) : ∀ (members : List Member)
    (kinds : List String), (∀ event ∈ Member.allNodeEvents members, event.Passable) →
    Sketches ((hostBuilder table.overheard).feed (Member.allNodeEvents members))
      ((Member.allTrees members).map TreeNode.skeleton) kinds
  | [], _, _ => Sketches.feed_nil
  | member :: members, kinds, h => by
      rw [Member.allNodeEvents] at h ⊢
      obtain ⟨hfirst, hothers⟩ := List.forall_mem_append.1 h
      rw [Member.allTrees, List.map_append]
      exact (Member.sketches hwilling member kinds hfirst).feed_append
        (Member.allSketch hwilling members kinds hothers)

theorem Member.sketches (hwilling : table.Willing) : ∀ (member : Member) (kinds : List String),
    (∀ event ∈ member.nodeEvents, event.Passable) →
    Sketches ((hostBuilder table.overheard).feed member.nodeEvents)
      (member.trees.map TreeNode.skeleton) kinds
  | .field decl, _, h => Sketches.field hwilling (h (.field decl) (by simp [Member.nodeEvents]))
  | .method decl, kinds, h => by
      rw [Member.nodeEvents] at h ⊢
      rw [Member.trees]
      simp only [List.forall_mem_cons, List.forall_mem_append] at h
      obtain ⟨henter, hbody, -⟩ := h
      obtain ⟨parts, hdraws, htells⟩ := Says.enterMethod hwilling henter
      refine Sketches.nested hdraws htells (decl.body.sketches hwilling _ hbody)
        (Says.leaveInnermost hwilling (isPassable_nodeKind decl) "method") ?_
      exact TreeNode.skeleton_pushAll (TreeNode.skeleton_children
        (by simp [TreeNode.skeleton]; rfl) _) _
  | .initializer decl, kinds, h => by
      rw [Member.nodeEvents] at h ⊢
      rw [Member.trees]
      simp only [List.forall_mem_cons, List.forall_mem_append] at h
      have hkind : isPassable "initializer" = true := by decide
      have hdetail : isPassable (if decl.isStatic then "static" else "instance") = true := by
        split <;> decide
      refine Sketches.nested .nil (Says.enter hwilling { kind := hkind, detail := hdetail })
        (decl.body.sketches hwilling kinds h.2.1) (Says.leave hwilling hkind) ?_
      exact TreeNode.skeleton_pushAll (by simp [InitializerDecl.treeNode, TreeNode.skeleton,
        TreeNode.skeletons]) _
  | .type decl, kinds, h => TypeDecl.sketches hwilling decl kinds h
  | .enumConstant ⟨name, arguments, none, span⟩, _, h =>
      Sketches.enumConstant hwilling (h _ (by simp [Member.nodeEvents]))
  | .enumConstant ⟨name, arguments, some body, span⟩, kinds, h => by
      rw [Member.nodeEvents] at h ⊢
      obtain ⟨hconstant, hbody⟩ := List.forall_mem_cons.1 h
      exact (Sketches.enumConstant hwilling hconstant).feed_append
        (TypeDecl.sketches hwilling body kinds hbody)

end

theorem TypeDecl.allSketch (hwilling : table.Willing) (types : List TypeDecl)
    (kinds : List String) (h : ∀ event ∈ types.flatMap TypeDecl.nodeEvents, event.Passable) :
    Sketches ((hostBuilder table.overheard).feed (types.flatMap TypeDecl.nodeEvents))
      ((types.map TypeDecl.tree).map TreeNode.skeleton) kinds := by
  induction types with
  | nil => exact Sketches.feed_nil
  | cons decl types ih =>
      rw [List.flatMap_cons] at h ⊢
      obtain ⟨hfirst, hothers⟩ := List.forall_mem_append.1 h
      exact (TypeDecl.sketches hwilling decl kinds hfirst).feed_append (ih hothers)

/-- What a willing host hears of an outline stands for the outline's tree. -/
theorem Outline.sketches (hwilling : table.Willing) (outline : Outline) (file : String)
    (level : LanguageLevel) (kinds : List String)
    (h : ∀ event ∈ outline.nodeEvents file level, event.Passable) :
    Sketches ((hostBuilder table.overheard).feed (outline.nodeEvents file level))
      [(outline.tree file level).skeleton] kinds := by
  rw [Outline.nodeEvents] at h ⊢
  simp only [List.forall_mem_cons, List.forall_mem_append] at h
  obtain ⟨henter, ⟨⟨hpackage, himports⟩, htypes⟩, -⟩ := h
  have hkind : isPassable "compilation_unit" = true := by decide
  refine Sketches.nested .nil
    (Says.enter hwilling
      { kind := hkind, name := henter file (by simp [NodeEvent.hostTexts]), detail := ?_ })
    (((Sketches.packages hwilling hpackage).feed_append
      (Sketches.imports hwilling himports)).feed_append
      (TypeDecl.allSketch hwilling outline.types kinds htypes))
    (Says.leave hwilling hkind) ?_
  · split
    next name hname =>
      have hpassable : isPassable name = true :=
        henter name (by simp [NodeEvent.hostTexts, hname])
      have hblank : isPassable " " = true := by decide
      simp [isPassable_append, isPassable_tag, hpassable, hblank]
    next => exact isPassable_tag level
  · rw [← List.map_append, ← List.map_append]
    exact TreeNode.skeleton_pushAll (by simp [unitTreeNode, TreeNode.skeleton,
      TreeNode.skeletons]) _

/-! ### What a host hears of a unit -/

/-- A host that rejects nothing is told of a unit with outline, all of whose bodies are parsed and
whose texts can be passed.  The unit is rebuilt, also when nobody listens.  The calls are nested,
every node is left by its own sort, and the sorts and names that can be drawn from them are those of
the tree that is kept for the unit. -/
theorem rebuildUnit_hears_tree (hwilling : table.Willing) (level : LanguageLevel)
    (verbosity : Nat) (unit : CompilationUnit) (outline : Outline)
    (houtline : unit.outline = some outline) (hparsed : outline.hasUnparsedBodies = false)
    (hpassable : ∀ event ∈ outline.nodeEvents unit.file level, event.Passable)
    (shop : Workshop (HostBuilder (Overheard η))) (keeper : Workshop TreeBuilder)
    (hkeeper : keeper.builder.pending = []) :
    ∃ (calls : List HostCall) (tree : TreeNode),
      (rebuildUnit (hostBuilder table) level verbosity unit
        (shop.mapBuilder HostBuilder.unheard)).value.1 = .ok () ∧
      (rebuildUnit (hostBuilder table.overheard) level verbosity unit shop).value.1 = .ok () ∧
      (rebuildUnit (hostBuilder table.overheard) level verbosity unit
        shop).value.2.2.builder.host.calls = shop.builder.host.calls ++ calls ∧
      (rebuildUnit treeBuilder level verbosity unit keeper).value.1 = .ok () ∧
      (rebuildUnit treeBuilder level verbosity unit keeper).value.2.2.builder.units =
        keeper.builder.units ++ [tree] ∧
      Draws calls [tree.skeleton] ∧ Skeleton.ofCalls? calls = some [tree.skeleton] := by
  have hready : unit.readyOutline = .ok outline := by
    simp [CompilationUnit.readyOutline, houtline, hparsed]
  obtain ⟨calls, hdraws, htells⟩ :=
    outline.sketches hwilling unit.file level shop.builder.openKinds hpassable
  obtain ⟨host, hfed⟩ := htells shop.builder rfl
  have hkept := feed_nodeEvents outline unit.file level hkeeper
  refine ⟨calls, outline.tree unit.file level, ?_, ?_, ?_, ?_, ?_, hdraws, hdraws.ofCalls?_eq⟩
  · rw [rebuildUnit_view table.overheard_shows, rebuildUnit_rebuilt hready hfed]
  · rw [rebuildUnit_rebuilt hready hfed]
  · rw [rebuildUnit_rebuilt hready hfed]
  · rw [rebuildUnit_rebuilt hready hkept]
  · rw [rebuildUnit_rebuilt hready hkept]

end Saying

/-- A host that writes down every call and has no plan rejects nothing. -/
theorem recordingHost_willing : (recordingHost {}).Willing where
  enterNode := ⟨_, rfl, fun _ _ => rfl⟩
  leaveNode := ⟨_, rfl, fun _ _ => rfl⟩

/-- A class with a constructor, and an enum inside whose constant has a body. -/
def cellOutline : Outline where
  types :=
    [{ kind := .classType, name := "Cell", modifiers := ["public"], span := {}
       members :=
        [.method
          { modifiers := [], typeParameters := none, returnType := none, name := "Cell"
            parameters :=
              [{ modifiers := [], typeName := "int", name := "size", varargs := false, span := {} }]
            throws := [], span := {}
            body := .parsed
              { statements :=
                  [{ kind := .returnValue, span := {}
                     expressions := [{ kind := .name, text := "size", span := {} }] }] } },
         .type
          { kind := .enumType, name := "Mode", span := {}
            members :=
              [.enumConstant
                { name := "ON", span := {}
                  body := some { kind := .classType, name := "ON", span := {} } }] }] }]

/-- The unit of the class. -/
def cellUnit : CompilationUnit :=
  .make "Cell.java" .requested { file := "Cell.java", maxProblems := 100 } none (some cellOutline)

/-- A host that writes down every call hears the class with all that is inside it. -/
theorem rebuildUnit_hears_tree_cell :
    ∃ (calls : List HostCall) (tree : TreeNode),
      (rebuildUnit (hostBuilder (recordingHost {})) .jdk8 0 cellUnit
        { builder := { host := [] }, conflicts := {} }).value.1 = .ok () ∧
      (rebuildUnit (hostBuilder (recordingHost {}).overheard) .jdk8 0 cellUnit
        { builder := { host := { host := [] } }, conflicts := {} }).value.2.2.builder.host.calls =
          calls ∧
      (rebuildUnit treeBuilder .jdk8 0 cellUnit
        { builder := {}, conflicts := {} }).value.2.2.builder.units = [tree] ∧
      Skeleton.ofCalls? calls = some [tree.skeleton] := by
  obtain ⟨calls, tree, hplain, -, hheard, -, hunits, -, hdrawn⟩ :=
    rebuildUnit_hears_tree recordingHost_willing .jdk8 0 cellUnit cellOutline rfl (by decide)
      (by unfold NodeEvent.Passable; decide)
      { builder := { host := { host := [] } }, conflicts := {} } { builder := {}, conflicts := {} }
      rfl
  exact ⟨calls, tree, hplain, hheard, hunits, hdrawn⟩

end JavaOutline
