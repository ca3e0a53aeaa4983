/-
**Builders in a host.**

A host program rebuilds units by entry points of its own.  Every node is told of by a call when it
is entered and another one when it is left.  An entry point answers with a number, and anything but
zero rejects the node; an entry point may also be missing.

Main definitions:

* `HostTable` — the entry points of a host with a state;
* `HostBuilder`, `hostBuilder` — the builder for a host;
* `HostCall`, `HostAnswers`, `recordingHost` — a host that writes down every call and answers by a
  fixed plan.
-/

import JavaOutline.Builder
import JavaOutline.JsonValue

set_option autoImplicit false

namespace JavaOutline

/-! ### Hosts -/

/-- What a host is told when a node is entered. -/
structure HostNode where
  kind : String
  name : Option String := none
  detail : Option String := none
  line : Nat := 1
deriving DecidableEq, Repr, Inhabited

/-- The entry points of a host, where they are not missing. -/
structure HostTable (η : Type) where
  beginBatch : Option (η → Int × η) := none
  endBatch : Option (η → Int × η) := none
  enterNode : Option (HostNode → η → Int × η) := none
  leaveNode : Option (String → η → Int × η) := none
  /-- Answers below zero leave the question open. -/
  isSpecified : Option (String → η → Int × η) := none
  abortUnit : Option (String → η → Int × η) := none

/-- The state of a builder for a host. -/
structure HostBuilder (η : Type) where
  host : η
  /-- The sorts of the types and methods that were entered and not left, the innermost first. -/
  openKinds : List String := []
deriving Inhabited

namespace HostBuilder

variable {η : Type}

/-- What the builder answers and how it goes on. -/
abbrev Answer (η : Type) : Type := Except BuilderError Unit × HostBuilder η

/-- The largest line that a host is told. -/
def maxLine : Nat := 2147483647

/-- Whether a text can be passed to a host, which takes no NUL. -/
def isPassable (text : String) : Bool := !text.toList.contains '\x00'

/-- The answer for a number that a host gave for a node. -/
def check (status : Int) (node : String) : Except BuilderError Unit :=
  if status = 0 then .ok ()
  else .error (.rejected node ("host returned status " ++ toString status))

/-- One thing and then, unless it fails, another one. -/
def andThen (first : Answer η) (second : HostBuilder η → Answer η) : Answer η :=
  match first with
  | (.ok (), next) => second next
  | (.error e, next) => (.error e, next)

/-- Tells the host that a node is entered. -/
def enter (table : HostTable η) (node : HostNode) (state : HostBuilder η) : Answer η :=
  match table.enterNode with
  | none => (.error (.linkage "enter_node"), state)
  | some call =>
      if isPassable node.kind && node.name.all isPassable && node.detail.all isPassable then
        let (status, host) := call { node with line := min node.line maxLine } state.host
        (check status node.kind, { state with host })
      else (.error (.rejected node.kind "interior NUL byte"), state)

/-- Tells the host that a node is left. -/
def leave (table : HostTable η) (kind : String) (state : HostBuilder η) : Answer η :=
  match table.leaveNode with
  | none => (.error (.linkage "leave_node"), state)
  | some call =>
      if isPassable kind then
        let (status, host) := call kind state.host
        (check status kind, { state with host })
      else (.error (.rejected kind "interior NUL byte"), state)

/-- Tells the host of a node without parts. -/
def leaf (table : HostTable η) (node : HostNode) (state : HostBuilder η) : Answer η :=
  andThen (enter table node state) (leave table node.kind)

/-- Does something for every item, up to the first failure. -/
def forAll {α : Type} (act : α → HostBuilder η → Answer η) : List α → HostBuilder η → Answer η
  | [], state => (.ok (), state)
  | item :: items, state => andThen (act item state) (forAll act items)

/-- The state with one more sort on the stack. -/
def opened (kind : String) (state : HostBuilder η) : Answer η :=
  (.ok (), { state with openKinds := kind :: state.openKinds })

/-- Leaves the innermost type or method; without one it is of the given sort. -/
def leaveInnermost (table : HostTable η) (standard : String) (state : HostBuilder η) : Answer η :=
  leave table (state.openKinds.head?.getD standard)
    { state with openKinds := state.openKinds.tail }

/-! ### Nodes for declarations -/

/-- The node for an expression. -/
def expressionNode (e : Expression) : HostNode where
  kind := e.kind.word
  detail := some e.text
  line := e.span.start.line

/-- What a host is told of an import besides its name. -/
def importDetail (decl : ImportDecl) : Option String :=
  match decl.isStatic, decl.onDemand with
  | true, true => some "static on_demand"
  | true, false => some "static"
  | false, true => some "on_demand"
  | false, false => none

/-- Modifiers with blanks between them, if that is not empty. -/
def modifierDetail (modifiers : List String) : Option String :=
  let text := " ".intercalate modifiers
  if text.isEmpty then none else some text

/-- Tells of a variable of a field with its initializer inside. -/
def variableDecl (table : HostTable η) (typeName : String) (decl : VariableDecl)
    (state : HostBuilder η) : Answer η :=
  let node : HostNode :=
    { kind := "field", name := some decl.name, detail := some typeName
      line := decl.span.start.line }
  andThen
    (andThen (enter table node state)
      (forAll (fun e => leaf table (expressionNode e)) decl.initializer.toList))
    (leave table "field")

/-- Tells of an enum constant with its arguments inside. -/
def enumConstant (table : HostTable η) (decl : EnumConstant) (state : HostBuilder η) : Answer η :=
  let node : HostNode :=
    { kind := "enum_constant", name := some decl.name, line := decl.span.start.line }
  andThen
    (andThen (enter table node state)
      (forAll (fun e => leaf table (expressionNode e)) decl.arguments))
    (leave table "enum_constant")

/-- Tells that a method is entered, and of its parameters. -/
def enterMethod (table : HostTable η) (decl : MethodDecl) (state : HostBuilder η) : Answer η :=
  let kind := if decl.isConstructor then "constructor" else "method"
  let line := decl.span.start.line
  andThen
    (andThen (enter table { kind, name := some decl.name, detail := decl.returnType, line } state)
      (opened kind))
    (forAll
      (fun parameter => leaf table
        { kind := "parameter", name := some parameter.name
          detail := some parameter.typeName, line })
      decl.parameters)

/-- What a host is told about an event. -/
def node (table : HostTable η) : NodeEvent → HostBuilder η → Answer η
  | .enterUnit file package level =>
      enter table
        { kind := "compilation_unit", name := some file
          detail := some (match package with
            | some name => level.tag ++ " " ++ name
            | none => level.tag) }
  | .leaveUnit _ => leave table "compilation_unit"
  | .packageClause decl =>
      leaf table { kind := "package", name := some decl.name, line := decl.span.start.line }
  | .importClause decl =>
      leaf table
        { kind := "import", name := some decl.name, detail := importDetail decl
          line := decl.span.start.line }
  | .enterType decl => fun state =>
      andThen
        (enter table
          { kind := decl.kind.word, name := some decl.name
            detail := modifierDetail decl.modifiers, line := decl.span.start.line } state)
        (opened decl.kind.word)
  | .leaveType _ => leaveInnermost table "class"
  | .field decl => forAll (variableDecl table decl.typeName) decl.declarators
  | .enumConstant decl => enumConstant table decl
  | .enterMethod decl => enterMethod table decl
  | .leaveMethod _ => leaveInnermost table "method"
  | .enterInitializer decl =>
      enter table
        { kind := "initializer", detail := some (if decl.isStatic then "static" else "instance")
          line := decl.span.start.line }
  | .leaveInitializer => leave table "initializer"
  | .enterStatement statement =>
      enter table
        { kind := statement.kind.word, name := statement.label
          line := statement.span.start.line }
  | .leaveStatement kind => leave table kind.word
  | .expression e => leaf table (expressionNode e)

/-! ### Batches -/

/-- Tells the host of a border of a batch. -/
def boundary (call? : Option (η → Int × η)) (entryPoint : String) (state : HostBuilder η) :
    Answer η :=
  match call? with
  | none => (.error (.linkage entryPoint), state)
  | some call =>
      let (status, host) := call state.host
      (check status "batch", { state with host })

/-- Asks the host whether a file is to be rebuilt. -/
def isSpecified (table : HostTable η) (file : String) (state : HostBuilder η) :
    Option Bool × HostBuilder η :=
  match table.isSpecified with
  | none => (none, state)
  | some call =>
      if isPassable file then
        let (answer, host) := call file state.host
        (if 0 ≤ answer then some (decide (0 < answer)) else none, { state with host })
      else (none, state)

/-- Tells the host to forget a unit. -/
def abort (table : HostTable η) (file : String) (state : HostBuilder η) : HostBuilder η :=
  match table.abortUnit with
  | none => { state with openKinds := [] }
  | some call =>
      if isPassable file then { host := (call file state.host).2 }
      else { state with openKinds := [] }

end HostBuilder

/-- The builder for a host. -/
def hostBuilder {η : Type} (table : HostTable η) : Builder (HostBuilder η) where
  beginBatch := HostBuilder.boundary table.beginBatch "begin_batch"
  endBatch := HostBuilder.boundary table.endBatch "end_batch"
  isSpecified := HostBuilder.isSpecified table
  abort := HostBuilder.abort table
  node := HostBuilder.node table

/-! ### A host that writes down every call -/

/-- A call of an entry point. -/
inductive HostCall where
  | beginBatch
  | endBatch
  | enter (node : HostNode)
  | leave (kind : String)
  | isSpecified (file : String)
  | abort (file : String)
deriving DecidableEq, Repr, Inhabited

/-- The call as an array: what it is, and what the host is told. -/
def HostCall.json : HostCall → JsonValue
  | .beginBatch => .array [.text "begin"]
  | .endBatch => .array [.text "end"]
  | .enter node =>
      .array
        [.text "enter", .text node.kind, .optional .text node.name, .optional .text node.detail,
         .number node.line]
  | .leave kind => .array [.text "leave", .text kind]
  | .isSpecified file => .array [.text "specified", .text file]
  | .abort file => .array [.text "abort", .text file]

/-- A plan for the answers of a host. -/
structure HostAnswers where
  /-- The entry points that are missing. -/
  missing : List String := []
  beginBatch : Int := 0
  endBatch : Int := 0
  /-- The answers when nodes of a sort are entered. -/
  enter : List (String × Int) := []
  /-- The answers when nodes of a sort are left. -/
  leave : List (String × Int) := []
  /-- The answers for files. -/
  isSpecified : List (String × Int) := []
deriving DecidableEq, Repr, Inhabited

/-- An entry point that writes down its calls, unless it is missing. -/
def HostAnswers.entry {α : Type} (answers : HostAnswers) (name : String) (point : α) : Option α :=
  if answers.missing.contains name then none else some point

/-- The host that writes down every call and answers by a plan. -/
def recordingHost (answers : HostAnswers) : HostTable (List HostCall) where
  beginBatch := answers.entry "begin_batch" fun calls =>
    (answers.beginBatch, calls ++ [.beginBatch])
  endBatch := answers.entry "end_batch" fun calls => (answers.endBatch, calls ++ [.endBatch])
  enterNode := answers.entry "enter_node" fun node calls =>
    ((answers.enter.lookup node.kind).getD 0, calls ++ [.enter node])
  leaveNode := answers.entry "leave_node" fun kind calls =>
    ((answers.leave.lookup kind).getD 0, calls ++ [.leave kind])
  isSpecified := answers.entry "is_specified_source_file" fun file calls =>
    ((answers.isSpecified.lookup file).getD (-1), calls ++ [.isSpecified file])
  abortUnit := answers.entry "abort_unit" fun file calls => (0, calls ++ [.abort file])

end JavaOutline
