/-
**What a parser passes as a whole.**

A parser does not look at all tokens one by one.  An expression is cut out by counting brackets of any
sort, and a group of brackets that an outline leaves out is passed over by counting brackets of its own
sort.  These are the only two ways to pass tokens unseen, and here each parser tells where its run takes
them.  What a run only looks ahead at does not count, and neither does what it has gone back behind.

Main definitions:

* `Stretch` — tokens that are passed as a whole;
* `Passing`, `stretches` — the stretches that a run of a parser passes, in order;
* `modifierTurn`, `labeledStatement`, `modifiedStatement` — parts of larger parsers;
* `Scan.stretches` — the stretches of the full parse of a source.

The instances for grammatical parsers are found from their definitions.  Only two are written out, those
of `modifierTurn` and of `modifiedStatement`, which may go back.
-/

import JavaOutline.Outline.Declarations
import JavaOutline.Proofs.Reading

set_option autoImplicit false
set_option synthInstance.maxSize 100000

namespace JavaOutline

open JavaOutline.Parser

/-! ### Stretches -/

/-- What a parser passes as a whole. -/
inductive Stretch.Kind where
  /-- A bracket and everything up to the one that closes it. -/
  | group (opener closer : String)
  /-- An expression up to one of the words that stop it. -/
  | expression (stops : List String)
deriving DecidableEq, Repr

/-- Tokens that are passed as a whole: so many, behind so many others. -/
structure Stretch where
  kind : Stretch.Kind
  start : Nat
  length : Nat
deriving DecidableEq, Repr

/-- A parser whose runs tell which stretches they pass. -/
class Passing {α : Type} (p : Parser α) where
  told : Setting → State → List Stretch

/-- The stretches that a run of a parser passes from a state on, in order. -/
def stretches {α : Type} (p : Parser α) [h : Passing p] (setting : Setting) (s : State) :
    List Stretch := h.told setting s

/-- The stretch between two states, if a parser leads from one to the other. -/
def Parser.Answer.stretch {α : Type} (kind : Stretch.Kind) (s : State) : Answer α → List Stretch
  | .ok _ n => [⟨kind, s.index, n.index - s.index⟩]
  | .fail _ _ => []

section

variable {α β : Type}

/-- A parser that looks at every token it passes. -/
@[reducible] def Passing.nothing {p : Parser α} : Passing p := ⟨fun _ _ => []⟩

/-! ### What is passed as a whole -/

instance (opener closer : String) : Passing (bracketed opener closer) where
  told setting s := (bracketed opener closer setting s).stretch (.group opener closer) s

instance (stops : List String) : Passing (expressionUntil stops) where
  told setting s := (expressionUntil stops setting s).stretch (.expression stops) s

/-! ### What is looked at -/

instance (a : α) : Passing (Pure.pure a : Parser α) := .nothing

instance : Passing state := .nothing

instance (f : State → α) : Passing (ask f) := .nothing

instance (text : String) : Passing (sees text) := .nothing

instance (start : Position) : Passing (spanFrom start) := .nothing

instance : Passing here := .nothing

instance : Passing isDiet := .nothing

instance (expected : String) : Passing (unexpected expected : Parser α) := .nothing

instance (expected : String) : Passing (reportUnexpected expected) := .nothing

instance : Passing (tooDeep : Parser α) := .nothing

instance : Passing advance := .nothing

instance (n : Nat) : Passing (skip n) := .nothing

instance (text : String) : Passing (accept text) := .nothing

instance (text : String) : Passing (expect text) := .nothing

instance : Passing identifier := .nothing

-- Whatever is looked past is ahead again afterwards.
instance (p : Parser α) (test : State → Bool) : Passing (lookingPast p test) := .nothing

/-! ### One parser after another -/

instance passing_bind (p : Parser α) (f : α → Parser β) [Passing p] [∀ a, Passing (f a)] :
    Passing (p >>= f) where
  told setting s :=
    stretches p setting s ++
      match p setting s with
      | .ok a n => stretches (f a) setting n
      | .fail _ _ => []

/-- What follows an answer that may be missing. -/
@[reducible] def Passing.option {f : Option α → Parser β} (none : Passing (f none))
    (some : ∀ a, Passing (f (some a))) : ∀ found, Passing (f found)
  | .none => none
  | .some a => some a

-- What follows may ask whether there is a value, so both answers are tried.
instance (priority := low) passing_bind_option (p : Parser (Option α)) (f : Option α → Parser β)
    [Passing p] [hnone : Passing (f none)] [hsome : ∀ a, Passing (f (some a))] : Passing (p >>= f) :=
  have := Passing.option hnone hsome
  passing_bind p f

instance (c : Prop) [Decidable c] (p q : Parser α) [Passing p] [Passing q] :
    Passing (if c then p else q) where
  told setting s := if c then stretches p setting s else stretches q setting s

instance (later : Parser (List α)) [Passing later] (value : Turn α) :
    Passing (behindTurn later value) where
  told setting s :=
    match value with
    | .skip | .take _ => stretches later setting s
    | .stop | .final _ => []

instance passing_collect (turn : Parser (Turn α)) [Passing turn] :
    (fuel : Nat) → Passing (collect turn fuel)
  | 0 => .nothing
  | fuel + 1 =>
      have := passing_collect turn fuel
      inferInstanceAs (Passing (turn >>= behindTurn (collect turn fuel)))

instance (turn : Parser (Turn α)) [Passing turn] : Passing (gather turn) where
  told setting s := stretches (collect turn (setting.total - s.index + 1)) setting s

instance passing_repeatLoop (turn : Parser Bool) [Passing turn] :
    (fuel : Nat) → Passing (repeatLoop turn fuel)
  | 0 => .nothing
  | fuel + 1 =>
      have := passing_repeatLoop turn fuel
      inferInstanceAs
        (Passing (turn >>= fun more => if more then repeatLoop turn fuel else Pure.pure ()))

instance (turn : Parser Bool) [Passing turn] : Passing (repeatWhile turn) where
  told setting s := stretches (repeatLoop turn (setting.total - s.index + 1)) setting s

instance (text : String) (p : Parser α) [Passing p] : Passing (whenAccepted text p) := by
  delta whenAccepted
  infer_instance

instance (item : Parser α) [Passing item] : Passing (commaSeparated item) := by
  delta commaSeparated
  infer_instance

/-! ### Nesting and errors -/

instance (p : Parser α) [Passing p] : Passing (guarded p) where
  told setting s :=
    if maxNesting < s.depth + 1 then [] else stretches p setting { s with depth := s.depth + 1 }

instance (p : Parser Unit) [Passing p] : Passing (orReport p) := ⟨stretches p⟩

instance (p : Parser α) [Passing p] : Passing (orRecover p) := ⟨stretches p⟩

instance (p : Parser α) [Passing p] : Passing (orSkip p) := ⟨stretches p⟩

end

/-! ### Phrases -/

instance : Passing qualifiedName := by
  delta qualifiedName
  infer_instance

instance : Passing annotations := by
  delta annotations
  infer_instance

/-- One turn of reading modifiers. -/
def modifierTurn (s : State) : Parser (Turn String) :=
  match s.modifier?, s.sealedLength? with
  | some word, _ => do
      advance
      return Turn.take word
  | none, some n => do
      skip n
      return Turn.skip
  | none, none =>
      if s.seesAnnotation then do
        annotations
        return Turn.skip
      else return Turn.stop

instance (s : State) : Passing (modifierTurn s) where
  told setting place :=
    if s.modifier? = none ∧ s.sealedLength? = none ∧ s.seesAnnotation then
      stretches annotations setting place
    else []

-- Modifiers are read turn by turn.
instance : Passing modifiers := inferInstanceAs (Passing (gather (state >>= modifierTurn)))

instance : Passing dimensions := by
  delta dimensions
  infer_instance

instance : Passing typeSuffixes := by
  delta typeSuffixes
  infer_instance

instance : Passing typeReference := by
  delta typeReference
  infer_instance

instance : Passing typeList := by
  delta typeList
  infer_instance

instance : Passing typeParameters := by
  delta typeParameters
  infer_instance

instance : Passing parenthesized := by
  delta parenthesized
  infer_instance

instance : Passing arguments := by
  delta arguments
  infer_instance

instance (name : String) (start : Position) : Passing (declarator name start) := by
  delta declarator
  infer_instance

instance (firstName : String) : Passing (declarators firstName) := by
  delta declarators
  infer_instance

instance : Passing looksLikeLocalDeclaration := by
  delta looksLikeLocalDeclaration
  infer_instance

/-! ### Statements -/

/-- The parsers for what is nested one level deeper tell which stretches their runs pass. -/
class Nested.Passing (sub : Nested) where
  statement : Setting → State → List Stretch
  typeDecl : List String → Position → Setting → State → List Stretch

section

variable (sub : Nested) [h : sub.Passing] (start : Position)

instance : Passing sub.statement := ⟨h.statement⟩

instance (words : List String) : Passing (sub.typeDecl words start) := ⟨h.typeDecl words start⟩

instance : Passing (blockStatements sub) := by
  delta blockStatements
  infer_instance

instance : Passing (block sub) := by
  delta block
  infer_instance

instance (terminator : String) : Passing (forClause terminator) := by
  delta forClause
  infer_instance

instance : Passing (forStatement sub start) := by
  delta forStatement
  infer_instance

instance : Passing caseLabel := by
  delta caseLabel
  infer_instance

instance : Passing (caseStatements sub) := by
  delta caseStatements
  infer_instance

instance : Passing (caseBody sub) := by
  delta caseBody
  infer_instance

instance : Passing (switchCase sub) := by
  delta switchCase
  infer_instance

instance : Passing (switchStatement sub start) := by
  delta switchStatement
  infer_instance

instance : Passing resource := by
  delta resource
  infer_instance

instance : Passing resources := by
  delta resources
  infer_instance

instance : Passing (catchClause sub) := by
  delta catchClause
  infer_instance

instance : Passing (finallyClause sub) := by
  delta finallyClause
  infer_instance

instance : Passing (tryStatement sub start) := by
  delta tryStatement
  infer_instance

instance : Passing (localVariables start) := by
  delta localVariables
  infer_instance

instance : Passing (expressionStatement start) := by
  delta expressionStatement
  infer_instance

instance (place : State) : Passing (backTo place) := .nothing

/-- Reads a statement with its label. -/
def labeledStatement : Parser Statement := do
  let label ← identifier
  advance
  let body ← sub.statement
  return { kind := .labeled, label := some label, children := [body], span := ← spanFrom start }

instance : Passing (labeledStatement sub start) := by
  delta labeledStatement
  infer_instance

/-- Reads modifiers and the declaration behind them, or else an expression that begins at a place. -/
def modifiedStatement (place : State) : Parser Statement := do
  let words ← modifiers
  let s ← state
  if s.seesTypeDecl then
    let decl ← sub.typeDecl words start
    return { kind := .localType, label := some decl.name, span := decl.span }
  else if ← looksLikeLocalDeclaration then localVariables start
  else if !words.isEmpty then unexpected "declaration"
  else
    backTo place
    expressionStatement start

-- An annotation may be the beginning of an expression.  Then the parser goes back in front of it, and
-- what it passed is ahead again.
instance passing_modifiedStatement (place : State) : Passing (modifiedStatement sub start place) where
  told setting s :=
    match modifiers setting s with
    | .fail _ _ => stretches modifiers setting s
    | .ok words m =>
        if m.seesTypeDecl then
          stretches modifiers setting s ++ stretches (sub.typeDecl words start) setting m
        else
          match looksLikeLocalDeclaration setting m with
          | .ok true m => stretches modifiers setting s ++ stretches (localVariables start) setting m
          | _ =>
              if words.isEmpty then
                stretches (backTo place >>= fun _ => expressionStatement start) setting m
              else stretches modifiers setting s

instance : Passing (declarationOrExpression sub start) :=
  inferInstanceAs (Passing (state >>= fun place =>
    if place.seesIdentifier && place.seesSecond ":" then labeledStatement sub start
    else modifiedStatement sub start place))

instance : Passing (blockStatement sub) := by
  delta blockStatement
  infer_instance

instance : Passing (emptyStatement start) := by
  delta emptyStatement
  infer_instance

instance : Passing (ifStatement sub start) := by
  delta ifStatement
  infer_instance

instance : Passing (whileStatement sub start) := by
  delta whileStatement
  infer_instance

instance : Passing (doStatement sub start) := by
  delta doStatement
  infer_instance

instance : Passing (synchronizedStatement sub start) := by
  delta synchronizedStatement
  infer_instance

instance : Passing exitValue := by
  delta exitValue
  infer_instance

instance (kind : Statement.Kind) : Passing (exitStatement kind start) := by
  delta exitStatement
  infer_instance

instance : Passing jumpLabel := by
  delta jumpLabel
  infer_instance

instance (kind : Statement.Kind) : Passing (jumpStatement kind start) := by
  delta jumpStatement
  infer_instance

instance : Passing (assertStatement start) := by
  delta assertStatement
  infer_instance

instance : Passing (statementBody sub) := by
  delta statementBody
  infer_instance

/-! ### Members -/

instance : Passing parameterName := by
  delta parameterName
  infer_instance

instance : Passing parameter := by
  delta parameter
  infer_instance

instance : Passing parameters := by
  delta parameters
  infer_instance

instance : Passing (body sub) := by
  delta body
  infer_instance

instance : Passing (methodBody sub) := by
  delta methodBody
  infer_instance

instance (head : MethodHead) : Passing (methodRest sub head) := by
  delta methodRest
  infer_instance

instance : Passing (initializerMember sub start) := by
  delta initializerMember
  infer_instance

instance (head : MethodHead) : Passing (compactConstructor sub head) := by
  delta compactConstructor
  infer_instance

instance (words : List String) (typeParameters : Option String) :
    Passing (typedMember sub words typeParameters start) := by
  delta typedMember
  infer_instance

instance (typeName : String) : Passing (member sub typeName) := by
  delta member
  infer_instance

instance (typeName : String) : Passing (members sub typeName) := by
  delta members
  infer_instance

/-! ### Types -/

instance (typeName : String) : Passing (classBody sub typeName) := by
  delta classBody
  infer_instance

instance (name : String) : Passing (constantBody sub name) := by
  delta constantBody
  infer_instance

instance : Passing constantArguments := by
  delta constantArguments
  infer_instance

instance : Passing (enumConstant sub) := by
  delta enumConstant
  infer_instance

instance : Passing constantsEnd := by
  delta constantsEnd
  infer_instance

instance : Passing (enumConstants sub) := by
  delta enumConstants
  infer_instance

instance (typeName : String) : Passing (enumBody sub typeName) := by
  delta enumBody
  infer_instance

instance (kind : TypeDecl.Kind) (typeName : String) : Passing (typeBody sub kind typeName) := by
  delta typeBody
  infer_instance

instance : Passing typeKind := by
  delta typeKind
  infer_instance

instance (kind : TypeDecl.Kind) : Passing (supertypeClauses kind) := by
  delta supertypeClauses
  infer_instance

instance : Passing permitsClause := by
  delta permitsClause
  infer_instance

instance (words : List String) : Passing (typeDeclBody sub words start) := by
  delta typeDeclBody
  infer_instance

end

/-! ### The levels of nesting, and units -/

instance passing_nestedAt : (level : Nat) → (nestedAt level).Passing
  | 0 =>
      { statement := stretches (guarded tooDeep : Parser Statement)
        typeDecl := fun _ _ => stretches (guarded tooDeep : Parser TypeDecl) }
  | level + 1 =>
      have := passing_nestedAt level
      { statement := stretches (guarded (statementBody (nestedAt level)))
        typeDecl := fun words start =>
          stretches (guarded (typeDeclBody (nestedAt level) words start)) }

instance : outermost.Passing := inferInstanceAs (nestedAt maxNesting).Passing

instance : Passing packageDecl := by
  delta packageDecl
  infer_instance

instance : Passing onDemandStar := by
  delta onDemandStar
  infer_instance

instance : Passing importDecl := by
  delta importDecl
  infer_instance

instance : Passing packageClause := by
  delta packageClause
  infer_instance

instance : Passing importClauses := by
  delta importClauses
  infer_instance

instance : Passing topLevelType := by
  delta topLevelType
  infer_instance

instance : Passing topLevelTypes := by
  delta topLevelTypes
  infer_instance

instance : Passing compilationUnit := by
  delta compilationUnit
  infer_instance

/-- The stretches that the full parse of a source passes as a whole. -/
def Scan.stretches (scan : Scan) : List Stretch :=
  JavaOutline.stretches compilationUnit (scan.setting false) { rest := scan.tokens }

end JavaOutline
