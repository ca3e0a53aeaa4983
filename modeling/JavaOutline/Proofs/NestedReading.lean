/-
**How the parsers of statements and declarations move.**

The parsers of statements and of declarations are steady if those for what is nested in them are,
and so they are at every level of nesting.  The parsers that stand around the bodies of a unit, but
not those of the bodies themselves, read the same on a diet.

Main definitions:

* `Nested.Steady` — the parsers one level deeper are steady.

Main results:

* `nestedAt_steady` — **statements and types are read steadily at every level**;
* the instances — the parsers of members, types and units are steady.
-/

import JavaOutline.Proofs.Reading

set_option autoImplicit false
-- The parsers of statements have many parts, and their instances as many.
set_option synthInstance.maxSize 100000

namespace JavaOutline

open JavaOutline.Parser

/-- The parsers for what is nested one level deeper are steady. -/
class Nested.Steady (sub : Nested) : Prop where
  statement : Parser.Steady sub.statement
  typeDecl : ∀ modifiers start, Parser.Steady (sub.typeDecl modifiers start)

attribute [instance] Nested.Steady.statement Nested.Steady.typeDecl

section

variable (sub : Nested) [sub.Steady]

/-! ### Statements -/

instance : Parser.Steady (blockStatements sub) := by
  unfold blockStatements
  infer_instance

instance : Parser.Steady (block sub) := by
  unfold block
  infer_instance

instance (terminator : String) : Parser.Steady (forClause terminator) := by
  unfold forClause
  infer_instance

instance (start : Position) : Parser.Steady (forStatement sub start) := by
  unfold forStatement
  infer_instance

instance : Plain caseLabel := by
  unfold caseLabel
  infer_instance

instance : Parser.Steady (caseStatements sub) := by
  unfold caseStatements
  infer_instance

instance : Parser.Steady (caseBody sub) := by
  unfold caseBody
  have : ∀ found : Option Statement, Parser.Steady (match found with
      | some statement => return [statement]
      | none => do
          let _ ← expect ":"
          caseStatements sub : Parser (List Statement)) := by
    intro found
    cases found <;> infer_instance
  infer_instance

instance : Parser.Steady (switchCase sub) := by
  unfold switchCase
  infer_instance

instance (start : Position) : Parser.Steady (switchStatement sub start) := by
  unfold switchStatement
  infer_instance

instance : Parser.Steady resource := by
  unfold resource
  infer_instance

instance : Parser.Steady resources := by
  unfold resources
  infer_instance

instance : Parser.Steady (catchClause sub) := by
  unfold catchClause
  infer_instance

instance : Parser.Steady (finallyClause sub) := by
  unfold finallyClause
  infer_instance

instance (start : Position) : Parser.Steady (tryStatement sub start) := by
  unfold tryStatement
  infer_instance

instance (start : Position) : Parser.Steady (localVariables start) := by
  unfold localVariables
  infer_instance

instance (start : Position) : Parser.Steady (expressionStatement start) := by
  unfold expressionStatement
  infer_instance

instance : Parser.Steady (blockStatement sub) := by
  unfold blockStatement
  infer_instance

instance (start : Position) : Parser.Steady (emptyStatement start) := by
  unfold emptyStatement
  infer_instance

instance (start : Position) : Parser.Steady (ifStatement sub start) := by
  unfold ifStatement
  infer_instance

instance (start : Position) : Parser.Steady (whileStatement sub start) := by
  unfold whileStatement
  infer_instance

instance (start : Position) : Parser.Steady (doStatement sub start) := by
  unfold doStatement
  infer_instance

instance (start : Position) : Parser.Steady (synchronizedStatement sub start) := by
  unfold synchronizedStatement
  infer_instance

instance : Parser.Steady exitValue := by
  unfold exitValue
  infer_instance

instance (kind : Statement.Kind) (start : Position) : Parser.Steady (exitStatement kind start) := by
  unfold exitStatement
  infer_instance

instance : Parser.Steady jumpLabel := by
  unfold jumpLabel
  infer_instance

instance (kind : Statement.Kind) (start : Position) : Parser.Steady (jumpStatement kind start) := by
  unfold jumpStatement
  infer_instance

instance (start : Position) : Parser.Steady (assertStatement start) := by
  unfold assertStatement
  infer_instance

instance (start : Position) : Parser.Steady (declarationOrExpression sub start) where
  leads {setting s a n} hok hn := by
    obtain ⟨place, _, hplace, hok⟩ := bind_eq_ok.1 hok
    cases hplace
    split at hok
    · exact Steady.leads hok hn
    · obtain ⟨words, m, hwords, hok⟩ := bind_eq_ok.1 hok
      obtain ⟨_, _, hstate, hok⟩ := bind_eq_ok.1 hok
      cases hstate
      split at hok
      · have hlater := Steady.leads hok hn
        exact (Steady.leads hwords hlater.silent).trans hlater
      · obtain ⟨declares, m', hlook, hok⟩ := bind_eq_ok.1 hok
        split at hok
        · have hlater := (Steady.leads hok hn)
          have hlook := Steady.leads hlook hlater.silent
          exact ((Steady.leads hwords hlook.silent).trans hlook).trans hlater
        · split at hok
          · cases hok
          · -- Here the modifiers are read once more, so the tokens passed are counted from the
            -- place and not from behind them.
            obtain ⟨_, _, hback, hok⟩ := bind_eq_ok.1 hok
            cases hback
            have hlater := Steady.leads hok hn
            have hlook := Steady.leads hlook hlater.silent
            have hthere := (Steady.leads hwords hlook.silent).trans hlook
            exact ⟨hthere.silent, hlater.depth.trans hthere.depth, hlater.reaches⟩

instance : Parser.Steady (statementBody sub) := by
  unfold statementBody
  infer_instance

/-! ### Members -/

instance : Plain parameterName := by
  unfold parameterName
  infer_instance

instance : Plain parameter := by
  unfold parameter
  infer_instance

instance : Plain parameters := by
  unfold parameters
  infer_instance

instance : Parser.Steady (body sub) := by
  unfold body
  infer_instance

instance : Parser.Steady (methodBody sub) := by
  unfold methodBody
  infer_instance

instance (head : MethodHead) : Parser.Steady (methodRest sub head) := by
  unfold methodRest
  infer_instance

instance (start : Position) : Parser.Steady (initializerMember sub start) := by
  unfold initializerMember
  infer_instance

instance (head : MethodHead) : Parser.Steady (compactConstructor sub head) := by
  unfold compactConstructor
  infer_instance

instance (words : List String) (typeParameters : Option String) (start : Position) :
    Parser.Steady (typedMember sub words typeParameters start) := by
  unfold typedMember
  infer_instance

instance (typeName : String) : Parser.Steady (member sub typeName) := by
  unfold member
  infer_instance

instance (typeName : String) : Parser.Steady (members sub typeName) := by
  unfold members
  infer_instance

/-! ### Types -/

instance (typeName : String) : Parser.Steady (classBody sub typeName) := by
  unfold classBody
  infer_instance

instance (name : String) : Parser.Steady (constantBody sub name) := by
  unfold constantBody
  infer_instance

instance : Plain constantArguments := by
  unfold constantArguments
  infer_instance

instance : Parser.Steady (enumConstant sub) := by
  unfold enumConstant
  infer_instance

instance : Plain constantsEnd := by
  unfold constantsEnd
  infer_instance

instance : Parser.Steady (enumConstants sub) := by
  unfold enumConstants
  infer_instance

instance (typeName : String) : Parser.Steady (enumBody sub typeName) := by
  unfold enumBody
  infer_instance

instance (kind : TypeDecl.Kind) (typeName : String) :
    Parser.Steady (typeBody sub kind typeName) := by
  unfold typeBody
  infer_instance

instance : Plain typeKind := by
  unfold typeKind
  infer_instance

instance (kind : TypeDecl.Kind) : Plain (supertypeClauses kind) := by
  unfold supertypeClauses
  infer_instance

instance : Plain permitsClause := by
  unfold permitsClause
  infer_instance

instance (words : List String) (start : Position) :
    Parser.Steady (typeDeclBody sub words start) := by
  unfold typeDeclBody
  infer_instance

end

/-! ### The levels of nesting -/

/-- **Statements and types are read steadily at every level.** -/
instance nestedAt_steady (level : Nat) : (nestedAt level).Steady := by
  induction level with
  | zero =>
      unfold nestedAt
      exact ⟨inferInstance, fun _ _ => inferInstance⟩
  | succ level ih =>
      unfold nestedAt
      exact ⟨inferInstance, fun _ _ => inferInstance⟩

/-! ### Units -/

instance : Plain packageDecl := by
  unfold packageDecl
  infer_instance

instance : Plain onDemandStar := by
  unfold onDemandStar
  infer_instance

instance : Plain importDecl := by
  unfold importDecl
  infer_instance

instance : Plain packageClause := by
  unfold packageClause
  infer_instance

instance : Plain importClauses := by
  unfold importClauses
  have : ∀ found : Option ImportDecl, Plain (match found with
      | some decl => return Turn.take decl
      | none => return Turn.skip : Parser (Turn ImportDecl)) := by
    intro found
    cases found <;> infer_instance
  infer_instance

instance : Parser.Steady topLevelType := by
  unfold topLevelType outermost
  infer_instance

instance : Parser.Steady topLevelTypes := by
  unfold topLevelTypes
  infer_instance

instance : Parser.Steady compilationUnit := by
  unfold compilationUnit
  infer_instance

end JavaOutline
