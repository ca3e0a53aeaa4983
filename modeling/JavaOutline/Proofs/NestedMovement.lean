/-
**Where the parsers of statements and declarations can go.**

The parsers of statements and of declarations end ahead of where they began if those for what is nested
in them do, and so they do at every level of nesting.  A statement, a member or a type that is read
takes at least one token.

Main definitions:

* `Nested.Advances` — the parsers one level deeper pass a token whenever they answer.

Main results:

* `nestedAt_advances` — **statements and types take tokens at every level**;
* the instances — the parsers of members, types and units move.
-/

import JavaOutline.Proofs.Movement

set_option autoImplicit false
set_option synthInstance.maxSize 100000

namespace JavaOutline

open JavaOutline.Parser

/-- The parsers for what is nested one level deeper pass a token whenever they answer. -/
class Nested.Advances (sub : Nested) : Prop where
  statement : Parser.Advances sub.statement
  typeDecl : ∀ modifiers start, Parser.Advances (sub.typeDecl modifiers start)

attribute [instance] Nested.Advances.statement Nested.Advances.typeDecl

section

variable (sub : Nested) [sub.Advances]

/-! ### Statements -/

instance : Moves (blockStatements sub) := by
  unfold blockStatements
  infer_instance

instance : Parser.Advances (block sub) := by
  unfold block
  infer_instance

instance (terminator : String) : Moves (forClause terminator) := by
  unfold forClause
  infer_instance

instance (start : Position) : Parser.Advances (forStatement sub start) := by
  unfold forStatement
  infer_instance

instance : Parser.Advances caseLabel where
  moves := by
    unfold caseLabel
    infer_instance
  forward {setting s a n} hok := by
    obtain ⟨accepted, m, hcase, hok⟩ := bind_eq_ok.1 hok
    cases accepted with
    | true =>
        have hlt := index_lt_of_accept hcase
        have hle := (Moves.of_ok hok).index_le
        omega
    | false =>
        have hle := (Moves.of_ok hcase).index_le
        obtain ⟨accepted, m', hdefault, hok⟩ := bind_eq_ok.1 hok
        cases accepted with
        | true =>
            have hlt := index_lt_of_accept hdefault
            obtain ⟨-, rfl⟩ := pure_eq_ok.1 hok
            omega
        | false => cases hok

instance : Moves (caseStatements sub) := by
  unfold caseStatements
  infer_instance

instance : Moves (caseBody sub) := by
  unfold caseBody
  infer_instance

instance : Parser.Advances (switchCase sub) := by
  unfold switchCase
  infer_instance

instance (start : Position) : Parser.Advances (switchStatement sub start) := by
  unfold switchStatement
  infer_instance

instance : Parser.Advances resource := by
  unfold resource
  infer_instance

instance : Moves resources := by
  unfold resources
  infer_instance

instance : Parser.Advances (catchClause sub) := by
  unfold catchClause
  infer_instance

instance : Moves (finallyClause sub) := by
  unfold finallyClause
  infer_instance

instance (start : Position) : Parser.Advances (tryStatement sub start) := by
  unfold tryStatement
  infer_instance

instance (start : Position) : Parser.Advances (localVariables start) := by
  unfold localVariables
  infer_instance

instance (start : Position) : Parser.Advances (expressionStatement start) := by
  unfold expressionStatement
  infer_instance

instance : Parser.Advances (blockStatement sub) := by
  unfold blockStatement
  infer_instance

instance (start : Position) : Moves (emptyStatement start) := by
  unfold emptyStatement
  infer_instance

instance (start : Position) : Parser.Advances (ifStatement sub start) := by
  unfold ifStatement
  infer_instance

instance (start : Position) : Parser.Advances (whileStatement sub start) := by
  unfold whileStatement
  infer_instance

instance (start : Position) : Parser.Advances (doStatement sub start) := by
  unfold doStatement
  infer_instance

instance (start : Position) : Parser.Advances (synchronizedStatement sub start) := by
  unfold synchronizedStatement
  infer_instance

instance : Moves exitValue := by
  unfold exitValue
  infer_instance

instance (kind : Statement.Kind) (start : Position) :
    Parser.Advances (exitStatement kind start) := by
  unfold exitStatement
  infer_instance

instance : Moves jumpLabel := by
  unfold jumpLabel
  infer_instance

instance (kind : Statement.Kind) (start : Position) :
    Parser.Advances (jumpStatement kind start) := by
  unfold jumpStatement
  infer_instance

instance (start : Position) : Parser.Advances (assertStatement start) := by
  unfold assertStatement
  infer_instance

/-- What begins with no keyword of its own ends ahead of where it began, although it may go back on
the way: what is read from there on lies ahead again. -/
theorem declarationOrExpression_goes (start : Position) (setting : Setting) (s : State) :
    s.Goes (declarationOrExpression sub start setting s).state ∧
      ∀ {a n}, declarationOrExpression sub start setting s = .ok a n → s.index < n.index := by
  have hhere : state setting s = .ok s s := rfl
  rw [declarationOrExpression, bind_of_ok hhere]
  have hplace {p : Parser Statement} [Parser.Advances p] {m : State} (hm : s.Goes m) :
      s.Goes (p setting m).state ∧ ∀ {a n}, p setting m = .ok a n → s.index < n.index :=
    ⟨hm.trans (Moves.goes setting m), fun hok =>
      Nat.lt_of_le_of_lt hm.index_le (Advances.forward hok)⟩
  split
  · exact hplace (.refl s)
  · cases hwords : modifiers setting s with
    | fail e m =>
        rw [bind_of_fail hwords]
        exact ⟨Moves.of_fail hwords, nofun⟩
    | ok words m =>
        have hm := Moves.of_ok hwords
        have hstate : state setting m = .ok m m := rfl
        rw [bind_of_ok hwords, bind_of_ok hstate]
        split
        · exact hplace hm
        · obtain ⟨declares, hlook⟩ : ∃ declares,
              looksLikeLocalDeclaration setting m = .ok declares m := by
            unfold looksLikeLocalDeclaration lookingPast
            split
            · exact ⟨_, rfl⟩
            · exact ⟨_, rfl⟩
          rw [bind_of_ok hlook]
          split
          · exact hplace hm
          · split
            · exact hplace hm
            · -- The tokens are counted from the place gone back to, but the levels of nesting are
              -- those that are counted by now.
              have hback : backTo s setting m =
                  .ok () { m with index := s.index, last := s.last, rest := s.rest } := rfl
              rw [bind_of_ok hback]
              exact hplace ⟨hm.depth, State.Reaches.refl s⟩

instance (start : Position) : Parser.Advances (declarationOrExpression sub start) where
  moves := ⟨fun setting s => (declarationOrExpression_goes sub start setting s).1⟩
  forward hok := (declarationOrExpression_goes sub start _ _).2 hok

/-- A semicolon that is seen is passed. -/
theorem emptyStatement_forward {start : Position} {setting : Setting} {s n : State} {a : Statement}
    (hsees : s.sees ";" = true) (h : emptyStatement start setting s = .ok a n) :
    s.index < n.index := by
  obtain ⟨_, m, hadvance, h⟩ := bind_eq_ok.1 h
  cases hadvance
  have hle := (Moves.of_ok h).index_le
  rw [State.index_advance_of_ne_nil (State.rest_ne_nil_of_sees hsees)] at hle
  exact hle

/-- A statement that is read takes a token: the empty one its semicolon, the others by inference. -/
theorem statementBody_forward {setting : Setting} {s n : State} {a : Statement}
    (h : statementBody sub setting s = .ok a n) : s.index < n.index := by
  have hhere : here setting s = .ok (setting.here s) s := rfl
  have hstate : state setting s = .ok s s := rfl
  rw [statementBody, bind_of_ok hhere, bind_of_ok hstate] at h
  by_cases hbrace : s.sees "\x7b" = true
  · rw [if_pos hbrace] at h
    exact Advances.forward h
  · rw [if_neg hbrace] at h
    by_cases hsees : s.sees ";" = true
    · rw [if_pos hsees] at h
      exact emptyStatement_forward hsees h
    · rw [if_neg hsees] at h
      exact Advances.forward h

instance : Parser.Advances (statementBody sub) where
  moves := by
    unfold statementBody
    infer_instance
  forward hok := statementBody_forward sub hok

/-! ### Members -/

instance : Moves parameterName := by
  unfold parameterName
  infer_instance

instance : Parser.Advances parameter := by
  unfold parameter
  infer_instance

instance : Parser.Advances parameters := by
  unfold parameters
  infer_instance

instance : Parser.Advances (body sub) := by
  unfold body
  infer_instance

instance : Moves (methodBody sub) := by
  unfold methodBody
  infer_instance

instance (head : MethodHead) : Parser.Advances (methodRest sub head) := by
  unfold methodRest
  infer_instance

instance (start : Position) : Parser.Advances (initializerMember sub start) := by
  unfold initializerMember
  infer_instance

instance (head : MethodHead) : Parser.Advances (compactConstructor sub head) := by
  unfold compactConstructor
  infer_instance

instance (words : List String) (typeParameters : Option String) (start : Position) :
    Parser.Advances (typedMember sub words typeParameters start) := by
  unfold typedMember
  infer_instance

instance (typeName : String) : Parser.Advances (member sub typeName) := by
  unfold member
  infer_instance

instance (typeName : String) : Moves (members sub typeName) := by
  unfold members
  infer_instance

/-! ### Types -/

instance (typeName : String) : Parser.Advances (classBody sub typeName) := by
  unfold classBody
  infer_instance

instance (name : String) : Moves (constantBody sub name) := by
  unfold constantBody
  infer_instance

instance : Moves constantArguments := by
  unfold constantArguments
  infer_instance

instance : Parser.Advances (enumConstant sub) := by
  unfold enumConstant
  infer_instance

instance : Moves constantsEnd := by
  unfold constantsEnd
  infer_instance

instance : Moves (enumConstants sub) := by
  unfold enumConstants
  infer_instance

instance (typeName : String) : Parser.Advances (enumBody sub typeName) := by
  unfold enumBody
  infer_instance

instance (kind : TypeDecl.Kind) (typeName : String) :
    Parser.Advances (typeBody sub kind typeName) := by
  unfold typeBody
  infer_instance

instance : Moves typeKind := by
  unfold typeKind
  infer_instance

instance (kind : TypeDecl.Kind) : Moves (supertypeClauses kind) := by
  unfold supertypeClauses
  infer_instance

instance : Moves permitsClause := by
  unfold permitsClause
  infer_instance

instance (words : List String) (start : Position) :
    Parser.Advances (typeDeclBody sub words start) := by
  unfold typeDeclBody
  infer_instance

end

/-! ### The levels of nesting -/

/-- **Statements and types take tokens at every level.** -/
instance nestedAt_advances (level : Nat) : (nestedAt level).Advances := by
  induction level with
  | zero =>
      unfold nestedAt
      exact ⟨inferInstance, fun _ _ => inferInstance⟩
  | succ level ih =>
      unfold nestedAt
      exact ⟨inferInstance, fun _ _ => inferInstance⟩

/-! ### Units -/

instance : Parser.Advances packageDecl := by
  unfold packageDecl
  infer_instance

instance : Moves onDemandStar := by
  unfold onDemandStar
  infer_instance

instance : Parser.Advances importDecl := by
  unfold importDecl
  infer_instance

instance : Moves packageClause := by
  unfold packageClause
  infer_instance

instance : Moves importClauses := by
  unfold importClauses
  infer_instance

instance : Parser.Advances topLevelType := by
  unfold topLevelType outermost
  infer_instance

instance : Moves topLevelTypes := by
  unfold topLevelTypes
  infer_instance

instance : Moves compilationUnit := by
  unfold compilationUnit
  infer_instance

end JavaOutline
