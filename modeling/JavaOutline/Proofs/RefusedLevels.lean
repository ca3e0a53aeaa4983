/-
**Which levels of nesting are refused.**

How deeply a place is nested is a number of open statements and types, and the limit is meant for that
number.  The number that is counted on the way is another one: a level that was refused stays counted,
so behind a refusal everything looks one level deeper than it is.  Here the grammar is written down with
a limit on what is really open, to which the refusals that were reported before are added, and that is
the grammar that is read with.  Without a refusal before it, a statement or a type is refused exactly if
as many statements and types are open around it as may be.

Main definitions:

* `guardedWithin`, `nestedWithin` — levels of nesting that know how many are open around them;
* `compilationUnitOf` — a unit, given the parsers for what is nested in it;
* `Parser.Alike` — two parsers answer alike where some levels are open.

Main results:

* `nestedAt_alike` — the two sorts of levels answer alike;
* `levels_kept` — **what stays counted behind a statement or a type, and what is refused in a unit**;
* `refused_stays_counted` — behind a statement that is refused one more level is counted.
-/

import JavaOutline.Proofs.CountedLevels

set_option autoImplicit false
set_option synthInstance.maxSize 100000

namespace JavaOutline

open JavaOutline.Parser

/-! ### Levels by what is open -/

/-- One more level of nesting around a parser, `enclosing` statements and types being open around it.
The level is refused if these and the refusals reported before are too many. -/
def guardedWithin {α : Type} (enclosing : Nat) (p : Parser α) : Parser α := fun setting s =>
  let inner := { s with depth := s.depth + 1 }
  if maxNesting ≤ enclosing + s.refusals then tooDeep setting inner
  else
    match p setting inner with
    | .ok a next => .ok a { next with depth := next.depth - 1 }
    | .fail e next => .fail e { next with depth := next.depth - 1 }

/-- The parsers for statements and types that so many are open around, when so many more levels may be
opened. -/
def nestedWithin (enclosing : Nat) : Nat → Nested
  | 0 =>
      { statement := guardedWithin enclosing tooDeep
        typeDecl := fun _ _ => guardedWithin enclosing tooDeep }
  | level + 1 =>
      let sub := nestedWithin (enclosing + 1) level
      { statement := guardedWithin enclosing (statementBody sub)
        typeDecl := fun words start => guardedWithin enclosing (typeDeclBody sub words start) }

/-- Reads the types of a unit with the parsers for what is nested in it. -/
def topLevelTypesOf (nested : Nested) : Parser (List TypeDecl) :=
  gather do
    let s ← state
    if s.rest.isEmpty then return Turn.stop
    else if ← accept ";" then return Turn.skip
    else orSkip do
      let start ← here
      let words ← modifiers
      nested.typeDecl words start

/-- Reads a whole unit with the parsers for what is nested in it. -/
def compilationUnitOf (nested : Nested) : Parser Outline := do
  let start ← here
  orReport annotations
  let package ← packageClause
  let imports ← importClauses
  let types ← topLevelTypesOf nested
  return { package, imports, types, span := ← spanFrom start }

/-- Units are read with the parsers of the outermost level. -/
theorem compilationUnitOf_outermost : compilationUnitOf outermost = compilationUnit := rfl

/-! ### Answering alike -/

namespace Parser

variable {α β : Type} {enclosing : Nat}

/-- Two parsers that answer alike wherever the levels that are counted are `enclosing` open ones and
those refused before. -/
class Alike (enclosing : Nat) (p q : Parser α) : Prop where
  alike : ∀ (setting : Setting) (s : State), s.depth = enclosing + s.refusals →
    p setting s = q setting s

-- Tried first: most parts of a parser hold nothing nested.
instance (priority := high) (p : Parser α) : Alike enclosing p p := ⟨fun _ _ _ => rfl⟩

instance (p q : Parser α) (f g : α → Parser β) [hcounts : Counts enclosing p]
    [hp : Alike enclosing p q] [hf : ∀ a, Alike enclosing (f a) (g a)] :
    Alike enclosing (p >>= f) (q >>= g) where
  alike setting s hs := by
    have hsame := hp.alike setting s hs
    cases h : p setting s with
    | fail e m => rw [bind_of_fail h, bind_of_fail (hsame.symm.trans h)]
    | ok a m =>
        obtain ⟨refused, hrefusals, hdepth⟩ := hcounts.of_ok (by omega) h
        rw [bind_of_ok h, bind_of_ok (hsame.symm.trans h)]
        exact (hf a).alike setting m (by omega)

instance (c : Prop) [Decidable c] (p p' q q' : Parser α) [hp : Alike enclosing p p']
    [hq : Alike enclosing q q'] : Alike enclosing (if c then p else q) (if c then p' else q') := by
  split
  · exact hp
  · exact hq

/-! ### Repetition -/

instance (later later' : Parser (List α)) [h : Alike enclosing later later']
    [Counts enclosing later] (value : Turn α) :
    Alike enclosing (behindTurn later value) (behindTurn later' value) := by
  cases value with
  | stop => exact inferInstanceAs (Alike enclosing (Pure.pure []) (Pure.pure []))
  | skip => exact h
  | take a => unfold behindTurn; infer_instance
  | final a => exact inferInstanceAs (Alike enclosing (Pure.pure [a]) (Pure.pure [a]))

instance collect_alike (turn turn' : Parser (Turn α)) [Alike enclosing turn turn']
    [Counts enclosing turn] (fuel : Nat) :
    Alike enclosing (collect turn fuel) (collect turn' fuel) := by
  induction fuel with
  | zero => exact inferInstanceAs (Alike enclosing (Pure.pure []) (Pure.pure []))
  | succ fuel ih =>
      exact inferInstanceAs (Alike enclosing (turn >>= behindTurn (collect turn fuel))
        (turn' >>= behindTurn (collect turn' fuel)))

instance (turn turn' : Parser (Turn α)) [Alike enclosing turn turn'] [Counts enclosing turn] :
    Alike enclosing (gather turn) (gather turn') where
  alike setting s hs := by
    rw [gather_eq_collect, gather_eq_collect]
    exact Alike.alike setting s hs

instance (text : String) (p q : Parser α) [Counts enclosing p] [Alike enclosing p q] :
    Alike enclosing (whenAccepted text p) (whenAccepted text q) := by
  unfold whenAccepted
  infer_instance

/-! ### Nesting and errors -/

instance (p q : Parser α) [h : Alike enclosing p q] : Alike enclosing (orSkip p) (orSkip q) where
  alike setting s hs := by rw [orSkip, orSkip, h.alike setting s hs]

/-- **A level is refused alike**: what is counted is what is open and what was refused before. -/
instance guardedWithin_alike (p q : Parser α) [h : Alike (enclosing + 1) p q] :
    Alike enclosing (guarded p) (guardedWithin enclosing q) where
  alike setting s hs := by
    have hrefusals : State.refusals { s with depth := s.depth + 1 } = s.refusals := rfl
    have hinner := h.alike setting { s with depth := s.depth + 1 } (by
      rw [hrefusals]
      show s.depth + 1 = enclosing + 1 + s.refusals
      omega)
    have hlimit : maxNesting < s.depth + 1 ↔ maxNesting ≤ enclosing + s.refusals := by omega
    unfold guarded guardedWithin
    dsimp only
    by_cases hdeep : maxNesting ≤ enclosing + s.refusals
    · rw [if_pos hdeep, if_pos (hlimit.2 hdeep)]
    · rw [if_neg hdeep, if_neg (mt hlimit.1 hdeep)]
      cases hq : q setting { s with depth := s.depth + 1 } <;> simp only [hinner, hq]

end Parser

/-! ### What is nested -/

/-- The parsers for what is nested answer alike. -/
class Nested.Alike (enclosing : Nat) (sub sub' : Nested) : Prop where
  statement : Parser.Alike enclosing sub.statement sub'.statement
  typeDecl : ∀ words start,
    Parser.Alike enclosing (sub.typeDecl words start) (sub'.typeDecl words start)

attribute [instance] Nested.Alike.statement Nested.Alike.typeDecl

section

variable {enclosing : Nat} (sub sub' : Nested) [sub.Counts enclosing] [sub.Alike enclosing sub']

/-! ### Statements -/

instance : Parser.Alike enclosing (blockStatements sub) (blockStatements sub') := by
  unfold blockStatements
  infer_instance

instance block_alike : Parser.Alike enclosing (block sub) (block sub') := by
  unfold block
  infer_instance

instance (start : Position) :
    Parser.Alike enclosing (forStatement sub start) (forStatement sub' start) := by
  unfold forStatement
  infer_instance

instance : Parser.Alike enclosing (caseStatements sub) (caseStatements sub') := by
  unfold caseStatements
  infer_instance

instance : Parser.Alike enclosing (caseBody sub) (caseBody sub') := by
  unfold caseBody
  have : ∀ found : Option Statement, Parser.Alike enclosing
      (match found with
        | some statement => return [statement]
        | none => do
            let _ ← expect ":"
            caseStatements sub : Parser (List Statement))
      (match found with
        | some statement => return [statement]
        | none => do
            let _ ← expect ":"
            caseStatements sub' : Parser (List Statement)) := by
    intro found
    cases found <;> infer_instance
  infer_instance

instance : Parser.Alike enclosing (switchCase sub) (switchCase sub') := by
  unfold switchCase
  infer_instance

instance (start : Position) :
    Parser.Alike enclosing (switchStatement sub start) (switchStatement sub' start) := by
  unfold switchStatement
  infer_instance

instance : Parser.Alike enclosing (catchClause sub) (catchClause sub') := by
  unfold catchClause
  infer_instance

instance : Parser.Alike enclosing (finallyClause sub) (finallyClause sub') := by
  unfold finallyClause
  infer_instance

instance (start : Position) :
    Parser.Alike enclosing (tryStatement sub start) (tryStatement sub' start) := by
  unfold tryStatement
  infer_instance

instance (start : Position) : Parser.Alike enclosing (declarationOrExpression sub start)
    (declarationOrExpression sub' start) := by
  unfold declarationOrExpression
  infer_instance

instance : Parser.Alike enclosing (blockStatement sub) (blockStatement sub') := by
  unfold blockStatement
  infer_instance

instance (start : Position) :
    Parser.Alike enclosing (ifStatement sub start) (ifStatement sub' start) := by
  unfold ifStatement
  infer_instance

instance (start : Position) :
    Parser.Alike enclosing (whileStatement sub start) (whileStatement sub' start) := by
  unfold whileStatement
  infer_instance

instance (start : Position) :
    Parser.Alike enclosing (doStatement sub start) (doStatement sub' start) := by
  unfold doStatement
  infer_instance

instance (start : Position) : Parser.Alike enclosing (synchronizedStatement sub start)
    (synchronizedStatement sub' start) := by
  unfold synchronizedStatement
  infer_instance

instance : Parser.Alike enclosing (statementBody sub) (statementBody sub') := by
  unfold statementBody
  infer_instance

/-! ### Members -/

instance : Parser.Alike enclosing (body sub) (body sub') := by
  unfold body
  infer_instance

instance : Parser.Alike enclosing (methodBody sub) (methodBody sub') := by
  unfold methodBody
  infer_instance

instance (head : MethodHead) :
    Parser.Alike enclosing (methodRest sub head) (methodRest sub' head) := by
  unfold methodRest
  infer_instance

instance (start : Position) :
    Parser.Alike enclosing (initializerMember sub start) (initializerMember sub' start) := by
  unfold initializerMember
  infer_instance

instance (head : MethodHead) :
    Parser.Alike enclosing (compactConstructor sub head) (compactConstructor sub' head) := by
  unfold compactConstructor
  infer_instance

instance (words : List String) (typeParameters : Option String) (start : Position) :
    Parser.Alike enclosing (typedMember sub words typeParameters start)
      (typedMember sub' words typeParameters start) := by
  unfold typedMember
  infer_instance

instance (typeName : String) :
    Parser.Alike enclosing (member sub typeName) (member sub' typeName) := by
  unfold member
  infer_instance

instance (typeName : String) :
    Parser.Alike enclosing (members sub typeName) (members sub' typeName) := by
  unfold members
  infer_instance

/-! ### Types -/

instance (typeName : String) :
    Parser.Alike enclosing (classBody sub typeName) (classBody sub' typeName) := by
  unfold classBody
  infer_instance

instance (name : String) :
    Parser.Alike enclosing (constantBody sub name) (constantBody sub' name) := by
  unfold constantBody
  infer_instance

instance : Parser.Alike enclosing (enumConstant sub) (enumConstant sub') := by
  unfold enumConstant
  infer_instance

instance : Parser.Alike enclosing (enumConstants sub) (enumConstants sub') := by
  unfold enumConstants
  infer_instance

instance (typeName : String) :
    Parser.Alike enclosing (enumBody sub typeName) (enumBody sub' typeName) := by
  unfold enumBody
  infer_instance

instance (kind : TypeDecl.Kind) (typeName : String) :
    Parser.Alike enclosing (typeBody sub kind typeName) (typeBody sub' kind typeName) := by
  unfold typeBody
  infer_instance

instance (words : List String) (start : Position) :
    Parser.Alike enclosing (typeDeclBody sub words start) (typeDeclBody sub' words start) := by
  unfold typeDeclBody
  infer_instance

/-! ### Units -/

instance : Parser.Counts enclosing (topLevelTypesOf sub) := by
  unfold topLevelTypesOf
  infer_instance

instance : Parser.Alike enclosing (topLevelTypesOf sub) (topLevelTypesOf sub') := by
  unfold topLevelTypesOf
  infer_instance

instance compilationUnitOf_alike :
    Parser.Alike enclosing (compilationUnitOf sub) (compilationUnitOf sub') := by
  unfold compilationUnitOf
  infer_instance

end

/-! ### The levels of nesting -/

/-- **The levels answer alike**, those that count and those that know what is open. -/
theorem nestedAt_alike {enclosing level : Nat} (h : maxNesting ≤ enclosing + level) :
    (nestedAt level).Alike enclosing (nestedWithin enclosing level) := by
  induction level generalizing enclosing with
  | zero =>
      refine ⟨guardedWithin_alike tooDeep tooDeep, fun _ _ => ?_⟩
      exact guardedWithin_alike (tooDeep : Parser TypeDecl) tooDeep
  | succ level ih =>
      have : (nestedAt level).Alike (enclosing + 1) (nestedWithin (enclosing + 1) level) :=
        ih (by omega)
      have : (nestedAt level).Counts (enclosing + 1) := by
        have hlevel := nestedAt_counts level
        have hle : maxNesting - level ≤ enclosing + 1 := by omega
        exact ⟨Counts.mono hle, fun _ _ => Counts.mono hle⟩
      refine ⟨guardedWithin_alike (statementBody _) (statementBody _), fun words start => ?_⟩
      exact guardedWithin_alike (typeDeclBody _ words start) (typeDeclBody _ words start)

/-- **What stays counted behind a statement or a type, and what is refused in a unit.**  Wherever a
statement or a type is read, and however that ends, behind it as many more levels are counted as were
refused; so the levels are balanced exactly if none was.  In a unit, and in a body that is read by
itself, a statement or a type is refused exactly if what is open around it and what was refused before
it reach the limit together. -/
theorem levels_kept (setting : Setting) (words : List String) (start : Position) (s : State)
    (tokens : List Token) :
    (outermost.statement setting s).CountsFrom s ∧
      ((outermost.statement setting s).state.depth = s.depth ↔
        (outermost.statement setting s).refusals = s.refusals) ∧
      (outermost.typeDecl words start setting s).CountsFrom s ∧
      ((outermost.typeDecl words start setting s).state.depth = s.depth ↔
        (outermost.typeDecl words start setting s).refusals = s.refusals) ∧
      compilationUnit setting { rest := tokens } =
        compilationUnitOf (nestedWithin 0 maxNesting) setting { rest := tokens } ∧
      block outermost setting { rest := tokens } =
        block (nestedWithin 0 maxNesting) setting { rest := tokens } := by
  have := outermost_counts
  have : outermost.Alike 0 (nestedWithin 0 maxNesting) := nestedAt_alike (by omega)
  have hle := Nat.zero_le s.depth
  refine ⟨Counts.counts setting s hle, Counts.depth_eq_iff hle, Counts.counts setting s hle,
    Counts.depth_eq_iff hle, ?_, ?_⟩
  · have hunit : Alike 0 (compilationUnitOf outermost)
        (compilationUnitOf (nestedWithin 0 maxNesting)) := inferInstance
    rw [← compilationUnitOf_outermost]
    exact hunit.alike setting { rest := tokens } rfl
  · have hblock : Alike 0 (block outermost) (block (nestedWithin 0 maxNesting)) := inferInstance
    exact hblock.alike setting { rest := tokens } rfl

/-- Behind a statement that is refused one more level is counted: the empty statement inside as many
open statements as may be. -/
theorem refused_stays_counted :
    let token : Token := ⟨.operator, ";", ⟨⟨0, 1, 1⟩, ⟨1, 1, 2⟩⟩⟩
    let setting : Setting := { diet := false, finish := ⟨1, 1, 2⟩, total := 1 }
    let answer := outermost.statement setting { rest := [token], depth := maxNesting }
    answer.refusals = 1 ∧ answer.state.depth = maxNesting + 1 := by
  decide +kernel

end JavaOutline
