/-
**Levels of nesting that stay counted.**

A statement or a type is read one level deeper than what is around it, and behind it the level is left
again, whether it was read or not.  A level that is refused is not left: it stays counted.  So whatever
a parser meets, and whether it answers or fails, behind it as many more levels are counted as were
refused on the way.  A refusal is an error that is reported or answered, so they can be counted in the
end.  This is a class of parsers, and a parser that is put together from such parsers belongs to it by
inference.

Main definitions:

* `SyntaxError.isRefusal` — the error of a level that was refused;
* `Parser.State.refusals`, `Parser.Answer.refusals` — how many levels were refused so far;
* `Parser.Counts` — **as many levels stay counted as are refused**.

Main results:

* `Parser.Counts.depth_eq_iff` — the levels are balanced exactly if none is refused;
* `nestedAt_counts` — **statements and types count at every level**.
-/

import JavaOutline.Proofs.Movement

set_option autoImplicit false
set_option synthInstance.maxSize 100000

namespace JavaOutline

open JavaOutline.Parser

/-! ### Refusals -/

/-- The error that a level of nesting was refused. -/
def SyntaxError.isRefusal : SyntaxError → Bool
  | .nestingTooDeep _ => true
  | .unexpectedToken .. | .unexpectedEnd .. | .lexical _ => false

namespace Parser

variable {α β : Type}

/-- How many refusals have been reported. -/
def State.refusals (s : State) : Nat := s.errors.countP SyntaxError.isRefusal

/-- How many refusals there are behind an answer; the error that is answered counts. -/
def Answer.refusals : Answer α → Nat
  | .ok _ next => next.refusals
  | .fail e next => (next.report e).refusals

theorem State.refusals_report (s : State) (e : SyntaxError) :
    (s.report e).refusals = s.refusals + if e.isRefusal then 1 else 0 := by
  simp [refusals, report, Array.countP_push]

/-- An error that is no refusal counts for nothing. -/
theorem State.refusals_report_of_not {s : State} {e : SyntaxError} (h : e.isRefusal = false) :
    (s.report e).refusals = s.refusals := by
  simp [refusals_report, h]

@[simp] theorem State.refusals_advance (s : State) : s.advance.refusals = s.refusals := by
  simp [refusals]

@[simp] theorem State.refusals_skip (n : Nat) (s : State) : (s.skip n).refusals = s.refusals := by
  simp [refusals]

@[simp] theorem State.refusals_recovered (s : State) : s.recovered.refusals = s.refusals :=
  refusals_skip _ s

@[simp] theorem State.recovered_depth (s : State) : s.recovered.depth = s.depth := skip_depth _ s

theorem Setting.unexpected_isRefusal (setting : Setting) (s : State) (expected : String) :
    (setting.unexpected s expected).isRefusal = false := by
  unfold Setting.unexpected
  split <;> rfl

/-! ### The class -/

/-- As many levels are counted behind an answer as were counted before and were refused since. -/
def Answer.CountsFrom (s : State) (answer : Answer α) : Prop :=
  ∃ refused, answer.refusals = s.refusals + refused ∧ answer.state.depth = s.depth + refused

/-- A parser behind which as many more levels stay counted as were refused, wherever at least `least`
levels are counted before it. -/
class Counts (least : Nat) (p : Parser α) : Prop where
  counts : ∀ (setting : Setting) (s : State), least ≤ s.depth → (p setting s).CountsFrom s

variable {least : Nat}

theorem Counts.mono {more : Nat} {p : Parser α} [h : Counts least p] (hle : least ≤ more) :
    Counts more p where
  counts setting s hs := h.counts setting s (Nat.le_trans hle hs)

/-- The levels behind an answer. -/
theorem Counts.of_ok {p : Parser α} [h : Counts least p] {setting : Setting} {s n : State} {a : α}
    (hs : least ≤ s.depth) (hok : p setting s = .ok a n) :
    ∃ refused, n.refusals = s.refusals + refused ∧ n.depth = s.depth + refused := by
  have hcounts := h.counts setting s hs
  rwa [hok] at hcounts

/-- **The levels are balanced exactly if none is refused.** -/
theorem Counts.depth_eq_iff {p : Parser α} [h : Counts least p] {setting : Setting} {s : State}
    (hs : least ≤ s.depth) :
    (p setting s).state.depth = s.depth ↔ (p setting s).refusals = s.refusals := by
  obtain ⟨refused, hrefusals, hdepth⟩ := h.counts setting s hs
  omega

/-- A parser that passes some tokens, and fails only because it expected something else. -/
theorem Counts.of_skip {p : Parser α}
    (h : ∀ setting s, ∃ k, (p setting s).state = s.skip k ∧
      ∀ {e n}, p setting s = .fail e n → e.isRefusal = false) : Counts least p where
  counts setting s _ := by
    obtain ⟨k, hstate, herror⟩ := h setting s
    refine ⟨0, ?_, ?_⟩
    · cases hanswer : p setting s with
      | ok a n =>
          rw [hanswer] at hstate
          obtain rfl : n = s.skip k := hstate
          exact State.refusals_skip k s
      | fail e n =>
          rw [hanswer] at hstate
          obtain rfl : n = s.skip k := hstate
          show ((s.skip k).report e).refusals = s.refusals
          rw [State.refusals_report_of_not (herror hanswer), State.refusals_skip]
    · rw [hstate]
      exact State.skip_depth k s

/-- A parser that stays where it is, and fails only because it expected something else. -/
theorem Counts.of_still {p : Parser α}
    (h : ∀ setting s, (p setting s).state = s ∧
      ∀ {e n}, p setting s = .fail e n → e.isRefusal = false) : Counts least p :=
  .of_skip fun setting s => ⟨0, h setting s⟩

/-! ### One parser after another -/

instance (a : α) : Counts least (Pure.pure a : Parser α) := .of_still fun _ _ => ⟨rfl, nofun⟩

instance counts_bind (p : Parser α) (f : α → Parser β) [hp : Counts least p]
    [hf : ∀ a, Counts least (f a)] : Counts least (p >>= f) where
  counts setting s hs := by
    cases h : p setting s with
    | fail e m =>
        have hcounts := hp.counts setting s hs
        rw [h] at hcounts
        rw [bind_of_fail h]
        exact hcounts
    | ok a m =>
        obtain ⟨first, hrefusals, hdepth⟩ := hp.of_ok hs h
        obtain ⟨second, hrefusals', hdepth'⟩ := (hf a).counts setting m (by omega)
        rw [bind_of_ok h]
        exact ⟨first + second, by omega, by omega⟩

-- What follows may ask whether there is a value, so both answers are tried.
instance (priority := low) (p : Parser (Option α)) (f : Option α → Parser β) [Counts least p]
    [Counts least (f none)] [∀ a, Counts least (f (some a))] : Counts least (p >>= f) := by
  have : ∀ value, Counts least (f value) := by
    intro value
    cases value <;> infer_instance
  infer_instance

instance (c : Prop) [Decidable c] (p q : Parser α) [Counts least p] [Counts least q] :
    Counts least (if c then p else q) := by
  split <;> infer_instance

/-! ### Single tokens -/

instance : Counts least state := .of_still fun _ _ => ⟨rfl, nofun⟩

instance (f : State → α) : Counts least (ask f) := .of_still fun _ _ => ⟨rfl, nofun⟩

instance (text : String) : Counts least (sees text) := .of_still fun _ _ => ⟨rfl, nofun⟩

instance (start : Position) : Counts least (spanFrom start) := .of_still fun _ _ => ⟨rfl, nofun⟩

instance : Counts least here := .of_still fun _ _ => ⟨rfl, nofun⟩

instance : Counts least isDiet := .of_still fun _ _ => ⟨rfl, nofun⟩

instance (expected : String) : Counts least (unexpected expected : Parser α) :=
  .of_still fun setting s => ⟨rfl, fun h => by cases h; exact setting.unexpected_isRefusal s _⟩

instance : Counts least advance := .of_skip fun _ _ => ⟨1, rfl, nofun⟩

instance (n : Nat) : Counts least (skip n) := .of_skip fun _ _ => ⟨n, rfl, nofun⟩

instance (text : String) : Counts least (accept text) := .of_skip fun setting s => by
  unfold accept
  split
  · exact ⟨1, rfl, nofun⟩
  · exact ⟨0, rfl, nofun⟩

instance (text : String) : Counts least (expect text) := .of_skip fun setting s => by
  unfold expect
  split
  · split
    · exact ⟨1, rfl, nofun⟩
    · exact ⟨0, rfl, fun h => by cases h; exact setting.unexpected_isRefusal s _⟩
  · exact ⟨0, rfl, fun h => by cases h; exact setting.unexpected_isRefusal s _⟩

instance : Counts least identifier := .of_skip fun setting s => by
  unfold identifier
  split
  · split
    · exact ⟨1, rfl, nofun⟩
    · exact ⟨0, rfl, fun h => by cases h; exact setting.unexpected_isRefusal s _⟩
  · exact ⟨0, rfl, fun h => by cases h; exact setting.unexpected_isRefusal s _⟩

instance (opener closer : String) : Counts least (bracketed opener closer) :=
  .of_skip fun setting s => by
    unfold bracketed
    dsimp only
    split
    · exact ⟨_ + 1, rfl, nofun⟩
    · exact ⟨_ + 1, rfl, fun h => by cases h; rfl⟩

/-! ### Repetition -/

instance (later : Parser (List α)) [Counts least later] (value : Turn α) :
    Counts least (behindTurn later value) := by
  cases value <;> unfold behindTurn <;> infer_instance

instance collect_counts (turn : Parser (Turn α)) [Counts least turn] (fuel : Nat) :
    Counts least (collect turn fuel) := by
  induction fuel with
  | zero => exact inferInstanceAs (Counts least (Pure.pure [] : Parser (List α)))
  | succ fuel ih => exact inferInstanceAs (Counts least (turn >>= behindTurn (collect turn fuel)))

instance (turn : Parser (Turn α)) [Counts least turn] : Counts least (gather turn) where
  counts setting s hs := by
    rw [gather_eq_collect]
    exact Counts.counts setting s hs

instance repeatLoop_counts (turn : Parser Bool) [Counts least turn] (fuel : Nat) :
    Counts least (repeatLoop turn fuel) := by
  induction fuel with
  | zero => exact inferInstanceAs (Counts least (Pure.pure () : Parser Unit))
  | succ fuel ih =>
      exact inferInstanceAs (Counts least
        (turn >>= fun more => if more then repeatLoop turn fuel else Pure.pure ()))

instance (turn : Parser Bool) [Counts least turn] : Counts least (repeatWhile turn) where
  counts setting s hs :=
    Counts.counts (p := repeatLoop turn (setting.total - s.index + 1)) setting s hs

instance (text : String) (p : Parser α) [Counts least p] : Counts least (whenAccepted text p) := by
  unfold whenAccepted
  infer_instance

instance (item : Parser α) [Counts least item] : Counts least (commaSeparated item) := by
  unfold commaSeparated
  infer_instance

/-! ### Nesting and errors -/

/-- **A level that is opened is left again, and one that is refused stays counted.** -/
instance guarded_counts (p : Parser α) [hp : Counts (least + 1) p] : Counts least (guarded p) where
  counts setting s hs := by
    have hinner := hp.counts setting { s with depth := s.depth + 1 } (Nat.succ_le_succ hs)
    unfold guarded
    dsimp only
    split
    · exact ⟨1, State.refusals_report _ _, rfl⟩
    · obtain ⟨refused, hrefusals, hdepth⟩ := hinner
      have hback : (p setting { s with depth := s.depth + 1 }).state.depth - 1 =
          s.depth + refused := by
        rw [hdepth]
        exact (by omega : s.depth + 1 + refused - 1 = s.depth + refused)
      split
      next a next hanswer =>
        rw [hanswer] at hrefusals hback
        exact ⟨refused, hrefusals, hback⟩
      next e next hanswer =>
        rw [hanswer] at hrefusals hback
        exact ⟨refused, hrefusals, hback⟩

/-- Where no level may be opened, every one is refused. -/
instance tooDeep_counts : Counts maxNesting (guarded (tooDeep : Parser α)) where
  counts setting s hs := by
    have hdeep : maxNesting < s.depth + 1 := Nat.lt_succ_of_le hs
    unfold guarded
    dsimp only
    rw [if_pos hdeep]
    exact ⟨1, State.refusals_report _ _, rfl⟩

instance (expected : String) : Counts least (reportUnexpected expected) where
  counts setting s _ :=
    ⟨0, State.refusals_report_of_not (setting.unexpected_isRefusal s expected), rfl⟩

instance (p : Parser Unit) [hp : Counts least p] : Counts least (orReport p) where
  counts setting s hs := by
    have hcounts := hp.counts setting s hs
    unfold orReport
    split
    next hanswer =>
      rw [hanswer] at hcounts
      exact hcounts
    next hanswer =>
      rw [hanswer] at hcounts
      exact hcounts

/-- Going on behind an error that was reported changes neither what is counted nor what is refused. -/
theorem Answer.CountsFrom.recovered {s next : State} {e : SyntaxError} {b : β}
    (h : (Answer.fail e next : Answer α).CountsFrom s) :
    (Answer.ok b (next.report e).recovered).CountsFrom s := by
  obtain ⟨refused, hrefusals, hdepth⟩ := h
  exact ⟨refused, (State.refusals_recovered _).trans hrefusals,
    (State.recovered_depth _).trans hdepth⟩

instance (p : Parser α) [hp : Counts least p] : Counts least (orRecover p) where
  counts setting s hs := by
    have hcounts := hp.counts setting s hs
    unfold orRecover
    split
    next hanswer =>
      rw [hanswer] at hcounts
      exact hcounts
    next hanswer =>
      rw [hanswer] at hcounts
      exact hcounts.recovered

instance (p : Parser α) [hp : Counts least p] : Counts least (orSkip p) where
  counts setting s hs := by
    have hcounts := hp.counts setting s hs
    unfold orSkip
    split
    next hanswer =>
      rw [hanswer] at hcounts
      exact hcounts
    next e next hanswer =>
      rw [hanswer] at hcounts
      dsimp only
      split
      · obtain ⟨refused, hrefusals, hdepth⟩ := hcounts.recovered (b := (Turn.skip : Turn α))
        exact ⟨refused, (State.refusals_advance _).trans hrefusals,
          (State.advance_depth _).trans hdepth⟩
      · exact hcounts.recovered

instance (p : Parser α) (test : State → Bool) : Counts least (lookingPast p test) :=
  .of_still fun setting s => by
    unfold lookingPast
    split
    · exact ⟨rfl, nofun⟩
    · exact ⟨rfl, nofun⟩

/-- Going back leaves the levels and the refusals as they are. -/
instance (place : State) : Counts least (backTo place) where
  counts _ _ _ := ⟨0, rfl, rfl⟩

end Parser

section

variable {least : Nat}

/-! ### Phrases -/

instance : Counts least qualifiedName := by
  unfold qualifiedName
  infer_instance

instance : Counts least annotations := by
  unfold annotations
  infer_instance

instance : Counts least modifiers := by
  unfold modifiers
  have : ∀ s : State, Counts least (match s.modifier?, s.sealedLength? with
      | some word, _ => do
          advance
          return Turn.take word
      | none, some n => do
          Parser.skip n
          return Turn.skip
      | none, none =>
          if s.seesAnnotation then do
            annotations
            return Turn.skip
          else return Turn.stop : Parser (Turn String)) := by
    intro s
    split <;> infer_instance
  infer_instance

instance : Counts least dimensions := by
  unfold dimensions
  infer_instance

instance : Counts least typeSuffixes := by
  unfold typeSuffixes
  infer_instance

instance : Counts least typeReference := by
  unfold typeReference
  infer_instance

instance : Counts least typeList := by
  unfold typeList
  infer_instance

instance : Counts least typeParameters := by
  unfold typeParameters
  infer_instance

instance (stops : List String) : Counts least (expressionUntil stops) := by
  unfold expressionUntil
  have : ∀ s : State, Counts least (match s.rest.take (expressionLength stops 0 s.rest) with
      | [] => unexpected "expression"
      | first :: rest => do
          Parser.skip (expressionLength stops 0 s.rest)
          return Expression.ofTokens first rest : Parser Expression) := by
    intro s
    split <;> infer_instance
  infer_instance

instance : Counts least parenthesized := by
  unfold parenthesized
  infer_instance

instance : Counts least arguments := by
  unfold arguments
  infer_instance

instance (name : String) (start : Position) : Counts least (declarator name start) := by
  unfold declarator
  infer_instance

instance (firstName : String) : Counts least (declarators firstName) := by
  unfold declarators
  infer_instance

instance : Counts least looksLikeLocalDeclaration := by
  unfold looksLikeLocalDeclaration
  infer_instance

instance (terminator : String) : Counts least (forClause terminator) := by
  unfold forClause
  infer_instance

instance : Counts least caseLabel := by
  unfold caseLabel
  infer_instance

instance : Counts least resource := by
  unfold resource
  infer_instance

instance : Counts least resources := by
  unfold resources
  infer_instance

instance (start : Position) : Counts least (localVariables start) := by
  unfold localVariables
  infer_instance

instance (start : Position) : Counts least (expressionStatement start) := by
  unfold expressionStatement
  infer_instance

instance (start : Position) : Counts least (emptyStatement start) := by
  unfold emptyStatement
  infer_instance

instance : Counts least exitValue := by
  unfold exitValue
  infer_instance

instance (kind : Statement.Kind) (start : Position) : Counts least (exitStatement kind start) := by
  unfold exitStatement
  infer_instance

instance : Counts least jumpLabel := by
  unfold jumpLabel
  infer_instance

instance (kind : Statement.Kind) (start : Position) : Counts least (jumpStatement kind start) := by
  unfold jumpStatement
  infer_instance

instance (start : Position) : Counts least (assertStatement start) := by
  unfold assertStatement
  infer_instance

instance : Counts least parameterName := by
  unfold parameterName
  infer_instance

instance : Counts least parameter := by
  unfold parameter
  infer_instance

instance : Counts least parameters := by
  unfold parameters
  infer_instance

instance : Counts least constantArguments := by
  unfold constantArguments
  infer_instance

instance : Counts least constantsEnd := by
  unfold constantsEnd
  infer_instance

instance : Counts least typeKind := by
  unfold typeKind
  infer_instance

instance (kind : TypeDecl.Kind) : Counts least (supertypeClauses kind) := by
  unfold supertypeClauses
  infer_instance

instance : Counts least permitsClause := by
  unfold permitsClause
  infer_instance

instance : Counts least packageDecl := by
  unfold packageDecl
  infer_instance

instance : Counts least onDemandStar := by
  unfold onDemandStar
  infer_instance

instance : Counts least importDecl := by
  unfold importDecl
  infer_instance

instance : Counts least packageClause := by
  unfold packageClause
  infer_instance

instance : Counts least importClauses := by
  unfold importClauses
  infer_instance

end

/-! ### What is nested -/

/-- The parsers for what is nested one level deeper count. -/
class Nested.Counts (least : Nat) (sub : Nested) : Prop where
  statement : Parser.Counts least sub.statement
  typeDecl : ∀ words start, Parser.Counts least (sub.typeDecl words start)

attribute [instance] Nested.Counts.statement Nested.Counts.typeDecl

section

variable {least : Nat} (sub : Nested) [sub.Counts least]

instance : Parser.Counts least (blockStatements sub) := by
  unfold blockStatements
  infer_instance

instance : Parser.Counts least (block sub) := by
  unfold block
  infer_instance

instance (start : Position) : Parser.Counts least (forStatement sub start) := by
  unfold forStatement
  infer_instance

instance : Parser.Counts least (caseStatements sub) := by
  unfold caseStatements
  infer_instance

instance : Parser.Counts least (caseBody sub) := by
  unfold caseBody
  infer_instance

instance : Parser.Counts least (switchCase sub) := by
  unfold switchCase
  infer_instance

instance (start : Position) : Parser.Counts least (switchStatement sub start) := by
  unfold switchStatement
  infer_instance

instance : Parser.Counts least (catchClause sub) := by
  unfold catchClause
  infer_instance

instance : Parser.Counts least (finallyClause sub) := by
  unfold finallyClause
  infer_instance

instance (start : Position) : Parser.Counts least (tryStatement sub start) := by
  unfold tryStatement
  infer_instance

instance (start : Position) : Parser.Counts least (declarationOrExpression sub start) := by
  unfold declarationOrExpression
  infer_instance

instance : Parser.Counts least (blockStatement sub) := by
  unfold blockStatement
  infer_instance

instance (start : Position) : Parser.Counts least (ifStatement sub start) := by
  unfold ifStatement
  infer_instance

instance (start : Position) : Parser.Counts least (whileStatement sub start) := by
  unfold whileStatement
  infer_instance

instance (start : Position) : Parser.Counts least (doStatement sub start) := by
  unfold doStatement
  infer_instance

instance (start : Position) : Parser.Counts least (synchronizedStatement sub start) := by
  unfold synchronizedStatement
  infer_instance

instance : Parser.Counts least (statementBody sub) := by
  unfold statementBody
  infer_instance

instance : Parser.Counts least (body sub) := by
  unfold body
  infer_instance

instance : Parser.Counts least (methodBody sub) := by
  unfold methodBody
  infer_instance

instance (head : MethodHead) : Parser.Counts least (methodRest sub head) := by
  unfold methodRest
  infer_instance

instance (start : Position) : Parser.Counts least (initializerMember sub start) := by
  unfold initializerMember
  infer_instance

instance (head : MethodHead) : Parser.Counts least (compactConstructor sub head) := by
  unfold compactConstructor
  infer_instance

instance (words : List String) (typeParameters : Option String) (start : Position) :
    Parser.Counts least (typedMember sub words typeParameters start) := by
  unfold typedMember
  infer_instance

instance (typeName : String) : Parser.Counts least (member sub typeName) := by
  unfold member
  infer_instance

instance (typeName : String) : Parser.Counts least (members sub typeName) := by
  unfold members
  infer_instance

instance (typeName : String) : Parser.Counts least (classBody sub typeName) := by
  unfold classBody
  infer_instance

instance (name : String) : Parser.Counts least (constantBody sub name) := by
  unfold constantBody
  infer_instance

instance : Parser.Counts least (enumConstant sub) := by
  unfold enumConstant
  infer_instance

instance : Parser.Counts least (enumConstants sub) := by
  unfold enumConstants
  infer_instance

instance (typeName : String) : Parser.Counts least (enumBody sub typeName) := by
  unfold enumBody
  infer_instance

instance (kind : TypeDecl.Kind) (typeName : String) :
    Parser.Counts least (typeBody sub kind typeName) := by
  unfold typeBody
  infer_instance

instance (words : List String) (start : Position) :
    Parser.Counts least (typeDeclBody sub words start) := by
  unfold typeDeclBody
  infer_instance

end

/-! ### The levels of nesting -/

/-- **Statements and types count at every level**, wherever no more levels may be opened than are left. -/
theorem nestedAt_counts (level : Nat) : (nestedAt level).Counts (maxNesting - level) := by
  induction level with
  | zero =>
      unfold nestedAt
      exact ⟨tooDeep_counts, fun _ _ => tooDeep_counts⟩
  | succ level ih =>
      have hle : maxNesting - level ≤ maxNesting - (level + 1) + 1 := by omega
      unfold nestedAt
      refine ⟨?_, fun words start => ?_⟩
      · have : Counts (maxNesting - (level + 1) + 1) (statementBody (nestedAt level)) :=
          Counts.mono hle
        exact guarded_counts _
      · have : Counts (maxNesting - (level + 1) + 1) (typeDeclBody (nestedAt level) words start) :=
          Counts.mono hle
        exact guarded_counts _

instance outermost_counts : outermost.Counts 0 := nestedAt_counts maxNesting

end JavaOutline
