/-
**Expressions are captured without loss.**

An expression of an outline keeps the text of its tokens, with one blank where the source has a gap.
Whatever the source, if its scan finds no errors then scanning the text of one of its expressions by
itself gives the tokens that the source has there, and the sort of the expression can be read off
them again.

Main definitions:

* `Nested.Captures` — the parsers one level deeper cut out what they answer;
* `Span.covers` — a token lies inside a span;
* `Expression.StandsFor` — the text of an expression gives its tokens and its sort again.

Main results:

* the instances — the parsers of statements, members, types and units capture;
* `compilationUnit_captures` — every expression of a unit was cut out of its tokens;
* `filter_covers_ofTokens` — an expression was cut out of the tokens inside its span;
* `expressions_relex` — **the text of an expression stands for its tokens**.
-/

import JavaOutline.Proofs.Capturing

set_option autoImplicit false
-- The parsers of statements have many parts, and their instances as many.
set_option synthInstance.maxSize 100000

namespace JavaOutline

open JavaOutline.Parser

/-- The parsers for what is nested one level deeper cut out what they answer. -/
class Nested.Captures (tokens : List Token) (sub : Nested) : Prop where
  statement : Parser.Captures tokens sub.statement
  typeDecl : ∀ modifiers start, Parser.Captures tokens (sub.typeDecl modifiers start)

attribute [instance] Nested.Captures.statement Nested.Captures.typeDecl

section

variable {tokens : List Token} (sub : Nested) [sub.Captures tokens]

/-! ### Statements -/

instance : Parser.Captures tokens (blockStatements sub) := by
  unfold blockStatements
  infer_instance

instance : Parser.Captures tokens (block sub) := by
  unfold block
  infer_instance

instance (terminator : String) [StopWord terminator] :
    Parser.Captures tokens (forClause terminator) := by
  unfold forClause
  infer_instance

instance (start : Position) : Parser.Captures tokens (forStatement sub start) := by
  unfold forStatement
  infer_instance

instance : Parser.Captures tokens caseLabel := by
  unfold caseLabel
  infer_instance

instance : Parser.Captures tokens (caseStatements sub) := by
  unfold caseStatements
  infer_instance

instance : Parser.Captures tokens (caseBody sub) := by
  unfold caseBody
  have : ∀ found : Held tokens (Option Statement), Parser.Captures tokens (match found.val with
      | some statement => return [statement]
      | none => do
          let _ ← expect ":"
          caseStatements sub : Parser (List Statement)) := by
    rintro ⟨found, hfound⟩
    cases found with
    | none => exact inferInstanceAs (Parser.Captures tokens (expect ":" >>= fun _ =>
        caseStatements sub))
    | some statement =>
        have : CutFrom tokens statement := ⟨hfound statement rfl⟩
        exact inferInstanceAs
          (Parser.Captures tokens (Pure.pure [statement] : Parser (List Statement)))
  infer_instance

instance : Parser.Captures tokens (switchCase sub) := by
  unfold switchCase
  infer_instance

instance (start : Position) : Parser.Captures tokens (switchStatement sub start) := by
  unfold switchStatement
  infer_instance

instance : Parser.Captures tokens resource := by
  unfold resource
  infer_instance

instance : Parser.Captures tokens resources := by
  unfold resources
  infer_instance

instance : Parser.Captures tokens (catchClause sub) := by
  unfold catchClause
  infer_instance

instance : Parser.Captures tokens (finallyClause sub) := by
  unfold finallyClause
  infer_instance

instance (start : Position) : Parser.Captures tokens (tryStatement sub start) := by
  unfold tryStatement
  infer_instance

instance (start : Position) : Parser.Captures tokens (localVariables start) := by
  unfold localVariables
  infer_instance

instance (start : Position) : Parser.Captures tokens (expressionStatement start) := by
  unfold expressionStatement
  infer_instance

instance (start : Position) : Parser.Captures tokens (declarationOrExpression sub start) := by
  unfold declarationOrExpression
  infer_instance

instance : Parser.Captures tokens (blockStatement sub) := by
  unfold blockStatement
  infer_instance

instance (start : Position) : Parser.Captures tokens (emptyStatement start) := by
  unfold emptyStatement
  infer_instance

instance (start : Position) : Parser.Captures tokens (ifStatement sub start) := by
  unfold ifStatement
  infer_instance

instance (start : Position) : Parser.Captures tokens (whileStatement sub start) := by
  unfold whileStatement
  infer_instance

instance (start : Position) : Parser.Captures tokens (doStatement sub start) := by
  unfold doStatement
  infer_instance

instance (start : Position) : Parser.Captures tokens (synchronizedStatement sub start) := by
  unfold synchronizedStatement
  infer_instance

instance : Parser.Captures tokens exitValue := by
  unfold exitValue
  infer_instance

instance (kind : Statement.Kind) (start : Position) :
    Parser.Captures tokens (exitStatement kind start) := by
  unfold exitStatement
  infer_instance

instance : Parser.Captures tokens jumpLabel := by
  unfold jumpLabel
  infer_instance

instance (kind : Statement.Kind) (start : Position) :
    Parser.Captures tokens (jumpStatement kind start) := by
  unfold jumpStatement
  infer_instance

instance (start : Position) : Parser.Captures tokens (assertStatement start) := by
  unfold assertStatement
  infer_instance

instance : Parser.Captures tokens (statementBody sub) := by
  unfold statementBody
  infer_instance

/-! ### Members -/

instance : Parser.Captures tokens parameterName := by
  unfold parameterName
  infer_instance

instance : Parser.Captures tokens parameter := by
  unfold parameter
  infer_instance

instance : Parser.Captures tokens parameters := by
  unfold parameters
  infer_instance

instance : Parser.Captures tokens (body sub) := by
  unfold body
  infer_instance

instance : Parser.Captures tokens (methodBody sub) := by
  unfold methodBody
  infer_instance

instance (head : MethodHead) : Parser.Captures tokens (methodRest sub head) := by
  unfold methodRest
  infer_instance

instance (start : Position) : Parser.Captures tokens (initializerMember sub start) := by
  unfold initializerMember
  infer_instance

instance (head : MethodHead) : Parser.Captures tokens (compactConstructor sub head) := by
  unfold compactConstructor
  infer_instance

instance (words : List String) (typeParameters : Option String) (start : Position) :
    Parser.Captures tokens (typedMember sub words typeParameters start) := by
  unfold typedMember
  infer_instance

instance (typeName : String) : Parser.Captures tokens (member sub typeName) := by
  unfold member
  infer_instance

instance (typeName : String) : Parser.Captures tokens (members sub typeName) := by
  unfold members
  infer_instance

/-! ### Types -/

instance (typeName : String) : Parser.Captures tokens (classBody sub typeName) := by
  unfold classBody
  infer_instance

instance (name : String) : Parser.Captures tokens (constantBody sub name) := by
  unfold constantBody
  infer_instance

instance : Parser.Captures tokens constantArguments := by
  unfold constantArguments
  infer_instance

instance : Parser.Captures tokens (enumConstant sub) := by
  unfold enumConstant
  infer_instance

instance : Parser.Captures tokens constantsEnd := by
  unfold constantsEnd
  infer_instance

instance : Parser.Captures tokens (enumConstants sub) := by
  unfold enumConstants
  infer_instance

instance (typeName : String) : Parser.Captures tokens (enumBody sub typeName) := by
  unfold enumBody
  infer_instance

instance (kind : TypeDecl.Kind) (typeName : String) :
    Parser.Captures tokens (typeBody sub kind typeName) := by
  unfold typeBody
  infer_instance

instance : Parser.Captures tokens typeKind := by
  unfold typeKind
  infer_instance

instance (kind : TypeDecl.Kind) : Parser.Captures tokens (supertypeClauses kind) := by
  unfold supertypeClauses
  infer_instance

instance : Parser.Captures tokens permitsClause := by
  unfold permitsClause
  infer_instance

instance (words : List String) (start : Position) :
    Parser.Captures tokens (typeDeclBody sub words start) := by
  unfold typeDeclBody
  infer_instance

end

section

variable {tokens : List Token}

/-! ### The levels of nesting -/

/-- **Statements and types capture at every level.** -/
instance nestedAt_captures (level : Nat) : (nestedAt level).Captures tokens := by
  induction level with
  | zero =>
      unfold nestedAt
      exact ⟨inferInstance, fun _ _ => inferInstance⟩
  | succ level ih =>
      unfold nestedAt
      exact ⟨inferInstance, fun _ _ => inferInstance⟩

/-! ### Units -/

instance : Parser.Captures tokens packageDecl := by
  unfold packageDecl
  infer_instance

instance : Parser.Captures tokens onDemandStar := by
  unfold onDemandStar
  infer_instance

instance : Parser.Captures tokens importDecl := by
  unfold importDecl
  infer_instance

instance : Parser.Captures tokens packageClause := by
  unfold packageClause
  infer_instance

instance : Parser.Captures tokens importClauses := by
  unfold importClauses
  have : ∀ found : Option ImportDecl, Parser.Captures tokens (match found with
      | some decl => return Turn.take decl
      | none => return Turn.skip : Parser (Turn ImportDecl)) := by
    intro found
    cases found <;> infer_instance
  infer_instance

instance : Parser.Captures tokens topLevelType := by
  unfold topLevelType outermost
  infer_instance

instance : Parser.Captures tokens topLevelTypes := by
  unfold topLevelTypes
  infer_instance

/-- **Every expression of a unit was cut out of its tokens.** -/
instance compilationUnit_captures (tokens : List Token) :
    Parser.Captures tokens compilationUnit := by
  unfold compilationUnit
  infer_instance

end

/-! ### The tokens inside a span -/

/-- Whether a token lies inside a span. -/
def Span.covers (s : Span) (t : Token) : Bool :=
  s.start.offset ≤ t.span.start.offset && t.span.stop.offset ≤ s.stop.offset

theorem Span.covers_iff {s : Span} {t : Token} : s.covers t = true ↔
    s.start.offset ≤ t.span.start.offset ∧ t.span.stop.offset ≤ s.stop.offset := by
  simp [covers]

/-- **The tokens inside the span of an expression are those that it was cut out of.** -/
theorem filter_covers_ofTokens {front rest after : List Token} {first : Token}
    (h : Token.Ordered (front ++ (first :: rest ++ after))) :
    (front ++ (first :: rest ++ after)).filter (Expression.ofTokens first rest).span.covers =
      first :: rest := by
  have hinner : Token.Ordered (first :: rest ++ after) :=
    ⟨fun t ht => h.nonempty t (List.mem_append_right _ ht), (List.pairwise_append.1 h.apart).2.1⟩
  have hlast : (first :: rest).getLast? = some (rest.getLastD first) := by
    rw [List.getLast?_cons, List.getLastD_eq_getLast?]
  have hfront : front.filter (Expression.ofTokens first rest).span.covers = [] := by
    rw [List.filter_eq_nil_iff]
    intro t ht
    have hlt := h.nonempty t (List.mem_append_left _ ht)
    have hle := h.stop_le_start t ht first (by simp)
    simp only [Span.covers_iff, Expression.ofTokens]
    omega
  have hown : (first :: rest).filter (Expression.ofTokens first rest).span.covers =
      first :: rest := by
    rw [List.filter_eq_self]
    intro t ht
    have hstart : first.span.start.offset ≤ t.span.start.offset := by
      rcases List.mem_cons.1 ht with rfl | hlater
      · exact Nat.le_refl _
      · have hlt := hinner.nonempty first (by simp)
        have hle := List.rel_of_pairwise_cons hinner.apart (List.mem_append_left after hlater)
        omega
    have hstop := hinner.stop_le_last hlast ht
    exact Span.covers_iff.2 ⟨hstart, hstop⟩
  have hafter : after.filter (Expression.ofTokens first rest).span.covers = [] := by
    rw [List.filter_eq_nil_iff]
    intro t ht
    have hlt := hinner.nonempty t (List.mem_append_right _ ht)
    have hle := hinner.stop_le_start _ (List.mem_of_getLast? hlast) t ht
    simp only [Span.covers_iff, Expression.ofTokens]
    omega
  rw [List.filter_append, List.filter_append, hfront, hown, hafter, List.nil_append,
    List.append_nil]

/-! ### Expressions that are read again -/

/-- The text of an expression stands for the tokens of a source inside its span: scanned by itself it
has no errors, gives tokens of the same sorts and texts, and the sort of the expression is theirs. -/
structure Expression.StandsFor (e : Expression) (tokens : List Token) : Prop where
  errors : (Scan.ofText e.text).errors = []
  tokens : (Scan.ofText e.text).tokens.map Token.bare =
    (tokens.filter e.span.covers).map Token.bare
  kind : ∃ first rest, (Scan.ofText e.text).tokens = first :: rest ∧
    Expression.Kind.ofTokens first rest = e.kind

/-- The text of tokens is what is written for them behind an offset that the first one touches. -/
theorem Token.join_eq_joinFrom (t : Token) (tokens : List Token) :
    Token.join (t :: tokens) = Token.joinFrom t.span.start.offset (t :: tokens) := by
  rw [Token.join, Token.joinFrom, if_neg (Nat.lt_irrefl _), String.empty_append]

/-- Tokens stand in a text that begins with the first of them. -/
theorem Lexed.anchored {offset : Nat} {text : List Char} {t : Token} {tokens : List Token}
    (h : Lexed offset text (t :: tokens)) :
    ∃ text, Lexed t.span.start.offset text (t :: tokens) := by
  cases h with
  | @cons _ _ part text c _ _ _ _ hlexeme hwhole hkind htext _ later =>
      exact ⟨[] ++ c :: (part ++ text), .cons (by simp) hlexeme hwhole hkind htext rfl later⟩

/-- **What was cut out of the tokens of a scan without errors stands for its tokens.** -/
theorem Captured.standsFor {source : String} (h : (Scan.ofText source).errors = [])
    {e : Expression} (he : Captured (Scan.ofText source).tokens e) :
    e.StandsFor (Scan.ofText source).tokens := by
  obtain ⟨front, first, rest, after, htokens, hafter, rfl⟩ := he
  have hlexed := lexed_ofChars Position.start source.toList h
  change Lexed _ _ (Scan.ofText source).tokens at hlexed
  have hordered : Token.Ordered (Scan.ofText source).tokens :=
    Scan.ordered_ofChars Position.start source.toList
  rw [htokens] at hlexed hordered ⊢
  obtain ⟨_, _, hbehind⟩ := hlexed.drop front
  obtain ⟨text, hanchored⟩ := hbehind.anchored
  change Lexed _ text (first :: rest ++ after) at hanchored
  obtain ⟨herrors, hretold⟩ :=
    relex_joinFrom hanchored (.inl hafter) Position.start (.inl ⟨rfl, rfl⟩)
  rw [← Token.join_eq_joinFrom] at herrors hretold
  refine ⟨herrors, ?_, ?_⟩
  · rw [filter_covers_ofTokens hordered]
    exact hretold.map_bare.symm
  · change ∃ first' rest', (Scan.ofChars Position.start (Token.join (first :: rest)).toList).tokens =
      first' :: rest' ∧ _
    generalize (Scan.ofChars Position.start (Token.join (first :: rest)).toList).tokens = again at *
    cases hretold with
    | cons hbare htouches later =>
        exact ⟨_, _, rfl, (Expression.Kind.ofTokens_retold (.cons hbare htouches later)).symm⟩

/-- **The text of an expression stands for its tokens**: in the outline of a source with no lexical
errors, every expression can be read again from its text alone. -/
theorem expressions_relex (source : String) (diet : Bool)
    (h : (Scan.ofText source).errors = []) :
    ∀ e ∈ (Outline.parse source diet).outline.expressions,
      e.StandsFor (Scan.ofText source).tokens := by
  intro e he
  have hkept := (compilationUnit_captures (Scan.ofText source).tokens).keeps
    ((Scan.ofText source).setting diet) { rest := (Scan.ofText source).tokens } List.suffix_rfl
  simp only [Outline.parse] at he
  cases hanswer : compilationUnit ((Scan.ofText source).setting diet)
      { rest := (Scan.ofText source).tokens } with
  | ok outline s =>
      rw [hanswer] at hkept he
      exact Captured.standsFor h (hkept.2 e he)
  | fail error s =>
      rw [hanswer] at he
      cases he

/-- Blanks and comments, a shift, a cast and a string between them: what is kept of the source is read
again. -/
theorem expressions_relex_shift :
    let source := "class A \x7b int x = (int) a /* b */ >> 1., y = f( \"c\" );\x7d"
    (Outline.parse source false).outline.expressions.map Expression.text =
        ["(int) a >> 1.", "f( \"c\" )"] ∧
      ∀ e ∈ (Outline.parse source false).outline.expressions,
        e.StandsFor (Scan.ofText source).tokens :=
  ⟨by decide +kernel, expressions_relex _ false (by decide +kernel)⟩

end JavaOutline
