/-
**The grammar mirrors.**

Statements, members, types and whole units are read by position as the parsers read them, if what is
nested in them is.  At every level of nesting that is so, because the parsers refuse a level before the
calls that may be open run out.

Main definitions:

* `MirrorsNested` — readings for what is nested mirror the parsers for it.

Main results:

* `statementBody_mirrors`, `typeDeclBody_mirrors` — statements and types;
* `nestedAt_mirrors` — **at every level of nesting**;
* `outerBlock_mirrors`, `compilationUnit_mirrors` — bodies and whole units.
-/

import JavaOutline.Proofs.MirroredPhrases

set_option autoImplicit false
set_option synthInstance.maxSize 100000

namespace JavaOutline

open JavaOutline.Parser

/-- The readings for what is nested mirror the parsers for it. -/
structure MirrorsNested (c : Walk.Course) (low : Nat) (walk : Walk.Nested) (sub : Nested) : Prop where
  statement : Mirrors c low walk.statement sub.statement
  typeDecl : ∀ modifiers start,
    Mirrors c low (walk.typeDecl modifiers start) (sub.typeDecl modifiers start)

section

variable {c : Walk.Course} {s : State} {low : Nat} {walk : Walk.Nested} {sub : Nested}

/-- Where the text has not ended, a token is ahead. -/
theorem Parser.State.rest_ne_nil_of_isEmpty (h : ¬ s.rest.isEmpty = true) : s.rest ≠ [] :=
  mt List.isEmpty_iff.2 h

/-! ### What nests nothing -/

theorem forClause_mirrors (terminator : String) :
    Mirrors c low (Walk.forClause terminator) (forClause terminator) := by
  refine .bind (sees_mirrors _) fun _ => .ite (.pure _) ?_
  refine .bind modifiers_mirrors fun _ => .bind looksLikeLocalDeclaration_mirrors fun _ => ?_
  refine .ite (.bind typeReference_mirrors fun _ => ?_) ?_
  all_goals exact .bind (expressionUntil_mirrors _) fun _ => .pure _

theorem caseLabel_mirrors : Mirrors c low Walk.caseLabel caseLabel := by
  refine .bind (accept_mirrors _) fun _ => .ite ?_ ?_
  · exact .bind (.commaSeparated (expressionUntil_mirrors _)) fun _ => .pure _
  · exact .bind (accept_mirrors _) fun _ => .ite (.pure _) (unexpected_mirrors _)

theorem resource_mirrors : Mirrors c low Walk.resource resource := by
  refine .bind modifiers_mirrors fun _ => .bind looksLikeLocalDeclaration_mirrors fun _ => ?_
  refine .ite (.bind typeReference_mirrors fun _ => ?_) ?_
  all_goals exact expressionUntil_mirrors _

theorem resources_mirrors : Mirrors c low Walk.resources resources := by
  refine .bind (accept_mirrors _) fun _ => .ite (.bind (.gather ?_ ?_) fun _ => ?_) (.pure _)
  · refine .bind (sees_mirrors _) fun _ => .ite (.pure _) (.bind resource_mirrors fun _ => ?_)
    exact .bind (accept_mirrors _) fun _ => .ite (.pure _) (.pure _)
  · exact .pass fun _ => .ite (.other id) (.of_advances _)
  · exact .bind (expect_mirrors _) fun _ => .pure _

theorem localVariables_mirrors (start : Position) :
    Mirrors c low (Walk.localVariables start) (localVariables start) := by
  refine .bind typeReference_mirrors fun _ s hs hd => ?_
  refine (identifier_mirrors s hs hd).go fun first n hn hok => ?_
  -- The name that was read is behind.
  have hpos : 0 < n.index := Nat.zero_lt_of_lt (Advances.forward hok)
  refine (declarators_mirrorsAt first (hs.goes hn) hpos).go fun found m hm _ => ?_
  refine (?_ : Mirrors c 0 _ _) m (hs.goes (hn.trans hm)) (Nat.zero_le _)
  exact .bind (expect_mirrors _) fun _ => .bind (spanFrom_mirrors _) fun _ => .pure _

theorem expressionStatement_mirrors (start : Position) :
    Mirrors c low (Walk.expressionStatement start) (expressionStatement start) :=
  .bind (expressionUntil_mirrors _) fun _ => .bind (expect_mirrors _) fun _ =>
    .bind (spanFrom_mirrors _) fun _ => .pure _

theorem emptyStatement_mirrors (start : Position) :
    Mirrors c low (Walk.emptyStatement start) (emptyStatement start) :=
  .bind advance_mirrors fun _ => .bind (spanFrom_mirrors _) fun _ => .pure _

theorem exitValue_mirrors : Mirrors c low Walk.exitValue exitValue :=
  .bind (sees_mirrors _) fun _ => .ite (.pure _) (.bind (expressionUntil_mirrors _) fun _ => .pure _)

theorem exitStatement_mirrors (kind : Statement.Kind) (start : Position) :
    Mirrors c low (Walk.exitStatement kind start) (exitStatement kind start) :=
  .bind advance_mirrors fun _ => .bind exitValue_mirrors fun _ => .bind (expect_mirrors _) fun _ =>
    .bind (spanFrom_mirrors _) fun _ => .pure _

theorem jumpLabel_mirrors : Mirrors c low Walk.jumpLabel jumpLabel :=
  .window fun s hs hd => .ite (by simp)
    (fun _ => (identifier_mirrors.bind fun _ => .pure _) s hs hd) fun _ => .pure _

theorem jumpStatement_mirrors (kind : Statement.Kind) (start : Position) :
    Mirrors c low (Walk.jumpStatement kind start) (jumpStatement kind start) :=
  .bind advance_mirrors fun _ => .bind jumpLabel_mirrors fun _ => .bind (expect_mirrors _) fun _ =>
    .bind (spanFrom_mirrors _) fun _ => .pure _

theorem assertStatement_mirrors (start : Position) :
    Mirrors c low (Walk.assertStatement start) (assertStatement start) :=
  .bind advance_mirrors fun _ => .bind (expressionUntil_mirrors _) fun _ =>
    .bind (.whenAccepted _ (expressionUntil_mirrors _)) fun _ => .bind (expect_mirrors _) fun _ =>
      .bind (spanFrom_mirrors _) fun _ => .pure _

theorem parameterName_mirrors : Mirrors c low Walk.parameterName parameterName :=
  .bind (accept_mirrors _) fun _ => .ite (.pure _)
    (.bind identifier_mirrors fun _ => .bind dimensions_mirrors fun _ => .pure _)

theorem parameter_mirrors : Mirrors c low Walk.parameter parameter :=
  .bind here_mirrors fun _ => .bind modifiers_mirrors fun _ => .bind typeReference_mirrors fun _ =>
    .bind (accept_mirrors _) fun _ => .bind parameterName_mirrors fun _ =>
      .bind (spanFrom_mirrors _) fun _ => .pure _

theorem parameters_mirrors : Mirrors c low Walk.parameters parameters := by
  refine .bind (expect_mirrors _) fun _ => .bind (accept_mirrors _) fun _ => .ite (.pure _) ?_
  exact .bind (.commaSeparated parameter_mirrors) fun _ => .bind (expect_mirrors _) fun _ => .pure _

theorem constantArguments_mirrors : Mirrors c low Walk.constantArguments constantArguments :=
  .bind (sees_mirrors _) fun _ => .ite arguments_mirrors (.pure _)

theorem constantsEnd_mirrors : Mirrors c low Walk.constantsEnd constantsEnd :=
  .bind (accept_mirrors _) fun _ => .ite (.pure _) (sees_mirrors _)

theorem typeKind_mirrors : Mirrors c low Walk.typeKind typeKind := by
  refine .window fun s hs hd => ?_
  simp only [State.window_sees, State.window_seesPair, State.window_seesName]
  refine (?_ : Mirrors c low _ _) s hs hd
  have hword (kind : TypeDecl.Kind) : Mirrors c low (do Walk.advance; return kind)
      (do Parser.advance; return kind) := .bind advance_mirrors fun _ => .pure _
  exact .ite (hword _) <| .ite (hword _) <| .ite (hword _) <|
    .ite (.bind (skip_mirrors 2) fun _ => .pure _) <| .ite (hword _) (unexpected_mirrors _)

theorem supertypeClauses_mirrors (kind : TypeDecl.Kind) :
    Mirrors c low (Walk.supertypeClauses kind) (supertypeClauses kind) := by
  refine .ite (.bind (.whenAccepted _ typeList_mirrors) fun _ => ?_)
    (.bind (.whenAccepted _ typeReference_mirrors) fun _ => ?_)
  all_goals exact .bind (.whenAccepted _ typeList_mirrors) fun _ => .pure _

theorem permitsClause_mirrors : Mirrors c low Walk.permitsClause permitsClause :=
  .window fun s hs hd => .ite (by simp)
    (fun _ => (advance_mirrors.bind fun _ => typeList_mirrors.bind fun _ => .pure _) s hs hd)
    fun _ => .pure _

/-! ### Statements in which others are nested -/

theorem blockTurn_productive [sub.Advances] : Productive Turn.goesOn (do
    let s ← state
    if s.sees "\x7d" then return Turn.stop
    else if s.rest.isEmpty then
      reportUnexpected "'\x7d'"
      return Turn.stop
    else orSkip sub.statement) :=
  .state fun s => .ite (fun _ => .other id) fun _ =>
    .ite (fun _ => Productive.pass (fun _ => .other id) s) fun hrest =>
      .orSkip (State.rest_ne_nil_of_isEmpty hrest)

section

variable [sub.Advances] (hsub : MirrorsNested c low walk sub)

include hsub

theorem blockStatements_mirrors :
    Mirrors c low (Walk.blockStatements walk) (blockStatements sub) := by
  refine .gather (.window fun s hs hd => ?_) blockTurn_productive
  refine .ite (by simp) (fun _ => .pure _) fun _ => .ite (by simp) (fun _ => ?_) fun _ => ?_
  · exact ((reportUnexpected_mirrors _).bind fun _ => .pure _) s hs hd
  · exact hsub.statement.orSkip s hs hd

theorem block_mirrors : Mirrors c low (Walk.block walk) (block sub) :=
  .bind (expect_mirrors _) fun _ => .bind (blockStatements_mirrors hsub) fun _ =>
    .bind (accept_mirrors _) fun _ => .bind (spanFrom_mirrors _) fun _ => .pure _

/-- The header of a loop is scanned ahead, and the position is set back to where the scan began. -/
theorem forStatement_mirrors (start : Position) :
    Mirrors c low (Walk.forStatement walk start) (forStatement sub start) := by
  refine .bind (expect_mirrors _) fun _ => .bind (expect_mirrors _) fun _ s hs hd => ?_
  refine .position (.state ?_)
  rw [MirrorsAt, Walk.bind_done (isForEach_mark hs)]
  refine MirrorsAt.ite Iff.rfl (fun _ => ?_) fun _ => ?_
  · refine (?_ : Mirrors c low _ _) s hs hd
    exact .bind modifiers_mirrors fun _ => .bind typeReference_mirrors fun _ =>
      .bind identifier_mirrors fun _ => .bind (expect_mirrors _) fun _ =>
        .bind (expressionUntil_mirrors _) fun _ => .bind (expect_mirrors _) fun _ =>
          .bind hsub.statement fun _ => .bind (spanFrom_mirrors _) fun _ => .pure _
  · rw [MirrorsAt, Walk.bind_done (moveTo_mark hs _)]
    refine (?_ : Mirrors c low _ _) s hs hd
    exact .bind (forClause_mirrors _) fun _ => .bind (expect_mirrors _) fun _ =>
      .bind (forClause_mirrors _) fun _ => .bind (expect_mirrors _) fun _ =>
        .bind (forClause_mirrors _) fun _ => .bind (expect_mirrors _) fun _ =>
          .bind hsub.statement fun _ => .bind (spanFrom_mirrors _) fun _ => .pure _

theorem caseStatements_mirrors :
    Mirrors c low (Walk.caseStatements walk) (caseStatements sub) := by
  refine .gather (.window fun s hs hd => ?_) (.state fun s => ?_)
  · exact .ite (by simp) (fun _ => .pure _) fun _ => .ite (by simp)
      (fun _ => unexpected_mirrors _ s hs hd) fun _ => hsub.statement.orSkip s hs hd
  · exact .ite (fun _ => .other id) fun _ => .ite (fun _ => .of_advances _)
      fun hrest => .orSkip (State.rest_ne_nil_of_isEmpty hrest)

theorem caseBody_mirrors : Mirrors c low (Walk.caseBody walk) (caseBody sub) := by
  refine .bind (.whenAccepted _ hsub.statement) fun statement => ?_
  cases statement with
  | some statement => exact .pure _
  | none => exact .bind (expect_mirrors _) fun _ => caseStatements_mirrors hsub

theorem switchCase_mirrors : Mirrors c low (Walk.switchCase walk) (switchCase sub) :=
  .bind here_mirrors fun _ => .bind caseLabel_mirrors fun _ =>
    .bind (caseBody_mirrors hsub) fun _ => .bind (spanFrom_mirrors _) fun _ => .pure _

theorem switchStatement_mirrors (start : Position) :
    Mirrors c low (Walk.switchStatement walk start) (switchStatement sub start) := by
  refine .bind (expect_mirrors _) fun _ => .bind parenthesized_mirrors fun _ =>
    .bind (expect_mirrors _) fun _ => .bind (.gather (.window fun s hs hd => ?_) ?_) fun _ =>
      .bind (expect_mirrors _) fun _ => .bind (spanFrom_mirrors _) fun _ => .pure _
  · exact .ite (by simp) (fun _ => .pure _) fun _ => .ite (by simp)
      (fun _ => unexpected_mirrors _ s hs hd)
      fun _ => ((switchCase_mirrors hsub).bind fun _ => .pure _) s hs hd
  · exact .pass fun _ => .ite (.other id) (.ite (.of_advances _) (.of_advances _))

theorem catchClause_mirrors : Mirrors c low (Walk.catchClause walk) (catchClause sub) := by
  refine .bind here_mirrors fun _ => .bind advance_mirrors fun _ => .bind (expect_mirrors _) fun _ =>
    .bind modifiers_mirrors fun _ => .bind typeReference_mirrors fun _ =>
      .bind (.repeatWhile ?_ ?_) fun _ => .bind identifier_mirrors fun _ =>
        .bind (expect_mirrors _) fun _ => .bind (block_mirrors hsub) fun _ =>
          .bind (spanFrom_mirrors _) fun _ => .pure _
  · exact .bind (.whenAccepted _ typeReference_mirrors) fun _ => .pure _
  · exact .whenAccepted (fun _ => inferInstance) (.other Bool.false_ne_true)

theorem finallyClause_mirrors : Mirrors c low (Walk.finallyClause walk) (finallyClause sub) :=
  .bind here_mirrors fun _ => .bind (accept_mirrors _) fun _ => .ite
    (.bind (block_mirrors hsub) fun _ => .bind (spanFrom_mirrors _) fun _ => .pure _) (.pure _)

theorem tryStatement_mirrors (start : Position) :
    Mirrors c low (Walk.tryStatement walk start) (tryStatement sub start) := by
  refine .bind (expect_mirrors _) fun _ => .bind resources_mirrors fun _ =>
    .bind (block_mirrors hsub) fun _ => .bind (.gather ?_ ?_) fun _ =>
      .bind (finallyClause_mirrors hsub) fun _ => .ite (unexpected_mirrors _)
        (.bind (spanFrom_mirrors _) fun _ => .pure _)
  · exact .bind (sees_mirrors _) fun _ =>
      .ite (.bind (catchClause_mirrors hsub) fun _ => .pure _) (.pure _)
  · exact .pass fun _ => .ite (.of_advances _) (.other id)

/-- Going back to where the statement began is setting the position, with the levels counted by then. -/
theorem declarationOrExpression_mirrors (start : Position) :
    Mirrors c low (Walk.declarationOrExpression walk start) (declarationOrExpression sub start) := by
  intro s hs hd
  refine .position (.window hs (.ite (by simp) (fun _ => ?_) fun _ => ?_))
  · refine (?_ : Mirrors c low _ _) s hs hd
    exact .bind identifier_mirrors fun _ => .bind advance_mirrors fun _ =>
      .bind hsub.statement fun _ => .bind (spanFrom_mirrors _) fun _ => .pure _
  · refine (modifiers_mirrors s hs hd).go fun words m hm _ => ?_
    have hm' := hs.goes hm
    have hd' := Nat.le_trans hd hm.depth
    refine .window hm' (.ite (by simp) (fun _ => ?_) fun _ => ?_)
    · exact ((hsub.typeDecl words start).bind fun _ => .pure _) m hm' hd'
    · refine (looksLikeLocalDeclaration_mirrors m hm' hd').go fun _ n hn _ => ?_
      have hn' := hm'.goes hn
      have hd' := Nat.le_trans hd' hn.depth
      refine .ite Iff.rfl (fun _ => localVariables_mirrors start n hn' hd') fun _ =>
        .ite Iff.rfl (fun _ => unexpected_mirrors _ n hn' hd') fun _ => ?_
      rw [MirrorsAt, Walk.bind_done (moveTo_mark hs _)]
      exact expressionStatement_mirrors start
        { n with index := s.index, last := s.last, rest := s.rest } hs hd'

theorem blockStatement_mirrors : Mirrors c low (Walk.blockStatement walk) (blockStatement sub) :=
  .bind (block_mirrors hsub) fun _ => .pure _

theorem ifStatement_mirrors (start : Position) :
    Mirrors c low (Walk.ifStatement walk start) (ifStatement sub start) :=
  .bind advance_mirrors fun _ => .bind parenthesized_mirrors fun _ => .bind hsub.statement fun _ =>
    .bind (.whenAccepted _ hsub.statement) fun _ => .bind (spanFrom_mirrors _) fun _ => .pure _

theorem whileStatement_mirrors (start : Position) :
    Mirrors c low (Walk.whileStatement walk start) (whileStatement sub start) :=
  .bind advance_mirrors fun _ => .bind parenthesized_mirrors fun _ => .bind hsub.statement fun _ =>
    .bind (spanFrom_mirrors _) fun _ => .pure _

theorem doStatement_mirrors (start : Position) :
    Mirrors c low (Walk.doStatement walk start) (doStatement sub start) :=
  .bind advance_mirrors fun _ => .bind hsub.statement fun _ => .bind (expect_mirrors _) fun _ =>
    .bind parenthesized_mirrors fun _ => .bind (expect_mirrors _) fun _ =>
      .bind (spanFrom_mirrors _) fun _ => .pure _

theorem synchronizedStatement_mirrors (start : Position) :
    Mirrors c low (Walk.synchronizedStatement walk start) (synchronizedStatement sub start) :=
  .bind advance_mirrors fun _ => .bind parenthesized_mirrors fun _ =>
    .bind (block_mirrors hsub) fun _ => .bind (spanFrom_mirrors _) fun _ => .pure _

/-- **A statement is read as the parser reads it.** -/
theorem statementBody_mirrors : Mirrors c low (Walk.statementBody walk) (statementBody sub) := by
  refine .bind here_mirrors fun start => .window fun s hs hd => ?_
  simp only [State.window_sees, State.window_seesPair]
  refine (?_ : Mirrors c low _ _) s hs hd
  refine .ite (blockStatement_mirrors hsub) <| .ite (emptyStatement_mirrors start) <|
    .ite (ifStatement_mirrors hsub start) <| .ite (whileStatement_mirrors hsub start) <|
    .ite (doStatement_mirrors hsub start) <| .ite (forStatement_mirrors hsub start) <|
    .ite (switchStatement_mirrors hsub start) <| .ite (tryStatement_mirrors hsub start) <|
    .ite (synchronizedStatement_mirrors hsub start) <| .ite (exitStatement_mirrors _ start) <|
    .ite (exitStatement_mirrors _ start) <| .ite (jumpStatement_mirrors _ start) <|
    .ite (jumpStatement_mirrors _ start) <| .ite (assertStatement_mirrors start)
      (declarationOrExpression_mirrors hsub start)

/-! ### Members -/

/-- A body begins with its brace, whether it is passed over or read. -/
theorem body_mirrors : Mirrors c low (Walk.body walk) (body sub) := by
  refine .ifSees (fun s hs hd hsees => ?_) (unexpected_mirrors _)
  refine (isDiet_mirrors s hs hd).go fun diet n hn hok => ?_
  cases hok
  refine .ite Iff.rfl (fun _ => ?_) fun _ => ((block_mirrors hsub).bind fun _ => .pure _) s hs hd
  exact (skipBalanced_mirrors rfl hs hsees).go fun _ _ _ _ => .pure _

theorem methodBody_mirrors : Mirrors c low (Walk.methodBody walk) (methodBody sub) :=
  .bind (accept_mirrors _) fun _ => .ite (.pure _) (body_mirrors hsub)

theorem methodRest_mirrors (head : MethodHead) :
    Mirrors c low (Walk.methodRest walk head) (methodRest sub head) :=
  .bind parameters_mirrors fun _ => .bind dimensions_mirrors fun _ =>
    .bind (.whenAccepted _ typeList_mirrors) fun _ =>
      .bind (.whenAccepted _ (expressionUntil_mirrors _)) fun _ =>
        .bind (methodBody_mirrors hsub) fun _ => .bind (spanFrom_mirrors _) fun _ => .pure _

theorem initializerMember_mirrors (start : Position) :
    Mirrors c low (Walk.initializerMember walk start) (initializerMember sub start) :=
  .bind (accept_mirrors _) fun _ => .bind (body_mirrors hsub) fun _ =>
    .bind (spanFrom_mirrors _) fun _ => .pure _

theorem compactConstructor_mirrors (head : MethodHead) :
    Mirrors c low (Walk.compactConstructor walk head) (compactConstructor sub head) :=
  .bind (body_mirrors hsub) fun _ => .bind (spanFrom_mirrors _) fun _ => .pure _

theorem typedMember_mirrors (words : List String) (typeParameters : Option String)
    (start : Position) :
    Mirrors c low (Walk.typedMember walk words typeParameters start)
      (typedMember sub words typeParameters start) := by
  refine .bind typeReference_mirrors fun _ s hs hd => ?_
  refine (identifier_mirrors s hs hd).go fun name n hn hok => ?_
  have hpos : 0 < n.index := Nat.zero_lt_of_lt (Advances.forward hok)
  have hn' := hs.goes hn
  have hd' := Nat.le_trans hd hn.depth
  rw [MirrorsAt, Walk.bind_done (sees_mark hn' _)]
  refine MirrorsAt.ite Iff.rfl (fun _ => methodRest_mirrors hsub _ n hn' hd') fun _ => ?_
  refine (declarators_mirrorsAt name hn' hpos).go fun found m hm _ => ?_
  refine (?_ : Mirrors c 0 _ _) m (hn'.goes hm) (Nat.zero_le _)
  exact .bind (expect_mirrors _) fun _ => .bind (spanFrom_mirrors _) fun _ => .pure _

theorem member_mirrors (typeName : String) :
    Mirrors c low (Walk.member walk typeName) (member sub typeName) := by
  refine .bind here_mirrors fun start => .window fun s hs hd => .ite (by simp)
    (fun _ => initializerMember_mirrors hsub start s hs hd) fun _ => ?_
  refine (?_ : Mirrors c low _ _) s hs hd
  refine .bind modifiers_mirrors fun words => .window fun s hs hd => .ite (by simp)
    (fun _ => ((hsub.typeDecl words start).bind fun _ => .pure _) s hs hd) fun _ => ?_
  refine (?_ : Mirrors c low _ _) s hs hd
  refine .bind typeParameters_mirrors fun _ => .window fun s hs hd => ?_
  simp only [State.window_seesName, State.window_seesSecond]
  refine (?_ : Mirrors c low _ _) s hs hd
  exact .ite (.bind advance_mirrors fun _ => methodRest_mirrors hsub _) <|
    .ite (.bind advance_mirrors fun _ => compactConstructor_mirrors hsub _)
      (typedMember_mirrors hsub _ _ _)

theorem members_mirrors (typeName : String) :
    Mirrors c low (Walk.members walk typeName) (members sub typeName) := by
  refine .gather (.window fun s hs hd => ?_) (.state fun s => ?_)
  · refine .ite (by simp) (fun _ => .pure _) fun _ => .ite (by simp) (fun _ => ?_) fun _ => ?_
    · exact ((reportUnexpected_mirrors _).bind fun _ => .pure _) s hs hd
    · exact Mirrors.semicolonOr (member_mirrors hsub typeName) s hs hd
  · exact .ite (fun _ => .other id) fun _ => .ite (fun _ => Productive.pass (fun _ => .other id) s)
      fun hrest => .semicolonOr (State.rest_ne_nil_of_isEmpty hrest)

/-! ### Types -/

theorem classBody_mirrors (typeName : String) :
    Mirrors c low (Walk.classBody walk typeName) (classBody sub typeName) :=
  .bind (expect_mirrors _) fun _ => .bind (members_mirrors hsub typeName) fun _ =>
    .bind (accept_mirrors _) fun _ => .pure _

theorem constantBody_mirrors (name : String) :
    Mirrors c low (Walk.constantBody walk name) (constantBody sub name) :=
  .bind here_mirrors fun _ => .bind (sees_mirrors _) fun _ => .ite
    (.bind (classBody_mirrors hsub name) fun _ => .bind (spanFrom_mirrors _) fun _ => .pure _) (.pure _)

theorem enumConstant_mirrors : Mirrors c low (Walk.enumConstant walk) (enumConstant sub) :=
  .bind here_mirrors fun _ => .bind identifier_mirrors fun name =>
    .bind constantArguments_mirrors fun _ => .bind (constantBody_mirrors hsub name) fun _ =>
      .bind (spanFrom_mirrors _) fun _ => .pure _

theorem enumConstants_mirrors : Mirrors c low (Walk.enumConstants walk) (enumConstants sub) := by
  refine .gather (.bind annotations_mirrors fun _ => .bind constantsEnd_mirrors fun _ =>
    .ite (.pure _) (.bind (enumConstant_mirrors hsub) fun _ => ?_)) ?_
  · exact .bind (accept_mirrors _) fun _ => .ite (.pure _) (.bind constantsEnd_mirrors fun _ =>
      .ite (.pure _) (unexpected_mirrors _))
  · exact .pass fun _ => .pass fun _ => .ite (.other id) (.of_advances _)

theorem enumBody_mirrors (typeName : String) :
    Mirrors c low (Walk.enumBody walk typeName) (enumBody sub typeName) :=
  .bind (expect_mirrors _) fun _ => .bind (enumConstants_mirrors hsub) fun _ =>
    .bind (members_mirrors hsub typeName) fun _ => .bind (accept_mirrors _) fun _ => .pure _

theorem typeBody_mirrors (kind : TypeDecl.Kind) (typeName : String) :
    Mirrors c low (Walk.typeBody walk kind typeName) (typeBody sub kind typeName) :=
  .ite (enumBody_mirrors hsub typeName) (classBody_mirrors hsub typeName)

/-- **A type is read as the parser reads it.** -/
theorem typeDeclBody_mirrors (words : List String) (start : Position) :
    Mirrors c low (Walk.typeDeclBody walk words start) (typeDeclBody sub words start) := by
  refine .bind typeKind_mirrors fun kind => .bind identifier_mirrors fun name =>
    .bind typeParameters_mirrors fun typeParameters => ?_
  refine .ifSees (fun s hs hd hsees => (skipBalanced_mirrors rfl hs hsees).go fun _ n hn _ =>
    (?_ : Mirrors c low _ _) n (hs.goes hn) (Nat.le_trans hd hn.depth)) ?_
  all_goals
    exact .bind (supertypeClauses_mirrors kind) fun _ => .bind permitsClause_mirrors fun _ =>
      .bind (typeBody_mirrors hsub kind name) fun _ => .bind (spanFrom_mirrors start) fun _ => .pure _

end

/-! ### The levels of nesting -/

/-- Where no level is left, one more is refused whatever would be read in it. -/
theorem guarded_refused {α : Type} (q : Walk α) (p : Parser α) :
    Mirrors c maxNesting (Walk.guarded q) (Parser.guarded p) := by
  intro s hs hd
  have hrefused : maxNesting < s.depth + 1 := Nat.lt_succ_of_le hd
  have hspan : Walk.hereSpan c.toSetting s.mark.enter = .done _ _ :=
    hereSpan_mark (s := { s with depth := s.depth + 1 }) hs
  have hwalk : maxNesting < s.mark.enter.depth := hrefused
  rw [MirrorsAt, Walk.guarded, Parser.guarded, if_pos hwalk, if_pos hrefused, Walk.tooDeep,
    Walk.bind_done hspan]
  rfl

/-- **At every level of nesting the readings mirror the parsers**: a level is refused before the calls
that may be open run out. -/
theorem nestedAt_mirrors {level calls : Nat} (h : level < calls) :
    MirrorsNested c (maxNesting - level) (Walk.nestedAt calls) (nestedAt level) := by
  induction level generalizing calls with
  | zero =>
      obtain ⟨calls, rfl⟩ := Nat.exists_eq_add_one.2 h
      let sub := Walk.nestedAt calls
      exact ⟨guarded_refused (Walk.statementBody sub) tooDeep,
        fun words start => guarded_refused (Walk.typeDeclBody sub words start) tooDeep⟩
  | succ level ih =>
      obtain ⟨calls, rfl⟩ := Nat.exists_eq_add_one.2 (Nat.zero_lt_of_lt h)
      have hsub := ih (Nat.lt_of_succ_lt_succ h)
      have hlow : maxNesting - level ≤ maxNesting - (level + 1) + 1 := by omega
      exact ⟨.guarded ((statementBody_mirrors hsub).mono hlow),
        fun words start => .guarded ((typeDeclBody_mirrors hsub words start).mono hlow)⟩

theorem outermost_mirrors : MirrorsNested c 0 (Walk.nestedAt c.fuel) outermost := by
  have hample := c.ample
  have hcalls : maxNesting < c.fuel := by omega
  have hnested := nestedAt_mirrors (c := c) hcalls
  rwa [Nat.sub_self] at hnested

/-- A body that is read on its own. -/
theorem outerBlock_mirrors : Mirrors c 0 Walk.outerBlock (block outermost) := by
  intro s hs hd
  rw [MirrorsAt, Walk.outerBlock, Walk.bind_done (Walk.fuel_done _ _)]
  have : outermost.Advances := nestedAt_advances maxNesting
  exact block_mirrors outermost_mirrors s hs hd

/-! ### Units -/

theorem packageDecl_mirrors : Mirrors c low Walk.packageDecl packageDecl :=
  .bind (expect_mirrors _) fun _ => .bind qualifiedName_mirrors fun _ =>
    .bind (expect_mirrors _) fun _ => .bind (spanFrom_mirrors _) fun _ => .pure _

theorem onDemandStar_mirrors : Mirrors c low Walk.onDemandStar onDemandStar :=
  .window fun s hs hd => .ite (by simp)
    (fun _ => ((skip_mirrors 2).bind fun _ => .pure _) s hs hd) fun _ => .pure _

theorem importDecl_mirrors : Mirrors c low Walk.importDecl importDecl :=
  .bind (expect_mirrors _) fun _ => .bind (accept_mirrors _) fun _ =>
    .bind qualifiedName_mirrors fun _ => .bind onDemandStar_mirrors fun _ =>
      .bind (expect_mirrors _) fun _ => .bind (spanFrom_mirrors _) fun _ => .pure _

theorem packageClause_mirrors : Mirrors c low Walk.packageClause packageClause :=
  .bind (sees_mirrors _) fun _ => .ite (.orRecover packageDecl_mirrors) (.pure _)

/-- An import whose first word is ahead passes it even if there is an error behind. -/
theorem importDecl_fail {setting : Setting} {e : SyntaxError} {n : State}
    (hsees : s.sees "import" = true) (h : importDecl setting s = .fail e n) : s.index < n.index := by
  obtain ⟨t, ts, hrest, hword⟩ := State.exists_cons_of_sees hsees
  have hexpect : expect "import" setting s = .ok t.span s.advance := by
    rw [expect, hrest]
    exact if_pos hword
  rw [importDecl, bind_of_ok hexpect] at h
  have hlater := (Moves.of_fail h).index_le
  rw [State.advance_cons hrest] at hlater
  exact hlater

theorem importClauses_mirrors : Mirrors c low Walk.importClauses importClauses := by
  refine .gather (.bind (sees_mirrors _) fun _ =>
    .ite (.bind (.orRecover importDecl_mirrors) fun decl => ?_) (.pure _)) ?_
  · cases decl with
    | some decl => exact .pure _
    | none => exact .pure _
  · refine .sees (fun s hsees => ?_) (.other id)
    refine .ite (fun _ => @ProductiveAt.bind _ _ _ _ _ _ (fun decl => ?_) ?_) fun hno => absurd rfl hno
    · cases decl <;> infer_instance
    · exact .orRecover fun setting e n hfail => importDecl_fail hsees hfail

theorem topLevelType_mirrors : Mirrors c 0 Walk.topLevelType topLevelType := by
  refine .bind here_mirrors fun start => .bind modifiers_mirrors fun words s hs hd => ?_
  rw [MirrorsAt, Walk.bind_done (Walk.fuel_done _ _)]
  exact outermost_mirrors.typeDecl words start s hs hd

theorem topLevelTurn_productive : Productive Turn.goesOn (do
    let s ← state
    if s.rest.isEmpty then return Turn.stop
    else if ← accept ";" then return Turn.skip
    else orSkip topLevelType) :=
  .state fun _ => .ite (fun _ => .other id) fun hrest =>
    .semicolonOr (State.rest_ne_nil_of_isEmpty hrest)

theorem topLevelTypes_mirrors : Mirrors c 0 Walk.topLevelTypes topLevelTypes :=
  .gather (.window fun s hs hd => .ite (by simp) (fun _ => .pure _)
    fun _ => Mirrors.semicolonOr topLevelType_mirrors s hs hd) topLevelTurn_productive

/-- **A whole unit is read as the parser reads it.** -/
theorem compilationUnit_mirrors : Mirrors c 0 Walk.compilationUnit compilationUnit :=
  .bind here_mirrors fun _ => .bind (.orReport annotations_mirrors) fun _ =>
    .bind packageClause_mirrors fun _ => .bind importClauses_mirrors fun _ =>
      .bind topLevelTypes_mirrors fun _ => .bind (spanFrom_mirrors _) fun _ => .pure _

end

end JavaOutline
