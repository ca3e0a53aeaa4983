/-
**The brackets of statements and declarations.**

At every level of nesting, the parsers of statements and of types that report nothing have met brackets
that nest.  A type ends with its closing brace, so it cannot run into the end of the text, and neither
can a unit: if its parse finds no errors, the brackets of the source nest from the first token to the
last.  What is apart from this are the stretches that the parse passes as a whole: its expressions, and
the groups that an outline leaves out.  There brackets of different sorts may close one another.

Main definitions:

* `bracedTurn`, `GoesOn` — reading up to a closing brace;
* `LevelPairs` — the brackets of statements and types nest at a level.

Main results:

* `PairsAt.braced` — a silent repetition up to a closing brace is followed by that brace;
* `levelPairs` — **the brackets of statements and types nest at every level**;
* `nestsApart_of_errors_eq_nil` — **if the full parse of a source finds no errors, its brackets nest**
  outside of the stretches that it passes as a whole;
* `mismatched_unreported` — inside of such a stretch they need not.
-/

import JavaOutline.Proofs.DietAgreement
import JavaOutline.Proofs.FaultlessReading
import JavaOutline.Proofs.PairedPhrases

set_option autoImplicit false
set_option synthInstance.maxSize 100000

namespace JavaOutline

open JavaOutline.Parser

/-! ### Up to a closing brace -/

section

variable {α β : Type} {scan : Scan} {closed : Bool} {awaited : List String} {s : State}

/-- One turn of reading up to a closing brace, which stays ahead. -/
def bracedTurn (turn : Parser (Turn α)) : Parser (Turn α) := do
  let s ← state
  if s.sees "\x7d" then return Turn.stop
  else if s.rest.isEmpty then
    reportUnexpected "'\x7d'"
    return Turn.stop
  else turn

instance (turn : Parser (Turn α)) [Moves turn] : Moves (bracedTurn turn) := by
  unfold bracedTurn
  infer_instance

/-- A turn that always goes on in front of a token, and passes it. -/
structure GoesOn (turn : Parser (Turn α)) : Prop where
  goesOn : ∀ {setting s value n}, turn setting s = .ok value n → value.goesOn
  productive : ∀ {s : State}, s.rest ≠ [] → ProductiveAt Turn.goesOn s turn

/-- A repetition of such turns that is silent ends in front of a closing brace. -/
theorem GoesOn.ends {turn : Parser (Turn α)} [Moves turn] (h : GoesOn turn) {n : State}
    {found : List α} (hs : s.OnWay scan.tokens)
    (hok : gather (bracedTurn turn) (scan.setting false) s = .ok found n) (hn : n.errors = #[]) :
    n.sees "\x7d" = true := by
  have hproductive : Productive Turn.goesOn (bracedTurn turn) :=
    .state fun s => .ite (fun _ => .other id) fun _ =>
      .ite (fun _ => Productive.pass (fun _ => .other id) s) fun hrest =>
        h.productive (State.rest_ne_nil_of_isEmpty hrest)
  have hend := gather_ends (fun n => n.errors = #[] → n.sees "\x7d" = true) hproductive
    (fun s value n hturn hno => ?_) rfl hs hok
  · exact hend hn
  · obtain ⟨_, _, hstate, hturn⟩ := bind_eq_ok.1 hturn
    cases hstate
    split at hturn
    next hsees =>
      obtain ⟨-, rfl⟩ := pure_eq_ok.1 hturn
      exact fun _ => hsees
    next =>
      split at hturn
      next =>
        obtain ⟨_, m, hreport, hturn⟩ := bind_eq_ok.1 hturn
        obtain ⟨-, rfl⟩ := pure_eq_ok.1 hturn
        exact fun hm => absurd hm (reportUnexpected_loud hreport)
      next => exact absurd (h.goesOn hturn) hno

instance (turn : Parser (Turn α)) [Passing turn] : Passing (bracedTurn turn) := by
  delta bracedTurn
  infer_instance

/-- **A repetition up to a closing brace, and the brace behind it.** -/
theorem PairsAt.braced (turn : Parser (Turn β)) [Moves turn] [Passing turn] {f : List β → Parser α}
    [∀ found, Passing (f found)] (hturn : Pairs scan false [] turn) (hon : GoesOn turn)
    (h : ∀ found, Pairs scan closed awaited (f found)) :
    PairsAt scan closed ("\x7d" :: awaited) s
      (gather (bracedTurn turn) >>= fun found => Parser.accept "\x7d" >>= fun _ => f found) := by
  have hgather : Pairs scan false [] (gather (bracedTurn turn)) :=
    .gather fun s => .state (.ite (fun _ => .give) fun _ =>
      .ite (fun _ => .reportUnexpected) fun _ => hturn s)
  intro hs
  refine after false (hgather s) (.inr (.inr (List.cons_ne_nil _ _)))
    (fun {found m} hfound hm a n hok hn => ?_) hs
  obtain ⟨accepted, m', haccept, hf⟩ := bind_eq_ok.1 hok
  have hpaired := h found m' (hm.goes (Moves.of_ok haccept)) hf hn
  rw [stretches_bind haccept]
  cases accepted with
  | true =>
      obtain ⟨hsees, rfl⟩ := accept_true haccept
      exact hpaired.shut hsees
  | false =>
      obtain ⟨hsees, rfl⟩ := accept_false haccept
      exact absurd (hon.ends hs hfound hpaired.silent) hsees

end

/-! ### Statements in which nothing is nested -/

section

variable {scan : Scan} {start : Position}

theorem forClause_pairs (terminator : String) : Pairs scan false [] (forClause terminator) := by
  refine fun _ => .sees (.ite (fun _ => .give) fun _ => .pass fun _ _ => .lookingPast fun _ =>
    .ite (fun _ => .pass fun _ _ => ?_) fun _ => ?_)
  all_goals exact .take (expressionUntil_pairs _) fun _ _ => .give

theorem caseLabel_pairs : Pairs scan false [] caseLabel := fun _ =>
  .accept (.take (.commaSeparated (expressionUntil_pairs _)) fun _ _ => .give)
    (.accept .give .unexpected)

theorem resource_pairs : Pairs scan false [] resource := by
  refine fun _ => .pass fun _ _ => .lookingPast fun _ => .ite (fun _ => .pass fun _ _ => ?_) fun _ => ?_
  all_goals exact expressionUntil_pairs _ _

theorem resources_pairs : Pairs scan false [] resources := by
  refine fun _ => .acceptOpening (fun _ => ?_) .give
  refine .takeInside (.gather fun _ => .sees (.ite (fun _ => .give) fun _ => ?_)) fun _ _ =>
    .closing fun _ _ => .give
  exact .take resource_pairs fun _ _ => .pass fun _ _ => .ite (fun _ => .give) fun _ =>
    .give

theorem exitValue_pairs : Pairs scan false [] exitValue := fun _ =>
  .sees (.ite (fun _ => .give) fun _ =>
    .take (expressionUntil_pairs _) fun _ _ => .give)

theorem localVariables_pairs : Pairs scan false [] (localVariables start) := fun _ =>
  .pass fun _ _ => .pass fun _ _ => .take (declarators_pairs _) fun _ _ => .pass fun _ _ =>
    .finish

theorem expressionStatement_pairs : Pairs scan false [] (expressionStatement start) := fun _ =>
  .take (expressionUntil_pairs _) fun _ _ => .pass fun _ _ => .finish

/-- The words that a statement of one line begins with are passed when they are seen. -/
theorem exitStatement_pairsAt {kind : Statement.Kind} {text : String} [PlainWord text] {s : State}
    (hsees : s.sees text = true) : PairsAt scan false [] s (exitStatement kind start) :=
  .advanceWord hsees (.take exitValue_pairs fun _ _ => .pass fun _ _ => .finish)

theorem jumpStatement_pairsAt {kind : Statement.Kind} {text : String} [PlainWord text] {s : State}
    (hsees : s.sees text = true) : PairsAt scan false [] s (jumpStatement kind start) := by
  have hlabel : Pairs scan false [] jumpLabel := fun _ =>
    .state (.ite (fun _ => .pass fun _ _ => .give) fun _ => .give)
  exact .advanceWord hsees (.take hlabel fun _ _ => .pass fun _ _ => .finish)

theorem assertStatement_pairsAt {s : State} (hsees : s.sees "assert" = true) :
    PairsAt scan false [] s (assertStatement start) :=
  .advanceWord hsees (.take (expressionUntil_pairs _) fun _ _ =>
    .take (.whenAccepted (expressionUntil_pairs _)) fun _ _ => .pass fun _ _ => .finish)

theorem emptyStatement_pairsAt {s : State} (hsees : s.sees ";" = true) :
    PairsAt scan false [] s (emptyStatement start) :=
  .advanceWord hsees (.finish)

end

/-! ### Statements -/

/-- What is known of the statements and types at a level of nesting.  A type ends with its closing brace,
so it does not run into the end of the text. -/
structure LevelPairs (scan : Scan) (level : Nat) : Prop where
  statement : Pairs scan false [] (nestedAt level).statement
  typeDecl : ∀ (words : List String) (start : Position),
    Pairs scan true [] ((nestedAt level).typeDecl words start)

section

variable {scan : Scan} {level : Nat} (hsub : LevelPairs scan level) {closed : Bool} {start : Position}

include hsub

theorem block_pairs : Pairs scan closed [] (block (nestedAt level)) := by
  have hon : GoesOn (orSkip (nestedAt level).statement) := ⟨goesOn_of_orSkip, .orSkip⟩
  exact fun _ => .opening fun _ _ => .braced _ (.orSkip hsub.statement) hon fun _ _ =>
    .finish

theorem caseStatements_pairs : Pairs scan false [] (caseStatements (nestedAt level)) :=
  .gather fun _ => .state (.ite (fun _ => .give) fun _ => .ite (fun _ => .unexpected) fun _ =>
    Pairs.orSkip hsub.statement _)

theorem caseBody_pairs : Pairs scan false [] (caseBody (nestedAt level)) := fun _ =>
  .takeOption (.whenAccepted hsub.statement) (fun _ => .pass fun _ => caseStatements_pairs hsub)
    fun _ _ => .give

theorem switchCase_pairs : Pairs scan false [] (switchCase (nestedAt level)) := by
  refine fun _ => .here fun _ => .take caseLabel_pairs fun label => ?_
  obtain ⟨label, expressions⟩ := label
  exact fun _ => .take (caseBody_pairs hsub) fun _ _ => .finish

theorem catchClause_pairsAt {s : State} (hsees : s.sees "catch" = true) :
    PairsAt scan false [] s (catchClause (nestedAt level)) := by
  refine .here fun _ => .advanceWord hsees (.opening fun _ _ => .pass fun _ _ => .pass fun _ _ =>
    .takeInside (.repeatWhile fun _ => ?_) fun _ _ => .pass fun _ _ => .closing fun _ _ =>
    .take (block_pairs hsub) fun _ _ => .finish)
  exact .take (.whenAccepted .of_neat) fun _ _ => .give

theorem finallyClause_pairs : Pairs scan false [] (finallyClause (nestedAt level)) := fun _ =>
  .here fun _ => .accept (.take (block_pairs hsub) fun _ _ => .finish)
    .give

theorem forStatement_pairs : Pairs scan false [] (forStatement (nestedAt level) start) := by
  refine fun _ => .pass fun _ _ => .opening fun _ _ => .state (.ite (fun _ => ?_) fun _ => ?_)
  · exact .pass fun _ _ => .pass fun _ _ => .pass fun _ _ => .pass fun _ _ =>
      .takeInside (expressionUntil_pairs _) fun _ _ => .closing fun _ _ =>
        .take hsub.statement fun _ _ => .finish
  · exact .takeInside (forClause_pairs _) fun _ _ => .pass fun _ _ =>
      .takeInside (forClause_pairs _) fun _ _ => .pass fun _ _ =>
        .takeInside (forClause_pairs _) fun _ _ => .closing fun _ _ =>
          .take hsub.statement fun _ _ => .finish

theorem switchStatement_pairs : Pairs scan false [] (switchStatement (nestedAt level) start) := by
  refine fun _ => .pass fun _ _ => .take parenthesized_pairs fun _ _ => .opening fun _ _ =>
    .takeInside (.gather fun _ => .state (.ite (fun _ => .give) fun _ =>
      .ite (fun _ => .unexpected) fun _ => ?_)) fun _ _ => .closing fun _ _ => .finish
  exact .take (switchCase_pairs hsub) fun _ _ => .give

theorem tryStatement_pairs : Pairs scan false [] (tryStatement (nestedAt level) start) := by
  refine fun _ => .pass fun _ _ => .take resources_pairs fun _ _ => .take (block_pairs hsub) fun _ _ =>
    .take (.gather fun _ => .sees (.ite (fun hsees => ?_) fun _ => .give)) fun _ _ =>
      .take (finallyClause_pairs hsub) fun _ _ => .ite (fun _ => .unexpected) fun _ =>
        .finish
  exact .takeAt (catchClause_pairsAt hsub hsees) fun _ _ => .give

theorem ifStatement_pairsAt {s : State} (hsees : s.sees "if" = true) :
    PairsAt scan false [] s (ifStatement (nestedAt level) start) :=
  .advanceWord hsees (.take parenthesized_pairs fun _ _ => .take hsub.statement fun _ _ =>
    .take (.whenAccepted hsub.statement) fun _ _ => .finish)

theorem whileStatement_pairsAt {s : State} (hsees : s.sees "while" = true) :
    PairsAt scan false [] s (whileStatement (nestedAt level) start) :=
  .advanceWord hsees (.take parenthesized_pairs fun _ _ => .take hsub.statement fun _ _ =>
    .finish)

theorem doStatement_pairsAt {s : State} (hsees : s.sees "do" = true) :
    PairsAt scan false [] s (doStatement (nestedAt level) start) :=
  .advanceWord hsees (.take hsub.statement fun _ _ => .pass fun _ _ =>
    .take parenthesized_pairs fun _ _ => .pass fun _ _ => .finish)

theorem synchronizedStatement_pairsAt {s : State} (hsees : s.seesPair "synchronized" "(" = true) :
    PairsAt scan false [] s (synchronizedStatement (nestedAt level) start) :=
  .advanceWord (State.sees_of_seesPair hsees) (.take parenthesized_pairs fun _ _ =>
    .take (block_pairs hsub) fun _ _ => .finish)

theorem labeledStatement_pairsAt {s : State}
    (hsees : (s.seesIdentifier && s.seesSecond ":") = true) :
    PairsAt scan false [] s (labeledStatement (nestedAt level) start) := by
  obtain ⟨t, u, ts, hrest, hu⟩ := State.exists_second (Bool.and_eq_true_iff.1 hsees).2
  have hcolon : s.advance.sees ":" = true := by rw [State.sees_cons (State.rest_advance hrest), hu]
  exact .name fun _ => .advanceWord hcolon (.take hsub.statement fun _ _ => .finish)

/-- **A declaration is read behind modifiers, or else an expression from where they began.** -/
theorem modifiedStatement_pairsAt {s : State} :
    PairsAt scan false [] s (modifiedStatement (nestedAt level) start s) := by
  intro hs a n hok hn
  obtain ⟨words, m, hwords, hok⟩ := bind_eq_ok.1 hok
  obtain ⟨_, _, hstate, hok⟩ := bind_eq_ok.1 hok
  cases hstate
  have hm := hs.goes (Moves.of_ok hwords)
  -- What is read behind the modifiers is told behind what they passed.
  have hfront {found : List Stretch} (h : Paired false [] m found n) :
      Paired false [] s (stretches modifiers (scan.setting false) s ++ found) n :=
    (Neat.pairs s hs hwords h.silent).trans h (.inl rfl)
  unfold stretches passing_modifiedStatement
  simp only [hwords]
  by_cases htype : m.seesTypeDecl = true
  · rw [if_pos htype] at hok ⊢
    obtain ⟨decl, m', hdecl, hok⟩ := bind_eq_ok.1 hok
    obtain ⟨-, rfl⟩ := pure_eq_ok.1 hok
    exact hfront (hsub.typeDecl words start m hm hdecl hn).loosen
  · rw [if_neg htype] at hok ⊢
    obtain ⟨declares, m', hlook, hok⟩ := bind_eq_ok.1 hok
    obtain rfl := still_of_lookingPast hlook
    rw [hlook]
    cases declares with
    | true => exact hfront (localVariables_pairs m' hm hok hn)
    | false =>
        rw [if_neg Bool.false_ne_true] at hok
        split at hok
        next => cases hok
        next hwordless =>
          have hempty : words.isEmpty = true := by simpa using hwordless
          obtain ⟨_, _, hback, hok⟩ := bind_eq_ok.1 hok
          cases hback
          have hpaired := expressionStatement_pairs { m' with
            index := s.index, last := s.last, rest := s.rest } hs hok hn
          simp only [hempty, if_true]
          exact ⟨(Steady.leads hwords hpaired.silent).silent, hpaired.nests⟩

theorem declarationOrExpression_pairs :
    Pairs scan false [] (declarationOrExpression (nestedAt level) start) := by
  show Pairs scan false [] (state >>= fun place =>
    if place.seesIdentifier && place.seesSecond ":" then labeledStatement (nestedAt level) start
    else modifiedStatement (nestedAt level) start place)
  exact fun _ => .state (.ite (labeledStatement_pairsAt hsub) fun _ => modifiedStatement_pairsAt hsub)

/-- **A statement is read**, whatever it begins with. -/
theorem statementBody_pairs : Pairs scan false [] (statementBody (nestedAt level)) := fun _ =>
  .here fun _ => .state <|
    .ite (fun _ => .take (block_pairs hsub) fun _ _ => .give) fun _ =>
    .ite emptyStatement_pairsAt fun _ =>
    .ite (ifStatement_pairsAt hsub) fun _ =>
    .ite (whileStatement_pairsAt hsub) fun _ =>
    .ite (doStatement_pairsAt hsub) fun _ =>
    .ite (fun _ => forStatement_pairs hsub _) fun _ =>
    .ite (fun _ => switchStatement_pairs hsub _) fun _ =>
    .ite (fun _ => tryStatement_pairs hsub _) fun _ =>
    .ite (synchronizedStatement_pairsAt hsub) fun _ =>
    .ite exitStatement_pairsAt fun _ =>
    .ite exitStatement_pairsAt fun _ =>
    .ite jumpStatement_pairsAt fun _ =>
    .ite jumpStatement_pairsAt fun _ =>
    .ite assertStatement_pairsAt fun _ => declarationOrExpression_pairs hsub _

/-! ### Members -/

omit hsub in
instance : Neat scan parameterName where
  pairs _ := .pass fun _ _ => .ite (fun _ => .give) fun _ => .pass fun _ _ => .pass fun _ _ => .give

omit hsub in
instance : Neat scan parameter where
  pairs _ := .here fun _ => .pass fun _ _ => .pass fun _ _ => .pass fun _ _ => .pass fun _ _ => .finish

omit hsub in
instance : Neat scan parameters where
  pairs _ := .opening fun _ _ => .acceptClosing (fun _ => .give)
    (.takeInside (.commaSeparated .of_neat) fun _ _ => .closing fun _ _ => .give)

theorem body_pairs : Pairs scan closed [] (body (nestedAt level)) := fun _ =>
  .sees (.ite (fun _ => .isFull (.take (block_pairs hsub) fun _ _ => .give)) fun _ => .unexpected)

theorem methodBody_pairs : Pairs scan false [] (methodBody (nestedAt level)) := fun _ =>
  .pass fun _ _ => .ite (fun _ => .give) fun _ => body_pairs hsub _

theorem initializerMember_pairs : Pairs scan false [] (initializerMember (nestedAt level) start) :=
  fun _ => .pass fun _ _ => .take (body_pairs hsub) fun _ _ => .finish

theorem compactConstructor_pairs (head : MethodHead) :
    Pairs scan false [] (compactConstructor (nestedAt level) head) := fun _ =>
  .take (body_pairs hsub) fun _ _ => .finish

theorem methodRest_pairs (head : MethodHead) :
    Pairs scan false [] (methodRest (nestedAt level) head) := fun _ =>
  .pass fun _ _ => .pass fun _ _ => .take (.whenAccepted .of_neat) fun _ _ =>
    .take (.whenAccepted (expressionUntil_pairs _)) fun _ _ => .take (methodBody_pairs hsub) fun _ _ =>
      .finish

theorem typedMember_pairs (words : List String) (typeParameters : Option String) :
    Pairs scan false [] (typedMember (nestedAt level) words typeParameters start) := fun _ =>
  .pass fun _ _ => .pass fun _ _ => .sees (.ite (fun _ => methodRest_pairs hsub _ _) fun _ =>
    .take (declarators_pairs _) fun _ _ => .pass fun _ _ => .finish)

theorem member_pairs (typeName : String) :
    Pairs scan false [] (member (nestedAt level) typeName) := by
  have hname {s : State} {second : String}
      (h : (s.seesName typeName && s.seesSecond second) = true) : s.seesIdentifier = true :=
    State.seesIdentifier_of_seesName (Bool.and_eq_true_iff.1 h).1
  refine fun _ => .here fun start => .state (.ite (fun _ => initializerMember_pairs hsub _) fun _ =>
    .pass fun words _ => .state (.ite (fun _ => ?_) fun _ => .pass fun typeParameters _ => .state
      (.ite (fun hsees => ?_) fun _ => .ite (fun hsees => ?_) fun _ =>
        typedMember_pairs hsub words typeParameters _)))
  · exact .take (hsub.typeDecl words start).loosen fun _ _ => .give
  · exact .advanceName (hname hsees) (methodRest_pairs hsub _ _)
  · exact .advanceName (hname hsees) (compactConstructor_pairs hsub _ _)

/-! ### Types -/

/-- Members are read up to the closing brace of their type, which is passed. -/
theorem members_pairsAt {α : Type} {awaited : List String} {s : State} {f : List Member → Parser α}
    [∀ found, Passing (f found)] (typeName : String) (h : ∀ found, Pairs scan closed awaited (f found)) :
    PairsAt scan closed ("\x7d" :: awaited) s
      (members (nestedAt level) typeName >>= fun found => accept "\x7d" >>= fun _ => f found) := by
  refine PairsAt.braced
    (do if ← accept ";" then return Turn.skip else orSkip (member (nestedAt level) typeName))
    (fun _ => .accept .give (Pairs.orSkip (member_pairs hsub typeName) _)) ⟨?_, .semicolonOr⟩ h
  intro setting s value n hok
  obtain ⟨accepted, m, -, hok⟩ := bind_eq_ok.1 hok
  cases accepted with
  | true =>
      obtain ⟨rfl, -⟩ := pure_eq_ok.1 hok
      trivial
  | false => exact goesOn_of_orSkip hok

theorem classBody_pairs (typeName : String) :
    Pairs scan closed [] (classBody (nestedAt level) typeName) := fun _ =>
  .opening fun _ _ => members_pairsAt hsub typeName fun _ _ => .give

theorem constantBody_pairs (name : String) :
    Pairs scan false [] (constantBody (nestedAt level) name) := fun _ =>
  .here fun _ => .sees (.ite (fun _ => .take (classBody_pairs hsub name) fun _ _ => .finish) fun _ =>
    .give)

omit hsub in
theorem constantArguments_pairs : Pairs scan closed [] constantArguments := fun _ =>
  .sees (.ite (fun _ => arguments_pairs _) fun _ => .give)

theorem enumConstant_pairs : Pairs scan false [] (enumConstant (nestedAt level)) := fun _ =>
  .here fun _ => .pass fun _ _ => .take constantArguments_pairs fun _ _ =>
    .take (constantBody_pairs hsub _) fun _ _ => .finish

omit hsub in
instance : Neat scan constantsEnd where
  pairs _ := .pass fun _ _ => .ite (fun _ => .give) fun _ => Pairs.of_neat _

theorem enumConstants_pairs : Pairs scan false [] (enumConstants (nestedAt level)) :=
  .gather fun _ => .pass fun _ _ => .pass fun _ _ => .ite (fun _ => .give) fun _ =>
    .take (enumConstant_pairs hsub) fun _ _ => .pass fun _ _ => .ite (fun _ => .give) fun _ =>
      .pass fun _ _ => .ite (fun _ => .give) fun _ => .unexpected

theorem enumBody_pairs (typeName : String) :
    Pairs scan closed [] (enumBody (nestedAt level) typeName) := fun _ =>
  .opening fun _ _ => .takeInside (enumConstants_pairs hsub) fun _ _ =>
    members_pairsAt hsub typeName fun _ _ => .give

theorem typeBody_pairs (kind : TypeDecl.Kind) (typeName : String) :
    Pairs scan closed [] (typeBody (nestedAt level) kind typeName) := fun _ =>
  .ite (fun _ => enumBody_pairs hsub typeName _) fun _ => classBody_pairs hsub typeName _

omit hsub in
instance : Neat scan typeKind where
  pairs _ := .state <|
    .ite (fun hsees => .advanceWord hsees .give) fun _ =>
    .ite (fun hsees => .advanceWord hsees .give) fun _ =>
    .ite (fun hsees => .advanceWord hsees .give) fun _ =>
    .ite (fun hsees => .skipPair hsees fun _ => .give) fun _ =>
    .ite (fun hsees => .advanceName (State.seesIdentifier_of_seesName hsees) .give) fun _ => .unexpected

omit hsub in
instance (kind : TypeDecl.Kind) : Neat scan (supertypeClauses kind) where
  pairs _ := .ite
    (fun _ => .take (.whenAccepted .of_neat) fun _ _ => .take (.whenAccepted .of_neat) fun _ _ => .give)
    fun _ => .take (.whenAccepted .of_neat) fun _ _ => .take (.whenAccepted .of_neat) fun _ _ => .give

omit hsub in
instance : Neat scan permitsClause where
  pairs _ := .state (.ite (fun hsees => .advanceName (State.seesIdentifier_of_seesName hsees)
    (.pass fun _ _ => .give)) fun _ => .give)

theorem typeDeclBody_pairs (words : List String) :
    Pairs scan true [] (typeDeclBody (nestedAt level) words start) := by
  have hrest (kind : TypeDecl.Kind) (name : String) {make : List Member → Span → TypeDecl} :
      Pairs scan true [] (do
        permitsClause
        let members ← typeBody (nestedAt level) kind name
        return make members (← spanFrom start)) := fun _ =>
    .pass fun _ _ => .take (typeBody_pairs hsub kind name) fun _ _ => .finish
  refine fun _ => .pass fun kind _ => .pass fun name _ => .pass fun _ _ => .sees (.ite
    (fun hsees => .bracketed (by decide) hsees fun _ _ => .pass fun _ => ?_)
    fun _ => .pass fun _ => ?_)
  · exact hrest kind name
  · exact hrest kind name

end

/-! ### The levels of nesting -/

/-- **The brackets of statements and types nest at every level.** -/
theorem levelPairs (scan : Scan) (level : Nat) : LevelPairs scan level := by
  induction level with
  | zero =>
      refine ⟨?_, fun words start => ?_⟩
      · exact Pairs.guarded .tooDeep
      · exact Pairs.guarded .tooDeep
  | succ level ih =>
      exact ⟨(statementBody_pairs ih).guarded, fun words _ => (typeDeclBody_pairs ih words).guarded⟩

/-! ### Units -/

section

variable {scan : Scan}

instance : Neat scan packageDecl where
  pairs _ := .pass fun _ _ => .pass fun _ _ => .pass fun _ _ => .finish

instance : Neat scan onDemandStar where
  pairs _ := .state (.ite (fun hsees => .skipPair hsees fun _ => .give) fun _ => .give)

instance : Neat scan importDecl where
  pairs _ := .pass fun _ _ => .pass fun _ _ => .pass fun _ _ => .pass fun _ _ => .pass fun _ _ => .finish

instance : Neat scan packageClause where
  pairs _ := .sees (.ite (fun _ => Pairs.orRecover .of_neat _) fun _ => .give)

instance : Neat scan importClauses where
  pairs := .gather fun _ => .sees (.ite (fun _ =>
    .takeOption (.orRecover .of_neat) (fun _ => .give) fun _ _ => .give) fun _ => .give)

theorem topLevelType_pairs : Pairs scan true [] topLevelType := fun _ =>
  .here fun _ => .pass fun words => (levelPairs scan maxNesting).typeDecl words _

theorem topLevelTypes_pairs : Pairs scan true [] topLevelTypes :=
  .gather fun _ => .state (.ite (fun _ => .give) fun _ =>
    .accept .give (Pairs.orSkip topLevelType_pairs _))

instance (p : Parser Unit) [Passing p] [Neat scan p] : Neat scan (orReport p) where
  pairs := .orReport .of_neat

/-- **The brackets of a unit nest.** -/
theorem compilationUnit_pairs : Pairs scan true [] compilationUnit := fun _ =>
  .here fun _ => .pass fun _ _ => .pass fun _ _ => .pass fun _ _ => .take topLevelTypes_pairs fun _ _ =>
    .finish

end

/-! ### Sources -/

/-- **If the full parse of a source finds no errors, its brackets nest**, from the first token to the
last, outside of the stretches that this parse passes as a whole. -/
theorem nestsApart_of_errors_eq_nil (source : String) (h : (Outline.parse source false).errors = []) :
    NestsApart (Scan.ofText source).tokens (Scan.ofText source).stretches := by
  obtain ⟨-, n, hok, hn⟩ := Outline.parse_errors_eq_nil.1 h
  have hstart : (Scan.ofText source).atStart.OnWay (Scan.ofText source).tokens := State.Reaches.refl _
  have hends : n.rest = [] := compilationUnit_ends rfl hstart hok
  have hnests := (compilationUnit_pairs _ hstart hok hn).nests (.inl rfl)
  rw [hends] at hnests
  exact hnests.nestsApart

/-- An outline with an annotation, a type argument, an invocation and a method with a loop. -/
theorem nestsApart_of_errors_eq_nil_sample :
    let source := "class A \x7b @B(c) L<D> x = f(y[0]); void m() \x7b while (b) \x7b x.g(); \x7d \x7d \x7d"
    (Outline.parse source false).errors = [] ∧
      NestsApart (Scan.ofText source).tokens (Scan.ofText source).stretches :=
  ⟨by decide +kernel, nestsApart_of_errors_eq_nil _ (by decide +kernel)⟩

-- What stands between two comparisons is no group.
example : (Scan.ofText "class A \x7b boolean x = a < b, y = c > d; \x7d").stretches =
    [⟨.expression [",", ";"], 6, 3⟩, ⟨.expression [",", ";"], 12, 3⟩] := by decide +kernel

/-- A source whose brackets do not nest and whose full parse reports nothing. -/
def SilentlyMismatched (source : String) : Prop :=
  (Outline.parse source false).errors = [] ∧ ¬ WellBracketed (Scan.ofText source).tokens

instance (source : String) : Decidable (SilentlyMismatched source) :=
  inferInstanceAs (Decidable (_ ∧ _))

/-- **Brackets of different sorts may close one another without an error**: in an expression, in type
arguments, in the arguments of an annotation, in the components of a record, in a default value, and in
an expression of a local type. -/
theorem mismatched_unreported :
    SilentlyMismatched "class A \x7b int x = (]; \x7d" ∧
      SilentlyMismatched "class A \x7b L<(> x; \x7d" ∧
      SilentlyMismatched "@A([) class B \x7b \x7d" ∧
      SilentlyMismatched "record R(]) \x7b \x7d" ∧
      SilentlyMismatched "@interface A \x7b int x() default (]; \x7d" ∧
      SilentlyMismatched "class A \x7b void m() \x7b class B \x7b int x = (]; \x7d \x7d \x7d" := by
  decide +kernel

end JavaOutline
