/-
**The spans of statements and declarations.**

The parsers of statements and of declarations lay out what they read if those for what is nested in
them do, and so they do at every level of nesting.  A body that is passed over lies between its braces,
with nothing known of what is inside.

Main definitions:

* `Nested.Lays` — the parsers one level deeper lay out what they answer;
* `Parser.Answers` — a parser that never fails.

Main results:

* `nestedAt_lays` — **statements and types are laid out at every level**;
* `compilationUnit_lie` — **the declarations of a unit lie one behind another on its tokens**.
-/

import JavaOutline.Proofs.SpanReading

set_option autoImplicit false
set_option synthInstance.maxSize 100000

namespace JavaOutline

open JavaOutline.Parser

/-! ### Parts in other hands -/

section

variable {α β : Type} [LaidOut α] [LaidOut β] {tokens : List Token} {i j : Nat} {moved : Bool}
  {hand other : List Layout}

/-- What is in hand may be seen as something else that lies there too. -/
theorem Builds.convert {p : Parser α}
    (h : ∀ {j}, Layout.Lie tokens i j hand → Layout.Lie tokens i j other)
    (hp : Builds tokens i moved other p) : Builds tokens i moved hand p :=
  fun hordered {_ _ _ _} hs hmoved hhand hok => hp hordered hs hmoved (h hhand) hok

/-- What is answered may be seen as something else that lies there too. -/
theorem Builds.mapLie {p : Parser β} {make : β → α} (hp : Builds tokens i moved hand p)
    (h : ∀ {j} b, Layout.Lie tokens i j (LaidOut.layouts b) →
      Layout.Lie tokens i j (LaidOut.layouts (make b))) :
    Builds tokens i moved hand (do return make (← p)) := by
  intro hordered setting s a n hs hmoved hhand hok
  obtain ⟨b, m, hb, hmake⟩ := bind_eq_ok.1 hok
  obtain ⟨rfl, rfl⟩ := pure_eq_ok.1 hmake
  exact h b (hp hordered hs hmoved hhand hb)

/-- The statements of a block lie where the block does. -/
theorem Layout.Lie.statements {b : Block} (h : Layout.Lie tokens i j (hand ++ LaidOut.layouts b)) :
    Layout.Lie tokens i j (hand ++ b.statements.map Statement.layout) := by
  obtain ⟨k, hfront, hback⟩ := h.of_append
  rw [layouts_block] at hback
  have hinside := hback.flatten
  rw [List.append_nil] at hinside
  exact hfront.append hinside

/-- The initializers of variables lie where the variables do. -/
theorem Layout.Lie.initializers {found : List VariableDecl}
    (h : Layout.Lie tokens i j (found.map VariableDecl.layout)) :
    Layout.Lie tokens i j ((found.filterMap VariableDecl.initializer).map Expression.layout) := by
  induction found generalizing i with
  | nil => exact h
  | cons v found ih =>
      obtain ⟨k, hown, hlater⟩ := h.of_cons
      have hboth := hown.flatten.append (ih hlater)
      cases hv : v.initializer with
      | none => simpa [hv] using hboth
      | some e => simpa [hv] using hboth

/-- A block whose statements are parts of the node around it. -/
theorem Builds.inside {p : Parser Block} {f : Block → Parser α} [Advances p] (hp : Lays tokens p)
    (h : ∀ b, Builds tokens i true (hand ++ b.statements.map Statement.layout) (f b)) :
    Builds tokens i moved hand (p >>= f) :=
  .takeStep hp fun b => .convert Layout.Lie.statements (h b)

end

/-- A statement of any sort but a loop with `do`. -/
theorem Statement.layout_of_ne {kind : Statement.Kind} (h : kind ≠ .doLoop) (label : Option String)
    (expressions : List Expression) (children : List Statement) (span : Span) :
    Statement.layout ⟨kind, label, expressions, children, span⟩ =
      .node span false (expressions.map Expression.layout ++ children.map Statement.layout) := by
  rw [Statement.layout, if_neg h, Statement.layoutAll_eq]

/-! ### Statements in which nothing is nested -/

section

variable {tokens : List Token} {i : Nat} {start : Position} {moved : Bool}

theorem forClause_lays (terminator : String) : Lays tokens (forClause terminator) := by
  refine .pass fun _ => .ite (.nothing rfl) (.pass fun _ => .pass fun _ => .ite (.pass fun _ => ?_) ?_)
  all_goals exact .map (expressionUntil_lays _) fun _ => by simp

theorem caseLabel_lays : Lays tokens caseLabel := by
  refine .pass fun _ => .ite ?_ (.pass fun _ => .ite (.nothing rfl) .unexpected)
  exact .map (.commaSeparated (expressionUntil_lays _)) fun _ => rfl

theorem resource_lays : Lays tokens resource := by
  refine .pass fun _ => .pass fun _ => .ite (.pass fun _ => ?_) ?_
  all_goals exact expressionUntil_lays _

theorem resources_lays : Lays tokens resources := by
  have hturn : Lays tokens (do
      if ← sees ")" then return Turn.stop
      else
        let expression ← resource
        if ← accept ";" then return Turn.take expression else return Turn.final expression) :=
    .pass fun _ => .ite (.nothing rfl) (.of_builds fun _ => .take resource_lays fun _ =>
      .pass fun _ => .ite (.give rfl) (.give rfl))
  exact .pass fun _ => .ite (.of_builds fun _ => .take (.gather hturn) fun _ => .pass fun _ =>
    .give (by simp)) (.nothing rfl)

theorem exitValue_lays : Lays tokens exitValue :=
  .pass fun _ => .ite (.nothing rfl) (.map (expressionUntil_lays _) fun _ => by simp)

section

variable (hstart : StartsAt tokens i start)

include hstart

/-- Variables are kept as their initializers. -/
theorem localVariables_builds : Builds tokens i moved [] (localVariables start) := by
  refine .step fun _ => .step fun _ => .declarators fun found => ?_
  rw [layouts_variables]
  refine .convert Layout.Lie.initializers (.pass fun _ => .wrap hstart fun _ => ?_)
  simp [Statement.layout_of_ne]

theorem expressionStatement_builds : Builds tokens i moved [] (expressionStatement start) :=
  .takeStep (expressionUntil_lays _) fun _ => .pass fun _ => .wrap hstart fun _ => by
    simp [Statement.layout_of_ne]

theorem exitStatement_builds {kind : Statement.Kind} (hkind : kind ≠ .doLoop) :
    Builds tokens i moved [] (exitStatement kind start) :=
  .pass fun _ => .take exitValue_lays fun _ => .step fun _ => .wrap hstart fun _ => by
    simp [Statement.layout_of_ne hkind]

theorem jumpStatement_builds {kind : Statement.Kind} (hkind : kind ≠ .doLoop) :
    Builds tokens i moved [] (jumpStatement kind start) :=
  .pass fun _ => .pass fun _ => .step fun _ => .wrap hstart fun _ => by
    simp [Statement.layout_of_ne hkind]

theorem assertStatement_builds : Builds tokens i moved [] (assertStatement start) :=
  .pass fun _ => .takeStep (expressionUntil_lays _) fun _ =>
    .take (.whenAccepted (expressionUntil_lays _)) fun _ => .pass fun _ => .wrap hstart fun _ => by
      simp [Statement.layout_of_ne]

/-- A semicolon that is ahead is the empty statement. -/
theorem emptyStatement_lie (hordered : Token.Ordered tokens) {setting : Setting} {s n : State}
    {a : Statement} (hs : s.OnWay tokens) (hi : i ≤ s.index) (hsees : s.sees ";" = true)
    (hok : emptyStatement start setting s = .ok a n) :
    Layout.Lie tokens i n.index (LaidOut.layouts a) := by
  obtain ⟨_, _, hadvance, hok⟩ := bind_eq_ok.1 hok
  cases hadvance
  have hwrap : Builds tokens i true [] (do
      return { kind := .empty, span := ← spanFrom start : Statement }) :=
    .wrap hstart fun _ => by simp [Statement.layout_of_ne]
  have hindex := State.index_advance_of_ne_nil (State.rest_ne_nil_of_sees hsees)
  exact hwrap hordered (hs.goes (State.goes_advance s)) (fun _ => by omega) (.nil (by omega)) hok

end

end

/-! ### Statements -/

/-- The parsers for what is nested one level deeper lay out what they answer.  A type lies from the
place on where its modifiers began. -/
structure Nested.Lays (tokens : List Token) (sub : Nested) : Prop where
  advances : sub.Advances
  statement : JavaOutline.Lays tokens sub.statement
  typeDecl : ∀ (i : Nat) (start : Position) (moved : Bool) (words : List String),
    StartsAt tokens i start → Builds tokens i moved [] (sub.typeDecl words start)

section

variable {tokens : List Token} {sub : Nested} (hsub : sub.Lays tokens)

include hsub

theorem blockStatements_lays : Lays tokens (blockStatements sub) := by
  have := hsub.advances
  exact .gather (.pass fun _ => .ite (.nothing rfl) (.ite (.pass fun _ => .nothing rfl)
    (.orSkip hsub.statement)))

theorem block_lays : Lays tokens (block sub) := by
  have := hsub.advances
  exact .opening fun _ _ hstart => .take (blockStatements_lays hsub) fun _ => .pass fun _ =>
    .wrap hstart fun _ => by simp

theorem caseStatements_lays : Lays tokens (caseStatements sub) := by
  have := hsub.advances
  exact .gather (.pass fun _ => .ite (.nothing rfl) (.ite .unexpected (.orSkip hsub.statement)))

theorem caseBody_lays : Lays tokens (caseBody sub) := by
  have := hsub.advances
  refine .of_builds fun _ => .take (.whenAccepted hsub.statement) fun found => ?_
  cases found with
  | some statement => exact .give (by simp)
  | none => exact .pass fun _ => .last (caseStatements_lays hsub)

theorem switchCase_lays : Lays tokens (switchCase sub) := by
  have := hsub.advances
  refine .here fun _ _ hstart => .takeStep caseLabel_lays fun label => ?_
  obtain ⟨label, expressions⟩ := label
  exact .take (caseBody_lays hsub) fun _ => .wrap hstart fun _ => by simp [Statement.layout_of_ne]

theorem catchClause_lays : Lays tokens (catchClause sub) := by
  have := hsub.advances
  refine .here fun _ _ hstart => .pass fun _ => .pass fun _ => .pass fun _ => .pass fun _ =>
    .pass fun _ => .pass fun _ => .pass fun _ => .inside (block_lays hsub) fun _ =>
    .wrap hstart fun _ => ?_
  simp [Statement.layout_of_ne]

theorem finallyClause_lays : Lays tokens (finallyClause sub) := by
  have := hsub.advances
  refine .here fun _ _ hstart => .pass fun _ => .ite ?_ (.give rfl)
  exact .inside (block_lays hsub) fun _ => .wrap hstart fun _ => by simp [Statement.layout_of_ne]

section

variable {i : Nat} {start : Position} (hstart : StartsAt tokens i start) {moved : Bool}

include hstart

theorem forStatement_builds : Builds tokens i moved [] (forStatement sub start) := by
  have := hsub.advances
  refine .step fun _ => .step fun _ => .pass fun _ => .ite ?_ ?_
  · refine .pass fun _ => .pass fun _ => .pass fun _ => .pass fun _ =>
      .take (expressionUntil_lays _) fun _ => .pass fun _ => .take hsub.statement fun _ =>
      .wrap hstart fun _ => ?_
    simp [Statement.layout_of_ne]
  · refine .take (forClause_lays _) fun _ => .pass fun _ => .take (forClause_lays _) fun _ =>
      .pass fun _ => .take (forClause_lays _) fun _ => .pass fun _ => .take hsub.statement fun _ =>
      .wrap hstart fun _ => ?_
    simp [Statement.layout_of_ne]

theorem switchStatement_builds : Builds tokens i moved [] (switchStatement sub start) := by
  have := hsub.advances
  have hturn : Lays tokens (do
      let s ← state
      if s.sees "\x7d" then return Turn.stop
      else if s.rest.isEmpty then unexpected "'\x7d'"
      else return Turn.take (← switchCase sub)) :=
    .pass fun _ => .ite (.nothing rfl) (.ite .unexpected (.map (switchCase_lays hsub) fun _ => rfl))
  exact .step fun _ => .take parenthesized_lays fun _ => .pass fun _ => .take (.gather hturn) fun _ =>
    .pass fun _ => .wrap hstart fun _ => by simp [Statement.layout_of_ne]

theorem tryStatement_builds : Builds tokens i moved [] (tryStatement sub start) := by
  have := hsub.advances
  have hturn : Lays tokens (do
      if ← sees "catch" then return Turn.take (← catchClause sub) else return Turn.stop) :=
    .pass fun _ => .ite (.map (catchClause_lays hsub) fun _ => rfl) (.nothing rfl)
  refine .step fun _ => .take resources_lays fun _ => .take (block_lays hsub) fun _ =>
    .take (.gather hturn) fun _ => .take (finallyClause_lays hsub) fun _ => .ite .unexpected
      (.wrap hstart fun _ => ?_)
  simp [Statement.layout_of_ne]

theorem ifStatement_builds : Builds tokens i moved [] (ifStatement sub start) := by
  have := hsub.advances
  exact .pass fun _ => .takeStep parenthesized_lays fun _ => .take hsub.statement fun _ =>
    .take (.whenAccepted hsub.statement) fun _ => .wrap hstart fun _ => by
      simp [Statement.layout_of_ne]

theorem whileStatement_builds : Builds tokens i moved [] (whileStatement sub start) := by
  have := hsub.advances
  exact .pass fun _ => .takeStep parenthesized_lays fun _ => .take hsub.statement fun _ =>
    .wrap hstart fun _ => by simp [Statement.layout_of_ne]

/-- Here the condition lies behind the body. -/
theorem doStatement_builds : Builds tokens i moved [] (doStatement sub start) := by
  have := hsub.advances
  exact .pass fun _ => .takeStep hsub.statement fun _ => .pass fun _ =>
    .take parenthesized_lays fun _ => .pass fun _ => .wrap hstart fun _ => by
      simp [Statement.layout, Statement.layoutAll_eq]

theorem synchronizedStatement_builds :
    Builds tokens i moved [] (synchronizedStatement sub start) := by
  have := hsub.advances
  exact .pass fun _ => .takeStep parenthesized_lays fun _ => .inside (block_lays hsub) fun _ =>
    .wrap hstart fun _ => by simp [Statement.layout_of_ne]

/-- The parser may go back to where it began on the way, and then reads an expression from there. -/
theorem declarationOrExpression_builds (hordered : Token.Ordered tokens) {setting : Setting}
    {s n : State} {a : Statement} (hs : s.OnWay tokens) (hi : i ≤ s.index)
    (hok : declarationOrExpression sub start setting s = .ok a n) :
    Layout.Lie tokens i n.index (LaidOut.layouts a) := by
  have := hsub.advances
  have hgo {p : Parser Statement} (hp : Builds tokens i false [] p) {m : State}
      (hm : s.Goes m) (hok : p setting m = .ok a n) :
      Layout.Lie tokens i n.index (LaidOut.layouts a) :=
    hp hordered (hs.goes hm) nofun (.nil (Nat.le_trans hi hm.index_le)) hok
  obtain ⟨place, _, hplace, hok⟩ := bind_eq_ok.1 hok
  cases hplace
  split at hok
  · refine hgo (p := _) ?_ (.refl s) hok
    exact .step fun _ => .pass fun _ => .take hsub.statement fun _ => .wrap hstart fun _ => by
      simp [Statement.layout_of_ne]
  · obtain ⟨words, m, hwords, hok⟩ := bind_eq_ok.1 hok
    have hm := Moves.of_ok hwords
    obtain ⟨_, _, hstate, hok⟩ := bind_eq_ok.1 hok
    cases hstate
    split at hok
    · refine hgo (p := _) ?_ hm hok
      refine (hsub.typeDecl _ _ _ words hstart).mapLie fun decl hlie => ?_
      obtain ⟨_, _, _, _, _, _, members, span⟩ := decl
      rw [layouts_statement, Statement.layout_of_ne (by decide)]
      have hdecl : Layout.Lie tokens _ _ [.node span false (Member.layoutAll members)] := hlie
      exact hdecl.bare
    · obtain ⟨declares, m', hlook, hok⟩ := bind_eq_ok.1 hok
      have hm' := hm.trans (Moves.of_ok hlook)
      split at hok
      · exact hgo (localVariables_builds hstart) hm' hok
      · split at hok
        · cases hok
        · obtain ⟨_, _, hback, hok⟩ := bind_eq_ok.1 hok
          cases hback
          have hthere : s.Goes { m' with index := s.index, last := s.last, rest := s.rest } :=
            ⟨hm'.depth, State.Reaches.refl s⟩
          exact hgo (expressionStatement_builds hstart) hthere hok

end

/-- **A statement is laid out**, whatever it begins with. -/
theorem statementBody_lays : Lays tokens (statementBody sub) := by
  have := hsub.advances
  refine .here fun i start hstart => ?_
  intro hordered setting s a n hs _ hhand hok
  obtain ⟨_, _, hstate, hok⟩ := bind_eq_ok.1 hok
  cases hstate
  have hblock : Builds tokens i false [] (blockStatement sub) :=
    .last (.map (block_lays hsub) fun _ => by simp [Statement.layout_of_ne])
  by_cases hbrace : s.sees "\x7b" = true
  · rw [if_pos hbrace] at hok
    exact hblock hordered hs nofun hhand hok
  rw [if_neg hbrace] at hok
  by_cases hempty : s.sees ";" = true
  · rw [if_pos hempty] at hok
    exact emptyStatement_lie hstart hordered hs hhand.le hempty hok
  rw [if_neg hempty] at hok
  have hother : Builds tokens i false [] (declarationOrExpression sub start) :=
    fun hordered {_ _ _ _} hs _ hhand hok =>
      declarationOrExpression_builds hsub hstart hordered hs hhand.le hok
  refine Builds.ite (ifStatement_builds hsub hstart) (.ite (whileStatement_builds hsub hstart)
    (.ite (doStatement_builds hsub hstart) (.ite (forStatement_builds hsub hstart)
    (.ite (switchStatement_builds hsub hstart) (.ite (tryStatement_builds hsub hstart)
    (.ite (synchronizedStatement_builds hsub hstart)
    (.ite (exitStatement_builds hstart (by decide)) (.ite (exitStatement_builds hstart (by decide))
    (.ite (jumpStatement_builds hstart (by decide)) (.ite (jumpStatement_builds hstart (by decide))
    (.ite (assertStatement_builds hstart) hother))))))))))) hordered hs nofun hhand hok

/-! ### Members -/

omit hsub in
theorem parameter_lays : Lays tokens parameter :=
  .here fun _ _ hstart => .pass fun _ => .step fun _ => .pass fun _ => .pass fun _ =>
    .wrap hstart fun _ => rfl

omit hsub in
theorem parameters_lays : Lays tokens parameters :=
  .pass fun _ => .pass fun _ => .ite (.nothing rfl) (.of_builds fun _ =>
    .take (.commaSeparated parameter_lays) fun _ => .pass fun _ => .give (by simp))

omit hsub in
/-- A group ends with its closer. -/
theorem groupLength?_closer {opener closer : String} {depth n : Nat} {tokens : List Token}
    (h : groupLength? opener closer depth tokens = some (n + 1)) :
    ∃ t, tokens[n]? = some t ∧ t.is closer = true := by
  have hlater {t : Token} {ts : List Token} {found : Option Nat} {n : Nat}
      (ih : ∀ {m}, found = some (m + 1) → ∃ t, ts[m]? = some t ∧ t.is closer = true)
      (hpos : ∀ {m}, found = some m → 0 < m) (hmap : found.map (· + 1) = some (n + 1)) :
      ∃ u, (t :: ts)[n]? = some u ∧ u.is closer = true := by
    obtain ⟨m, hm, hn⟩ := Option.map_eq_some_iff.1 hmap
    obtain ⟨m, rfl⟩ : ∃ k, m = k + 1 := ⟨m - 1, by have := hpos hm; omega⟩
    obtain rfl : n = m + 1 := by omega
    exact ih hm
  fun_induction groupLength? opener closer depth tokens generalizing n with
  | case1 => cases h
  | case2 depth t ts hopens ih => exact hlater ih (fun hm => (groupLength?_pos hm).1) h
  | case3 t ts hopens hcloses =>
      cases h
      exact ⟨t, rfl, hcloses⟩
  | case4 t ts hopens hcloses depth ih => exact hlater ih (fun hm => (groupLength?_pos hm).1) h
  | case5 depth t ts hopens hcloses ih => exact hlater ih (fun hm => (groupLength?_pos hm).1) h

omit hsub in
/-- A body that is passed over lies between its braces. -/
theorem bracketed_lie {setting : Setting} {s n : State} {span : Span} (hs : s.OnWay tokens)
    (hsees : s.sees "\x7b" = true)
    (hok : bracketed "\x7b" "\x7d" setting s = .ok span n) :
    Layout.Lie tokens s.index n.index [.node span true []] := by
  obtain ⟨k, hk, rfl, rfl⟩ := groupLength_of_bracketed hok
  obtain ⟨hpos, hle⟩ := groupLength?_pos hk
  obtain ⟨k, rfl⟩ : ∃ m, k = m + 1 := ⟨k - 1, by omega⟩
  obtain ⟨last, hlast, hcloses⟩ := groupLength?_closer hk
  -- The opener is the token ahead, and the group begins behind it.
  obtain ⟨first, hfirst, hopens⟩ : ∃ t, tokens[s.index]? = some t ∧ t.is "\x7b" = true := by
    rw [hs.getElem?_index]
    exact (Option.any_eq_true _ _).1 hsees
  have hindex : s.advance.index = s.index + 1 :=
    State.index_advance_of_ne_nil (State.rest_ne_nil_of_sees hsees)
  have hinside := hs.goes (State.goes_advance s)
  rw [← hinside.drop_eq, List.getElem?_drop, hindex] at hlast
  have hend : (s.advance.skip (k + 1)).index = s.index + 1 + k + 1 := by
    rw [State.index_skip hle, hindex]
    omega
  obtain ⟨t, ht, hbehind⟩ := (hinside.goes (State.goes_skip (k + 1) _)).last_eq hend
  obtain rfl := Option.some.inj (hlast.symm.trans ht)
  have hhere : setting.here s = first.span.start := by
    rw [hs.getElem?_index] at hfirst
    obtain ⟨ts, hts⟩ := List.head?_eq_some_iff.1 hfirst
    simp [Setting.here, hts]
  rw [hhere, hbehind, hend]
  exact .cons (Nat.le_refl _) (by omega) hfirst hlast (fun _ => ⟨hopens, hcloses⟩)
    (.nil (by omega)) (.nil (Nat.le_refl _))

theorem body_lays : Lays tokens (body sub) := by
  have := hsub.advances
  intro hordered setting s b n hs hok
  obtain ⟨seen, _, hsees, hok⟩ := bind_eq_ok.1 hok
  cases hsees
  split at hok
  · rename_i hsees
    obtain ⟨diet, _, hdiet, hok⟩ := bind_eq_ok.1 hok
    cases hdiet
    split at hok
    · obtain ⟨span, m, hspan, hok⟩ := bind_eq_ok.1 hok
      obtain ⟨rfl, rfl⟩ := pure_eq_ok.1 hok
      exact bracketed_lie hs hsees hspan
    · have hmap : Lays tokens (do return Body.parsed (← block sub)) :=
        Lays.map (block_lays hsub) fun _ => rfl
      exact hmap hordered hs hok
  · cases hok

theorem methodBody_lays : Lays tokens (methodBody sub) :=
  .pass fun _ => .ite (.nothing rfl) (body_lays hsub)

section

variable {i : Nat} {start : Position} (hstart : StartsAt tokens i start) {moved : Bool}

include hstart

theorem initializerMember_builds : Builds tokens i moved [] (initializerMember sub start) := by
  have := hsub.advances
  exact .pass fun _ => .takeStep (body_lays hsub) fun _ => .wrap hstart fun _ => by
    simp [Member.layout, InitializerDecl.layout]

omit hstart

theorem methodRest_builds {head : MethodHead} (hstart : StartsAt tokens i head.start) :
    Builds tokens i moved [] (methodRest sub head) := by
  have := hsub.advances
  exact .takeStep parameters_lays fun _ => .pass fun _ => .pass fun _ => .pass fun _ =>
    .take (methodBody_lays hsub) fun _ => .wrap hstart fun _ => by
      simp [Member.layout, MethodDecl.layout]

theorem compactConstructor_builds {head : MethodHead} (hstart : StartsAt tokens i head.start) :
    Builds tokens i moved [] (compactConstructor sub head) := by
  have := hsub.advances
  exact .takeStep (body_lays hsub) fun _ => .wrap hstart fun _ => by
    simp [Member.layout, MethodDecl.layout]

include hstart

theorem typedMember_builds (words : List String) (typeParameters : Option String) :
    Builds tokens i moved [] (typedMember sub words typeParameters start) := by
  have := hsub.advances
  exact .step fun _ => .step fun _ => .pass fun _ => .ite (methodRest_builds hsub hstart)
    (.declarators fun _ => .pass fun _ => .wrap hstart fun _ => by
      simp [Member.layout, FieldDecl.layout])

end

theorem member_lays (typeName : String) : Lays tokens (member sub typeName) := by
  have := hsub.advances
  refine .here fun i start hstart => .pass fun _ =>
    .ite (initializerMember_builds hsub hstart) (.pass fun words => .pass fun _ => .ite ?_ ?_)
  · exact Builds.map (hsub.typeDecl _ _ _ words hstart) fun _ => rfl
  · exact .pass fun _ => .pass fun _ => .ite (.pass fun _ => methodRest_builds hsub hstart)
      (.ite (.pass fun _ => compactConstructor_builds hsub hstart)
        (typedMember_builds hsub hstart words _))

theorem members_lays (typeName : String) : Lays tokens (members sub typeName) := by
  have := hsub.advances
  exact .gather (.pass fun _ => .ite (.nothing rfl) (.ite (.pass fun _ => .nothing rfl)
    (.pass fun _ => .ite (.nothing rfl) (.orSkip (member_lays hsub typeName)))))

/-! ### Types -/

theorem classBody_lays (typeName : String) : Lays tokens (classBody sub typeName) := by
  have := hsub.advances
  exact .of_builds fun _ => .pass fun _ => .take (members_lays hsub typeName) fun _ =>
    .pass fun _ => .give (by simp)

theorem constantBody_lays (name : String) : Lays tokens (constantBody sub name) := by
  have := hsub.advances
  exact .here fun _ _ hstart => .pass fun _ => .ite
    (.takeStep (classBody_lays hsub name) fun _ => .wrap hstart fun _ => by
      simp [TypeDecl.layout, Member.layoutAll_eq])
    (.give rfl)

omit hsub in
theorem constantArguments_lays : Lays tokens constantArguments :=
  .pass fun _ => .ite arguments_lays (.nothing rfl)

theorem enumConstant_lays : Lays tokens (enumConstant sub) := by
  have := hsub.advances
  refine .here fun _ _ hstart => .step fun name => .take constantArguments_lays fun _ =>
    .take (constantBody_lays hsub name) fun body => .wrap hstart fun _ => ?_
  cases body with
  | none => simp [Member.layout]
  | some body => simp [Member.layout]

theorem enumConstants_lays : Lays tokens (enumConstants sub) := by
  have := hsub.advances
  exact .gather (.pass fun _ => .pass fun _ => .ite (.nothing rfl) (.of_builds fun _ =>
    .take (enumConstant_lays hsub) fun _ => .pass fun _ => .ite (.give rfl)
      (.pass fun _ => .ite (.give rfl) .unexpected)))

theorem enumBody_lays (typeName : String) : Lays tokens (enumBody sub typeName) := by
  have := hsub.advances
  exact .of_builds fun _ => .pass fun _ => .take (enumConstants_lays hsub) fun _ =>
    .take (members_lays hsub typeName) fun _ => .pass fun _ => .give (by simp)

theorem typeBody_lays (kind : TypeDecl.Kind) (typeName : String) :
    Lays tokens (typeBody sub kind typeName) :=
  .ite (enumBody_lays hsub typeName) (classBody_lays hsub typeName)

theorem typeDeclBody_builds {i : Nat} {start : Position} (hstart : StartsAt tokens i start)
    {moved : Bool} (words : List String) :
    Builds tokens i moved [] (typeDeclBody sub words start) := by
  have := hsub.advances
  refine .pass fun kind => .step fun name => .pass fun _ => .pass fun _ => .ite (.pass fun _ => ?_) ?_
  -- With the components of a record or without, the rest of the declaration is the same.
  all_goals
    refine .pass fun supertypes => ?_
    obtain ⟨superclass, interfaces⟩ := supertypes
    exact .pass fun _ => .take (typeBody_lays hsub kind name) fun _ => .wrap hstart fun _ => by
      simp [TypeDecl.layout, Member.layoutAll_eq]

end

/-! ### The levels of nesting -/

/-- **Statements and types are laid out at every level.** -/
theorem nestedAt_lays (tokens : List Token) (level : Nat) : (nestedAt level).Lays tokens := by
  induction level with
  | zero =>
      refine ⟨inferInstance, ?_, fun i start moved words _ => ?_⟩
      · exact Lays.guarded .tooDeep
      · exact Builds.guarded (.last .tooDeep)
  | succ level ih =>
      refine ⟨inferInstance, ?_, fun i start moved words hstart => ?_⟩
      · exact (statementBody_lays ih).guarded
      · exact (typeDeclBody_builds ih hstart words).guarded

/-! ### Units -/

section

variable {tokens : List Token}

theorem packageDecl_lays : Lays tokens packageDecl :=
  .opening fun _ _ hstart => .pass fun _ => .pass fun _ => .wrap hstart fun _ => rfl

theorem importDecl_lays : Lays tokens importDecl :=
  .opening fun _ _ hstart => .pass fun _ => .pass fun _ => .pass fun _ => .pass fun _ =>
    .wrap hstart fun _ => rfl

theorem packageClause_lays : Lays tokens packageClause :=
  .pass fun _ => .ite (.orRecover packageDecl_lays) (.nothing rfl)

theorem importClauses_lays : Lays tokens importClauses := by
  refine .gather (.pass fun _ => .ite (.of_builds fun _ => .take (.orRecover importDecl_lays)
    fun found => ?_) (.nothing rfl))
  cases found with
  | some decl => exact .give (by simp [LaidOut.layouts])
  | none => exact .give rfl

theorem topLevelType_lays : Lays tokens topLevelType :=
  .here fun _ _ hstart => .pass fun words =>
    (nestedAt_lays tokens maxNesting).typeDecl _ _ _ words hstart

theorem topLevelTypes_lays : Lays tokens topLevelTypes :=
  .gather (.pass fun _ => .ite (.nothing rfl) (.pass fun _ => .ite (.nothing rfl)
    (.orSkip topLevelType_lays)))

end

/-! ### Units are always read -/

namespace Parser

variable {α β : Type}

/-- A parser that never fails. -/
class Answers (p : Parser α) : Prop where
  answers : ∀ setting s, ∃ a n, p setting s = .ok a n

instance (a : α) : Answers (Pure.pure a : Parser α) where
  answers _ s := ⟨a, s, rfl⟩

instance (p : Parser α) (f : α → Parser β) [Answers p] [∀ a, Answers (f a)] :
    Answers (p >>= f) where
  answers setting s := by
    obtain ⟨a, m, hp⟩ := Answers.answers (p := p) setting s
    obtain ⟨b, n, hf⟩ := Answers.answers (p := f a) setting m
    exact ⟨b, n, bind_eq_ok.2 ⟨a, m, hp, hf⟩⟩

instance (priority := low) (p : Parser (Option α)) (f : Option α → Parser β) [Answers p]
    [Answers (f none)] [∀ a, Answers (f (some a))] : Answers (p >>= f) := by
  have : ∀ value, Answers (f value) := by
    intro value
    cases value <;> infer_instance
  infer_instance

instance (c : Prop) [Decidable c] (p q : Parser α) [hp : Answers p] [hq : Answers q] :
    Answers (if c then p else q) := by
  split
  · exact hp
  · exact hq

instance : Answers here where
  answers setting s := ⟨setting.here s, s, rfl⟩

instance (start : Position) : Answers (spanFrom start) where
  answers _ s := ⟨s.spanFrom start, s, rfl⟩

instance : Answers state where
  answers _ s := ⟨s, s, rfl⟩

instance (text : String) : Answers (sees text) where
  answers _ s := ⟨s.sees text, s, rfl⟩

instance (text : String) : Answers (accept text) where
  answers _ s := by
    unfold accept
    split
    · exact ⟨true, s.advance, rfl⟩
    · exact ⟨false, s, rfl⟩

instance (p : Parser Unit) : Answers (orReport p) where
  answers setting s := by
    unfold orReport
    split
    · exact ⟨_, _, rfl⟩
    · exact ⟨_, _, rfl⟩

instance (p : Parser α) : Answers (orRecover p) where
  answers setting s := by
    unfold orRecover
    split
    · exact ⟨_, _, rfl⟩
    · exact ⟨_, _, rfl⟩

instance (p : Parser α) : Answers (orSkip p) where
  answers setting s := by
    unfold orSkip
    split
    · exact ⟨_, _, rfl⟩
    · exact ⟨_, _, rfl⟩

instance (turn : Parser (Turn α)) [Answers turn] (fuel : Nat) : Answers (collect turn fuel) := by
  induction fuel with
  | zero => exact inferInstanceAs (Answers (Pure.pure []))
  | succ fuel ih =>
      have hbehind (value : Turn α) : Answers (behindTurn (collect turn fuel) value) := by
        cases value <;> unfold behindTurn <;> infer_instance
      exact inferInstanceAs (Answers (turn >>= behindTurn (collect turn fuel)))

instance (turn : Parser (Turn α)) [Answers turn] : Answers (gather turn) where
  answers setting s := by
    rw [gather_eq_collect]
    exact Answers.answers setting s

end Parser

open JavaOutline.Parser (Answers)

instance : Answers packageClause := by
  unfold packageClause
  infer_instance

instance : Answers importClauses := by
  unfold importClauses
  infer_instance

instance : Answers topLevelTypes := by
  unfold topLevelTypes
  infer_instance

/-- **A unit is read whatever the tokens are.** -/
instance : Answers compilationUnit := by
  unfold compilationUnit
  infer_instance

/-- **The declarations of a unit lie one behind another on its tokens.** -/
theorem compilationUnit_lie {tokens : List Token} (hordered : Token.Ordered tokens)
    (setting : Setting) :
    ∃ o n, compilationUnit setting { rest := tokens } = .ok o n ∧ n.OnWay tokens ∧
      o.span = n.spanFrom (setting.here { rest := tokens }) ∧
      Layout.Lie tokens 0 n.index o.parts := by
  obtain ⟨o, n, hok⟩ := Answers.answers (p := compilationUnit) setting { rest := tokens }
  have hs₀ : State.OnWay tokens { rest := tokens } := State.Reaches.refl _
  refine ⟨o, n, hok, hs₀.goes (Moves.of_ok hok), ?_⟩
  obtain ⟨start, _, hstart, hok⟩ := bind_eq_ok.1 hok
  cases hstart
  obtain ⟨_, s, hannotations, hok⟩ := bind_eq_ok.1 hok
  obtain ⟨package, s₁, hpackage, hok⟩ := bind_eq_ok.1 hok
  obtain ⟨imports, s₂, himports, hok⟩ := bind_eq_ok.1 hok
  obtain ⟨types, s₃, htypes, hok⟩ := bind_eq_ok.1 hok
  obtain ⟨span, _, hspan, hok⟩ := bind_eq_ok.1 hok
  cases hspan
  obtain ⟨rfl, rfl⟩ := pure_eq_ok.1 hok
  have hs := hs₀.goes (Moves.of_ok hannotations)
  have hs₁ := hs.goes (Moves.of_ok hpackage)
  have hs₂ := hs₁.goes (Moves.of_ok himports)
  refine ⟨rfl, ?_⟩
  have hlie := ((packageClause_lays hordered hs hpackage).append
    (importClauses_lays hordered hs₁ himports)).append (topLevelTypes_lays hordered hs₂ htypes)
  simp only [layouts_package?, layouts_imports, layouts_types] at hlie
  exact hlie.mono (Nat.zero_le _) (Nat.le_refl _)

end JavaOutline
