/-
**The punctuation of a loop header.**

The expressions of a counting loop are the ends of the three parts of its own header exactly if no head
leaves its part and no colon of the first part makes it the header of a loop over a collection.

Main definitions:

* `LoopHeader`, `Parser.State.AtLoop` — the parts of a header, and a loop with this header is ahead;
* `LoopHeader.KeepsHeads` — the heads stay inside, and no colon stands outside of the brackets;
* `LoopHeader.Delimits` — a loop has the ends of the parts as its expressions, and one body.

Main results:

* `forStatement_of_keepsHeads`, `keepsHeads_of_forStatement` — how a loop is read part by part;
* `forLoop_iff` — **a loop is delimited by its own punctuation exactly if the heads stay inside and no
  colon stands outside**.
-/

import JavaOutline.Proofs.ClauseHeads

set_option autoImplicit false

namespace JavaOutline

open JavaOutline.Parser

/-! ### Loops -/

/-- The three parts of the header of a loop. -/
structure LoopHeader where
  init : Clause
  condition : Clause
  update : Clause

namespace LoopHeader

variable (h : LoopHeader)

/-- How many tokens stand in front of the second part. -/
def toCondition : Nat := 2 + h.init.tokens.length + 1

/-- How many tokens stand in front of the third part. -/
def toUpdate : Nat := h.toCondition + h.condition.tokens.length + 1

/-- How many tokens stand in front of the body. -/
def toBody : Nat := h.toUpdate + h.update.tokens.length + 1

/-- The loop ahead is read part by part: its header is none of a loop over a collection, and the head of
each part stays inside. -/
structure KeepsHeads (setting : Setting) (s : State) : Prop where
  colons : ∀ t, Outside 0 t h.init.tokens → t.is ":" = false
  init : h.init.KeepsHead setting (s.skip 2)
  condition : h.condition.KeepsHead setting (s.skip h.toCondition)
  update : h.update.KeepsHead setting (s.skip h.toUpdate)

/-- The expressions of a loop are the ends of the parts of its header, and it has one body. -/
structure Delimits (loop : Statement) (body : Statement) : Prop where
  kind : loop.kind = .forLoop
  expressions : ∃ e₁ e₂ e₃, loop.expressions = [e₁, e₂, e₃] ∧ h.init.EndsWith e₁ ∧
    h.condition.EndsWith e₂ ∧ h.update.EndsWith e₃
  children : loop.children = [body]

end LoopHeader

/-- A loop with this header is ahead. -/
def Parser.State.AtLoop (s : State) (h : LoopHeader) : Prop :=
  ∃ word opening first second closing after,
    s.rest = word :: opening :: (h.init.tokens ++ first :: (h.condition.tokens ++
      second :: (h.update.tokens ++ closing :: after))) ∧
    word.is "for" = true ∧ opening.is "(" = true ∧ first.is ";" = true ∧ second.is ";" = true ∧
    closing.is ")" = true

namespace Clause

variable (c : Clause)

theorem not_semicolon : ∀ t, Outside 0 t c.tokens → t.is ";" = false := c.semicolons

theorem not_closing : ∀ t, Outside 0 t c.tokens → t.is ")" = false :=
  not_closer_outside c.brackets (by decide)

/-- A header is none of a loop over a collection exactly if no colon stands outside of the brackets of
its first part. -/
theorem isForEachHeader_iff {stop : Token} {after : List Token} (hstop : stop.is ";" = true) :
    isForEachHeader 0 (c.tokens ++ stop :: after) = false ↔
      ∀ t, Outside 0 t c.tokens → t.is ":" = false := by
  have hiff : isForEachHeader 0 (c.tokens ++ stop :: after) = true ↔ _ :=
    isForEachHeader_append (stop :: after) c.nests c.not_semicolon
  have hopens : ¬ stop.opens = true := fun hopens => by
    rw [Token.is_of_isAny hopens (by decide)] at hstop
    cases hstop
  have hcloses : ¬ stop.closes = true := fun hcloses => by
    rw [Token.is_of_isAny hcloses (by decide)] at hstop
    cases hstop
  have hstops : isForEachHeader 0 (stop :: after) = false := by
    simp [isForEachHeader, hopens, hcloses, hstop]
  rw [← Bool.not_eq_true, hiff, hstops]
  simp

end Clause

theorem Parser.State.advance_skip (n : Nat) (s : State) : (s.skip n).advance = s.skip (n + 1) :=
  skip_skip n 1 s

section

variable {setting : Setting} {s next : State} {h : LoopHeader} {sub : Nested} {start : Position}
  {body : Statement}

/-- Behind some tokens and the token that ends them. -/
theorem expect_behind (setting : Setting) {n : Nat} {tokens after : List Token} {stop : Token}
    {text : String} (hrest : (s.skip n).rest = tokens ++ stop :: after) (hstop : stop.is text = true) :
    expect text setting (s.skip (n + tokens.length)) = .ok stop.span (s.skip (n + tokens.length + 1)) ∧
      (s.skip (n + tokens.length + 1)).rest = after := by
  have hahead : (s.skip (n + tokens.length)).rest = stop :: after := by
    rw [← State.skip_skip]
    exact State.rest_skip hrest
  rw [← State.advance_skip]
  exact ⟨expect_of_is hahead hstop, State.rest_advance hahead⟩

/-- The header ahead is passed up to its first part. -/
theorem Parser.State.AtLoop.opening (hs : s.AtLoop h) {α : Type} (f : State → Parser α) :
    (do let _ ← expect "for"; let _ ← expect "("; let header ← state; f header) setting s =
      f (s.skip 2) setting (s.skip 2) := by
  obtain ⟨word, opening, _, _, _, _, hrest, hword, hopening, -⟩ := hs
  rw [bind_of_ok (expect_of_is hrest hword),
    bind_of_ok (expect_of_is (State.rest_advance hrest) hopening)]
  rfl

/-- Where the parts of the header ahead stand, and what ends them. -/
theorem Parser.State.AtLoop.places (hs : s.AtLoop h) (setting : Setting) :
    (∃ stop after, (s.skip 2).rest = h.init.tokens ++ stop :: after ∧ stop.is ";" = true ∧
      expect ";" setting (s.skip (2 + h.init.tokens.length)) =
        .ok stop.span (s.skip h.toCondition)) ∧
    (∃ stop after, (s.skip h.toCondition).rest = h.condition.tokens ++ stop :: after ∧
      stop.is ";" = true ∧
      expect ";" setting (s.skip (h.toCondition + h.condition.tokens.length)) =
        .ok stop.span (s.skip h.toUpdate)) ∧
    (∃ stop after, (s.skip h.toUpdate).rest = h.update.tokens ++ stop :: after ∧
      stop.is ")" = true ∧
      expect ")" setting (s.skip (h.toUpdate + h.update.tokens.length)) =
        .ok stop.span (s.skip h.toBody)) := by
  obtain ⟨word, opening, first, second, closing, after, hrest, -, -, hfirst, hsecond, hclosing⟩ := hs
  have hinit : (s.skip 2).rest = h.init.tokens ++ first :: (h.condition.tokens ++
      second :: (h.update.tokens ++ closing :: after)) :=
    State.rest_advance (State.rest_advance hrest)
  obtain ⟨hexpect₁, hcondition⟩ := expect_behind setting hinit hfirst
  obtain ⟨hexpect₂, hupdate⟩ := expect_behind setting hcondition hsecond
  obtain ⟨hexpect₃, -⟩ := expect_behind setting hupdate hclosing
  exact ⟨⟨first, _, hinit, hfirst, hexpect₁⟩, ⟨second, _, hcondition, hsecond, hexpect₂⟩,
    closing, _, hupdate, hclosing, hexpect₃⟩

/-- **A loop whose header keeps the heads is read with the ends of its own parts.** -/
theorem forStatement_of_keepsHeads (hs : s.AtLoop h) (hheads : h.KeepsHeads setting s)
    (hbody : sub.statement setting (s.skip h.toBody) = .ok body next) :
    ∃ loop, forStatement sub start setting s = .ok loop next ∧ h.Delimits loop body := by
  obtain ⟨⟨_, _, hinit, hfirst, hexpect₁⟩, ⟨_, _, hcondition, hsecond, hexpect₂⟩,
    _, _, hupdate, hclosing, hexpect₃⟩ := hs.places setting
  obtain ⟨e₁, hclause₁, hends₁⟩ :=
    forClause_of_keepsHead hheads.init h.init.not_semicolon hinit hfirst
  obtain ⟨e₂, hclause₂, hends₂⟩ :=
    forClause_of_keepsHead hheads.condition h.condition.not_semicolon hcondition hsecond
  obtain ⟨e₃, hclause₃, hends₃⟩ :=
    forClause_of_keepsHead hheads.update h.update.not_closing hupdate hclosing
  rw [State.skip_skip] at hclause₁ hclause₂ hclause₃
  have hcounting : ¬ isForEachHeader 0 (s.skip 2).rest = true := by
    rw [hinit, (h.init.isForEachHeader_iff hfirst).2 hheads.colons]
    exact Bool.false_ne_true
  refine ⟨{ kind := .forLoop, expressions := [e₁, e₂, e₃], children := [body]
            span := next.spanFrom start }, ?_, rfl, ⟨e₁, e₂, e₃, rfl, hends₁, hends₂, hends₃⟩, rfl⟩
  unfold forStatement
  rw [hs.opening, if_neg hcounting, bind_of_ok hclause₁, bind_of_ok hexpect₁,
    bind_of_ok hclause₂, bind_of_ok hexpect₂, bind_of_ok hclause₃, bind_of_ok hexpect₃,
    bind_of_ok hbody]
  rfl

/-- **A loop that is read with the ends of its own parts keeps the heads**, and its body is what is
read behind the header. -/
theorem keepsHeads_of_forStatement {loop : Statement} (hordered : Token.Ordered s.rest)
    (hs : s.AtLoop h) (hok : forStatement sub start setting s = .ok loop next)
    (hloop : h.Delimits loop body) :
    h.KeepsHeads setting s ∧ sub.statement setting (s.skip h.toBody) = .ok body next := by
  obtain ⟨⟨_, _, hinit, hfirst, hexpect₁⟩, ⟨_, _, hcondition, hsecond, hexpect₂⟩,
    _, _, hupdate, hclosing, hexpect₃⟩ := hs.places setting
  obtain ⟨hkind, ⟨e₁, e₂, e₃, hexpressions, hends₁, hends₂, hends₃⟩, hchildren⟩ := hloop
  unfold forStatement at hok
  rw [hs.opening] at hok
  split at hok
  · -- A loop over a collection is of another kind.
    iterate 8 obtain ⟨_, _, -, hok⟩ := bind_eq_ok.1 hok
    obtain ⟨rfl, -⟩ := pure_eq_ok.1 hok
    cases hkind
  · rename_i hcounting
    have hcolons : ∀ t, Outside 0 t h.init.tokens → t.is ":" = false := by
      rw [hinit] at hcounting
      exact (h.init.isForEachHeader_iff hfirst).1 (Bool.eq_false_iff.2 hcounting)
    obtain ⟨found₁, m₁, hclause₁, hok⟩ := bind_eq_ok.1 hok
    obtain ⟨_, k₁, hpass₁, hok⟩ := bind_eq_ok.1 hok
    obtain ⟨found₂, m₂, hclause₂, hok⟩ := bind_eq_ok.1 hok
    obtain ⟨_, k₂, hpass₂, hok⟩ := bind_eq_ok.1 hok
    obtain ⟨found₃, m₃, hclause₃, hok⟩ := bind_eq_ok.1 hok
    obtain ⟨_, k₃, hpass₃, hok⟩ := bind_eq_ok.1 hok
    obtain ⟨body', m, hbody, hok⟩ := bind_eq_ok.1 hok
    obtain ⟨span, _, hspan, hok⟩ := bind_eq_ok.1 hok
    cases hspan
    obtain ⟨rfl, rfl⟩ := pure_eq_ok.1 hok
    cases hchildren
    have hordered' (n : Nat) : Token.Ordered (s.skip n).rest :=
      hordered.sublist (s.rest_skip_suffix n).sublist
    -- Each part ends where it should, so the next one begins where it should.
    obtain ⟨x₁, rfl⟩ := forClause_single h.init.not_semicolon hinit hclause₁
    obtain ⟨rfl, hexpressions⟩ : x₁ = e₁ ∧ found₂ ++ found₃ = [e₂, e₃] := by
      simpa using hexpressions
    obtain ⟨hinit, rfl⟩ := keepsHead_of_forClause (hordered' _) h.init.not_semicolon hinit hclause₁ hends₁
    rw [State.skip_skip, hexpect₁] at hpass₁
    cases hpass₁
    obtain ⟨x₂, rfl⟩ := forClause_single h.condition.not_semicolon hcondition hclause₂
    obtain ⟨rfl, rfl⟩ : x₂ = e₂ ∧ found₃ = [e₃] := by simpa using hexpressions
    obtain ⟨hcondition, rfl⟩ :=
      keepsHead_of_forClause (hordered' _) h.condition.not_semicolon hcondition hclause₂ hends₂
    rw [State.skip_skip, hexpect₂] at hpass₂
    cases hpass₂
    obtain ⟨hupdate, rfl⟩ :=
      keepsHead_of_forClause (hordered' _) h.update.not_closing hupdate hclause₃ hends₃
    rw [State.skip_skip, hexpect₃] at hpass₃
    cases hpass₃
    exact ⟨⟨hcolons, hinit, hcondition, hupdate⟩, hbody⟩

/-- **A header of names, literals and operators keeps the heads of its parts**, if none of these is an
opening angle bracket and no colon stands outside of the brackets of the first part. -/
theorem LoopHeader.keepsHeads_of_unangled (setting : Setting) (hs : s.AtLoop h)
    (hinit : h.init.Unangled) (hcondition : h.condition.Unangled) (hupdate : h.update.Unangled)
    (hcolons : ∀ t, Outside 0 t h.init.tokens → t.is ":" = false) : h.KeepsHeads setting s := by
  obtain ⟨⟨_, _, hrest₁, hstop₁, -⟩, ⟨_, _, hrest₂, hstop₂, -⟩, _, _, hrest₃, hstop₃, -⟩ :=
    hs.places setting
  have hany {t : Token} {text : String} (ht : t.is text = true) (htext : text ∈ [";", ")"]) :
      t.isAny [";", ")"] = true := List.any_eq_true.2 ⟨text, htext, ht⟩
  exact ⟨hcolons, hinit.keepsHead setting (hany hstop₁ (by decide)) hrest₁,
    hcondition.keepsHead setting (hany hstop₂ (by decide)) hrest₂,
    hupdate.keepsHead setting (hany hstop₃ (by decide)) hrest₃⟩

/-- A statement that begins with its keyword is read as a loop. -/
theorem statementBody_of_for (hs : s.AtLoop h) :
    statementBody sub setting s = forStatement sub (setting.here s) setting s := by
  obtain ⟨word, _, _, _, _, _, hrest, hword, -⟩ := hs
  have hother {text : String} (hne : text ≠ "for") : s.sees text = false := by
    rw [State.sees_cons hrest]
    exact Token.is_of_is hword hne
  have hsees : s.sees "for" = true := (State.sees_cons hrest).trans hword
  unfold statementBody
  rw [bind_of_ok (show here setting s = .ok (setting.here s) s from rfl),
    bind_of_ok (show state setting s = .ok s s from rfl)]
  simp [hsees, hother]

/-- **A counting loop is delimited by its own punctuation exactly if its header keeps the heads of its
parts**: the statement ahead, whose header has three parts with nested brackets and no semicolon outside
of them, is read without a further error as a loop with the ends of the three parts as its expressions
and with one body exactly if it is not nested too deeply, no colon stands outside of the brackets of the
first part, what is passed in front of each expression ends inside of its part, and the body is read
without a further error behind the header. -/
theorem forLoop_iff (level : Nat) (h : LoopHeader) (body : Statement) {setting : Setting} {s : State}
    (hordered : Token.Ordered s.rest) (hs : s.AtLoop h) :
    (∃ loop next, (nestedAt (level + 1)).statement setting s = .ok loop next ∧
      next.errors = s.errors ∧ h.Delimits loop body) ↔
    s.depth < maxNesting ∧ h.KeepsHeads setting { s with depth := s.depth + 1 } ∧
      ∃ next, (nestedAt level).statement setting
          (State.skip h.toBody { s with depth := s.depth + 1 }) = .ok body next ∧
        next.errors = s.errors := by
  have hinner : State.AtLoop { s with depth := s.depth + 1 } h := hs
  have hordered : Token.Ordered (State.rest { s with depth := s.depth + 1 }) := hordered
  constructor
  · rintro ⟨loop, next, hok, herrors, hloop⟩
    obtain ⟨hdepth, m, hstatement, rfl⟩ := guarded_eq_ok.1 hok
    rw [statementBody_of_for hinner] at hstatement
    obtain ⟨hheads, hbody⟩ := keepsHeads_of_forStatement hordered hinner hstatement hloop
    exact ⟨hdepth, hheads, m, hbody, herrors⟩
  · rintro ⟨hdepth, hheads, m, hbody, herrors⟩
    obtain ⟨loop, hok, hloop⟩ := forStatement_of_keepsHeads hinner hheads hbody
    refine ⟨loop, { m with depth := m.depth - 1 }, ?_, herrors, hloop⟩
    exact guarded_eq_ok.2 ⟨hdepth, m, (statementBody_of_for hinner).trans hok, rfl⟩

end

/-- A loop that counts: all three parts keep their heads. -/
theorem forLoop_counting :
    let tokens := (Scan.ofText "for (i = 0; f(i); i++) ;").tokens
    let setting := (Scan.ofText "for (i = 0; f(i); i++) ;").setting false
    ∃ (h : LoopHeader) (body loop : Statement) (next : State),
      h.init.tokens = (tokens.drop 2).take 3 ∧ h.condition.tokens = (tokens.drop 6).take 4 ∧
      h.update.tokens = (tokens.drop 11).take 2 ∧
      (nestedAt 2).statement setting { rest := tokens } = .ok loop next ∧ next.errors = #[] ∧
      h.Delimits loop body := by
  intro tokens setting
  have hparts : (∃ c : Clause, c.tokens = (tokens.drop 2).take 3 ∧ c.Unangled) ∧
      (∃ c : Clause, c.tokens = (tokens.drop 6).take 4 ∧ c.Unangled) ∧
      ∃ c : Clause, c.tokens = (tokens.drop 11).take 2 ∧ c.Unangled := by
    exact ⟨Clause.exists_unangled (by decide +kernel), Clause.exists_unangled (by decide +kernel),
      Clause.exists_unangled (by decide +kernel)⟩
  obtain ⟨⟨init, hinit, hinit'⟩, ⟨condition, hcondition, hcondition'⟩, update, hupdate, hupdate'⟩ :=
    hparts
  have hloop : State.AtLoop { rest := tokens } ⟨init, condition, update⟩ := by
    refine ⟨tokens[0]?.getD default, tokens[1]?.getD default, tokens[5]?.getD default,
      tokens[10]?.getD default, tokens[13]?.getD default, tokens.drop 14, ?_⟩
    simp only [hinit, hcondition, hupdate]
    decide +kernel
  have hcolons : ∀ t ∈ outsideTokens 0 ((tokens.drop 2).take 3), t.is ":" = false := by
    decide +kernel
  have hheads : LoopHeader.KeepsHeads ⟨init, condition, update⟩ setting
      { rest := tokens, depth := 1 } :=
    LoopHeader.keepsHeads_of_unangled setting hloop hinit' hcondition' hupdate'
      fun t ht => hcolons t (hinit ▸ mem_outsideTokens.2 ht)
  have hplace : LoopHeader.toBody ⟨init, condition, update⟩ = 14 := by
    simp only [LoopHeader.toBody, LoopHeader.toUpdate, LoopHeader.toCondition, hinit, hcondition,
      hupdate]
    decide +kernel
  have hordered : Token.Ordered tokens := Scan.ordered_ofChars _ _
  have hsilent : (match (nestedAt 1).statement setting
      (State.skip 14 { rest := tokens, depth := 1 }) with
      | .ok _ next => next.errors == #[]
      | .fail _ _ => false) = true := by
    decide +kernel
  cases hbody : (nestedAt 1).statement setting (State.skip 14 { rest := tokens, depth := 1 }) with
  | fail e next => rw [hbody] at hsilent; cases hsilent
  | ok body next =>
      rw [hbody] at hsilent
      obtain ⟨loop, next', hok, herrors, hdelimits⟩ :=
        (forLoop_iff 1 ⟨init, condition, update⟩ body (s := { rest := tokens }) hordered hloop).2
          ⟨by decide, hheads, next, hplace ▸ hbody, by simpa using hsilent⟩
      exact ⟨⟨init, condition, update⟩, body, loop, next', hinit, hcondition, hupdate, hok, herrors,
        hdelimits⟩

/-- A comparison in the header of a loop and another one behind the loop: the parts of the header and
the two statements are faultless by themselves, but the type that is looked for in the second part ends
behind the loop, and what is left of the method is no loop. -/
theorem comparison_leaves_header :
    let loop := "class A \x7b void m() \x7b for (i = 0; i < n; i++) ; \x7d \x7d"
    let later := "class A \x7b void m() \x7b ; c = a > b; \x7d \x7d"
    let both := "class A \x7b void m() \x7b for (i = 0; i < n; i++) ; c = a > b; \x7d \x7d"
    let tokens := (Scan.ofText both).tokens
    (∀ part ∈ [(tokens.drop 10).take 3, (tokens.drop 14).take 3, (tokens.drop 18).take 2],
      part ≠ [] ∧ WellBracketed part ∧ (∀ t ∈ outsideTokens 0 part, t.is ";" = false) ∧
        ∀ t ∈ part, t.isKeyword = false ∧ t.is "@" = false) ∧
    (Outline.parse loop false).errors = [] ∧ (Outline.parse later false).errors = [] ∧
    (Outline.parse both false).errors.map SyntaxError.message =
      ["Syntax error: expected expression, found '\x7d'"] ∧
    (Outline.parse both false).outline.expressions = [] := by
  decide +kernel

end JavaOutline
