/-
**Where expressions come from.**

Whatever a parser meets, errors included, it stands in front of some tail of the tokens it began with,
and every expression in what it answers was cut out of those tokens in one piece, in front of a token
that stopped it.  This is a class of parsers, and what the values of parsers hold is another one, so a
parser that is put together from such parsers has the property by inference.

Main definitions:

* `Captured` — an expression that was cut out of some tokens;
* `Holding`, `CutFrom` — what a value holds was cut out of some tokens;
* `Parser.Captures` — a parser that cuts the expressions it answers out of some tokens.

Main results:

* `expressionUntil_captures` — **an expression is cut out in front of a token that stops it**;
* the instances — phrases capture.
-/

import JavaOutline.Proofs.Reading
import JavaOutline.Proofs.Relexing

set_option autoImplicit false
-- A parser is taken apart into all its parts, and a value into all that it holds.
set_option synthInstance.maxSize 100000

namespace JavaOutline

open JavaOutline.Parser

/-! ### The expressions of a unit -/

mutual

/-- The expressions of a statement and of the statements inside it. -/
def Statement.allExpressions : Statement → List Expression
  | ⟨_, _, expressions, children, _⟩ => expressions ++ Statement.expressionsIn children

/-- The expressions of statements. -/
def Statement.expressionsIn : List Statement → List Expression
  | [] => []
  | s :: ss => s.allExpressions ++ Statement.expressionsIn ss

end

/-- The expressions of a body. -/
def Body.expressions : Body → List Expression
  | .absent | .unparsed _ => []
  | .parsed block => Statement.expressionsIn block.statements

mutual

/-- The expressions in a type. -/
def TypeDecl.expressions : TypeDecl → List Expression
  | ⟨_, _, _, _, _, _, members, _⟩ => Member.expressionsIn members

/-- The expressions in members. -/
def Member.expressionsIn : List Member → List Expression
  | [] => []
  | m :: ms => m.expressions ++ Member.expressionsIn ms

/-- The expressions in a member. -/
def Member.expressions : Member → List Expression
  | .field decl => decl.declarators.filterMap VariableDecl.initializer
  | .method decl => decl.body.expressions
  | .initializer decl => decl.body.expressions
  | .type decl => decl.expressions
  | .enumConstant ⟨_, arguments, none, _⟩ => arguments
  | .enumConstant ⟨_, arguments, some body, _⟩ => arguments ++ body.expressions

end

/-- The expressions in a unit. -/
def Outline.expressions (o : Outline) : List Expression := o.types.flatMap TypeDecl.expressions

/-! ### What values hold -/

/-- An expression that was cut out of tokens in one piece, and not in front of a point. -/
def Captured (tokens : List Token) (e : Expression) : Prop :=
  ∃ front first rest after, tokens = front ++ (first :: rest ++ after) ∧ EndsPlain after ∧
    e = Expression.ofTokens first rest

/-- Types whose values may hold expressions, or places among tokens. -/
class Holding (α : Type) where
  /-- What a value holds was cut out of these tokens. -/
  holds : List Token → α → Prop

/-- Types whose values hold neither expressions nor places. -/
class Holding.Nothing (α : Type) : Prop

instance : Holding.Nothing Unit := ⟨⟩
instance : Holding.Nothing Bool := ⟨⟩
instance : Holding.Nothing String := ⟨⟩
instance : Holding.Nothing Position := ⟨⟩
instance : Holding.Nothing Span := ⟨⟩
instance : Holding.Nothing Parameter := ⟨⟩
instance : Holding.Nothing PackageDecl := ⟨⟩
instance : Holding.Nothing ImportDecl := ⟨⟩
instance : Holding.Nothing TypeDecl.Kind := ⟨⟩

section

variable {α β : Type} {tokens : List Token}

instance [Holding.Nothing α] : Holding α := ⟨fun _ _ => True⟩

instance : Holding State := ⟨fun tokens s => s.rest <:+ tokens⟩
instance : Holding Expression := ⟨Captured⟩
instance : Holding Statement := ⟨fun tokens s => ∀ e ∈ s.allExpressions, Captured tokens e⟩
instance : Holding Body := ⟨fun tokens b => ∀ e ∈ b.expressions, Captured tokens e⟩
instance : Holding TypeDecl := ⟨fun tokens t => ∀ e ∈ t.expressions, Captured tokens e⟩
instance : Holding Member := ⟨fun tokens m => ∀ e ∈ m.expressions, Captured tokens e⟩
instance : Holding Outline := ⟨fun tokens o => ∀ e ∈ o.expressions, Captured tokens e⟩

instance [Holding α] : Holding (Option α) := ⟨fun tokens o => ∀ a ∈ o, Holding.holds tokens a⟩
instance [Holding α] : Holding (List α) := ⟨fun tokens l => ∀ a ∈ l, Holding.holds tokens a⟩

instance [Holding α] [Holding β] : Holding (α × β) :=
  ⟨fun tokens pair => Holding.holds tokens pair.1 ∧ Holding.holds tokens pair.2⟩

instance [Holding α] : Holding (Turn α) where
  holds tokens
    | .stop | .skip => True
    | .take a | .final a => Holding.holds tokens a

instance : Holding Block := ⟨fun tokens b => Holding.holds tokens b.statements⟩
instance : Holding VariableDecl := ⟨fun tokens v => Holding.holds tokens v.initializer⟩

/-- What a value holds was cut out of some tokens. -/
class CutFrom (tokens : List Token) [Holding α] (a : α) : Prop where
  holds : Holding.holds tokens a

/-- The values of which what they hold was cut out of some tokens. -/
def Held (tokens : List Token) (α : Type) [Holding α] : Type :=
  { a : α // Holding.holds tokens a }

instance [Holding α] (a : Held tokens α) : CutFrom tokens a.val := ⟨a.property⟩

instance [Holding.Nothing α] (a : α) : CutFrom tokens a := ⟨trivial⟩

instance [Holding α] : CutFrom tokens (none : Option α) := ⟨nofun⟩

instance [Holding α] (a : α) [CutFrom tokens a] : CutFrom tokens (some a) where
  holds b hb := by
    cases hb
    exact CutFrom.holds

instance [Holding α] : CutFrom tokens ([] : List α) := ⟨nofun⟩

instance [Holding α] (a : α) (l : List α) [ha : CutFrom tokens a] [hl : CutFrom tokens l] :
    CutFrom tokens (a :: l) where
  holds b hb := by
    rcases List.mem_cons.1 hb with rfl | hlater
    · exact ha.holds
    · exact hl.holds b hlater

instance [Holding α] (l m : List α) [hl : CutFrom tokens l] [hm : CutFrom tokens m] :
    CutFrom tokens (l ++ m) where
  holds b hb := by
    rcases List.mem_append.1 hb with hleft | hright
    · exact hl.holds b hleft
    · exact hm.holds b hright

instance [Holding α] (o : Option α) [h : CutFrom tokens o] : CutFrom tokens o.toList where
  holds b hb := h.holds b (Option.mem_toList.1 hb)

instance [Holding α] (o : Option α) (a : α) [ho : CutFrom tokens o] [ha : CutFrom tokens a] :
    CutFrom tokens (o.getD a) where
  holds := by
    cases o with
    | none => exact ha.holds
    | some b => exact ho.holds b rfl

instance [Holding α] [Holding β] (a : α) (b : β) [CutFrom tokens a] [CutFrom tokens b] :
    CutFrom tokens (a, b) := ⟨CutFrom.holds, CutFrom.holds⟩

instance [Holding α] [Holding β] (pair : α × β) [h : CutFrom tokens pair] : CutFrom tokens pair.1 :=
  ⟨h.holds.1⟩

instance [Holding α] [Holding β] (pair : α × β) [h : CutFrom tokens pair] : CutFrom tokens pair.2 :=
  ⟨h.holds.2⟩

instance [Holding α] : CutFrom tokens (Turn.stop : Turn α) := ⟨trivial⟩
instance [Holding α] : CutFrom tokens (Turn.skip : Turn α) := ⟨trivial⟩

instance [Holding α] (a : α) [h : CutFrom tokens a] : CutFrom tokens (Turn.take a) := ⟨h.holds⟩

instance [Holding α] (a : α) [h : CutFrom tokens a] : CutFrom tokens (Turn.final a) := ⟨h.holds⟩

/-! ### Statements and members -/

theorem Statement.expressionsIn_eq (ss : List Statement) :
    Statement.expressionsIn ss = ss.flatMap Statement.allExpressions := by
  induction ss with
  | nil => rfl
  | cons s ss ih => rw [Statement.expressionsIn, ih, List.flatMap_cons]

theorem Member.expressionsIn_eq (ms : List Member) :
    Member.expressionsIn ms = ms.flatMap Member.expressions := by
  induction ms with
  | nil => rfl
  | cons m ms ih => rw [Member.expressionsIn, ih, List.flatMap_cons]

/-- What is held one by one is held together. -/
theorem captured_flatMap {items : List α} {expressions : α → List Expression}
    (h : ∀ a ∈ items, ∀ e ∈ expressions a, Captured tokens e) :
    ∀ e ∈ items.flatMap expressions, Captured tokens e := fun e he => by
  obtain ⟨a, ha, he⟩ := List.mem_flatMap.1 he
  exact h a ha e he

instance (kind : Statement.Kind) (label : Option String) (expressions : List Expression)
    (children : List Statement) (span : Span) [hown : CutFrom tokens expressions]
    [hinner : CutFrom tokens children] :
    CutFrom tokens (Statement.mk kind label expressions children span) where
  holds e he := by
    rw [Statement.allExpressions, Statement.expressionsIn_eq] at he
    rcases List.mem_append.1 he with hmem | hmem
    · exact hown.holds e hmem
    · exact captured_flatMap hinner.holds e hmem

instance (statements : List Statement) (span : Span) [h : CutFrom tokens statements] :
    CutFrom tokens (Block.mk statements span) := ⟨h.holds⟩

instance (b : Block) [h : CutFrom tokens b] : CutFrom tokens b.statements := ⟨h.holds⟩

instance : CutFrom tokens Body.absent := ⟨nofun⟩
instance (span : Span) : CutFrom tokens (Body.unparsed span) := ⟨nofun⟩

instance (b : Block) [h : CutFrom tokens b] : CutFrom tokens (Body.parsed b) where
  holds := by
    show ∀ e ∈ Statement.expressionsIn b.statements, Captured tokens e
    rw [Statement.expressionsIn_eq]
    exact captured_flatMap h.holds

instance (name : String) (initializer : Option Expression) (span : Span)
    [h : CutFrom tokens initializer] : CutFrom tokens (VariableDecl.mk name initializer span) :=
  ⟨h.holds⟩

instance (found : List VariableDecl) [h : CutFrom tokens found] :
    CutFrom tokens (found.filterMap VariableDecl.initializer) where
  holds e he := by
    obtain ⟨v, hv, hinitializer⟩ := List.mem_filterMap.1 he
    exact h.holds v hv e hinitializer

instance (words : List String) (typeName : String) (found : List VariableDecl) (span : Span)
    [h : CutFrom tokens found] : CutFrom tokens (Member.field ⟨words, typeName, found, span⟩) where
  holds := CutFrom.holds (a := found.filterMap VariableDecl.initializer)

instance (words : List String) (typeParameters returnType : Option String) (name : String)
    (parameters : List Parameter) (throws : List String) (body : Body) (span : Span)
    [h : CutFrom tokens body] :
    CutFrom tokens (Member.method
      ⟨words, typeParameters, returnType, name, parameters, throws, body, span⟩) := ⟨h.holds⟩

instance (isStatic : Bool) (body : Body) (span : Span) [h : CutFrom tokens body] :
    CutFrom tokens (Member.initializer ⟨isStatic, body, span⟩) := ⟨h.holds⟩

instance (decl : TypeDecl) [h : CutFrom tokens decl] : CutFrom tokens (Member.type decl) := ⟨h.holds⟩

instance (name : String) (arguments : List Expression) (body : Option TypeDecl) (span : Span)
    [harguments : CutFrom tokens arguments] [hbody : CutFrom tokens body] :
    CutFrom tokens (Member.enumConstant ⟨name, arguments, body, span⟩) where
  holds e he := by
    cases body with
    | none => exact harguments.holds e he
    | some body =>
        rcases List.mem_append.1 he with hmem | hmem
        · exact harguments.holds e hmem
        · exact hbody.holds body rfl e hmem

instance (kind : TypeDecl.Kind) (name : String) (words : List String)
    (typeParameters superclass : Option String) (interfaces : List String) (members : List Member)
    (span : Span) [h : CutFrom tokens members] :
    CutFrom tokens (TypeDecl.mk kind name words typeParameters superclass interfaces members span) where
  holds := by
    show ∀ e ∈ Member.expressionsIn members, Captured tokens e
    rw [Member.expressionsIn_eq]
    exact captured_flatMap h.holds

instance (package : Option PackageDecl) (imports : List ImportDecl) (types : List TypeDecl)
    (span : Span) [h : CutFrom tokens types] : CutFrom tokens (Outline.mk package imports types span) :=
  ⟨captured_flatMap h.holds⟩

/-! ### Parsers -/

/-- An answer whose state lies among some tokens, and whose value was cut out of them. -/
def Parser.Answer.Kept [Holding α] (tokens : List Token) : Answer α → Prop
  | .ok a next => next.rest <:+ tokens ∧ Holding.holds tokens a
  | .fail _ next => next.rest <:+ tokens

/-- A parser that, wherever it begins among some tokens, comes to an end among them, and cuts what it
answers out of them. -/
class Parser.Captures (tokens : List Token) [Holding α] (p : Parser α) : Prop where
  keeps : ∀ (setting : Setting) (s : State), s.rest <:+ tokens → (p setting s).Kept tokens

end

namespace Parser

variable {α β : Type} {tokens : List Token}

theorem State.rest_advance_suffix (s : State) : s.advance.rest <:+ s.rest := by
  obtain ⟨passed, hrest, -, -⟩ := s.reaches_advance
  exact ⟨passed, hrest.symm⟩

theorem State.rest_skip_suffix (n : Nat) (s : State) : (s.skip n).rest <:+ s.rest := by
  obtain ⟨passed, hrest, -, -⟩ := s.reaches_skip n
  exact ⟨passed, hrest.symm⟩

instance [Holding α] (a : α) [h : CutFrom tokens a] : Captures tokens (Pure.pure a : Parser α) :=
  ⟨fun _ _ hs => ⟨hs, h.holds⟩⟩

instance [Holding α] [Holding β] (p : Parser β) (f : β → Parser α) [hp : Captures tokens p]
    [hf : ∀ b : Held tokens β, Captures tokens (f b.val)] : Captures tokens (p >>= f) where
  keeps setting s hs := by
    have hkept := hp.keeps setting s hs
    cases hanswer : p setting s with
    | fail e next =>
        rw [hanswer] at hkept
        rw [bind_of_fail hanswer]
        exact hkept
    | ok b next =>
        rw [hanswer] at hkept
        rw [bind_of_ok hanswer]
        exact (hf ⟨b, hkept.2⟩).keeps setting next hkept.1

instance [Holding α] (c : Prop) [Decidable c] (p q : Parser α) [Captures tokens p]
    [Captures tokens q] : Captures tokens (if c then p else q) := by
  split <;> infer_instance

instance : Captures tokens state := ⟨fun _ _ hs => ⟨hs, hs⟩⟩
instance [Holding.Nothing α] (f : State → α) : Captures tokens (ask f) :=
  ⟨fun _ _ hs => ⟨hs, trivial⟩⟩
instance : Captures tokens here := ⟨fun _ _ hs => ⟨hs, trivial⟩⟩
instance : Captures tokens isDiet := ⟨fun _ _ hs => ⟨hs, trivial⟩⟩
instance [Holding α] (expected : String) : Captures tokens (unexpected expected : Parser α) :=
  ⟨fun _ _ hs => hs⟩
instance [Holding α] : Captures tokens (tooDeep : Parser α) := ⟨fun _ _ hs => hs⟩
instance (expected : String) : Captures tokens (reportUnexpected expected) :=
  ⟨fun _ _ hs => ⟨hs, trivial⟩⟩

instance (text : String) : Captures tokens (sees text) := by
  unfold sees
  infer_instance

instance (start : Position) : Captures tokens (spanFrom start) := by
  unfold spanFrom
  infer_instance

instance : Captures tokens advance :=
  ⟨fun _ s hs => ⟨s.rest_advance_suffix.trans hs, trivial⟩⟩

instance (n : Nat) : Captures tokens (skip n) :=
  ⟨fun _ s hs => ⟨(s.rest_skip_suffix n).trans hs, trivial⟩⟩

instance (text : String) : Captures tokens (accept text) where
  keeps setting s hs := by
    unfold accept
    split
    · exact ⟨s.rest_advance_suffix.trans hs, trivial⟩
    · exact ⟨hs, trivial⟩

instance (text : String) : Captures tokens (expect text) where
  keeps setting s hs := by
    unfold expect
    split
    · split
      · exact ⟨s.rest_advance_suffix.trans hs, trivial⟩
      · exact hs
    · exact hs

instance : Captures tokens identifier where
  keeps setting s hs := by
    unfold identifier
    split
    · split
      · exact ⟨s.rest_advance_suffix.trans hs, trivial⟩
      · exact hs
    · exact hs

instance (opener closer : String) : Captures tokens (bracketed opener closer) where
  keeps setting s hs := by
    have hinside : s.advance.rest <:+ tokens := s.rest_advance_suffix.trans hs
    unfold bracketed
    dsimp only
    split
    · exact ⟨(s.advance.rest_skip_suffix _).trans hinside, trivial⟩
    · exact (s.advance.rest_skip_suffix _).trans hinside

/-! ### Repetition -/

instance [Holding α] (later : Parser (List α)) [Captures tokens later] (value : Turn α)
    [h : CutFrom tokens value] : Captures tokens (behindTurn later value) := by
  cases value with
  | stop => exact inferInstanceAs (Captures tokens (Pure.pure [] : Parser (List α)))
  | skip => exact inferInstanceAs (Captures tokens later)
  | take a =>
      have : CutFrom tokens a := ⟨h.holds⟩
      unfold behindTurn
      infer_instance
  | final a =>
      have : CutFrom tokens a := ⟨h.holds⟩
      unfold behindTurn
      infer_instance

instance collect_captures [Holding α] (turn : Parser (Turn α)) [Captures tokens turn] (fuel : Nat) :
    Captures tokens (collect turn fuel) := by
  induction fuel with
  | zero => exact inferInstanceAs (Captures tokens (Pure.pure [] : Parser (List α)))
  | succ fuel ih =>
      exact inferInstanceAs (Captures tokens (turn >>= behindTurn (collect turn fuel)))

instance [Holding α] (turn : Parser (Turn α)) [Captures tokens turn] :
    Captures tokens (gather turn) where
  keeps setting s hs := by
    rw [gather_eq_collect]
    exact Captures.keeps setting s hs

instance repeatLoop_captures (turn : Parser Bool) [Captures tokens turn] (fuel : Nat) :
    Captures tokens (repeatLoop turn fuel) := by
  induction fuel with
  | zero => exact inferInstanceAs (Captures tokens (Pure.pure () : Parser Unit))
  | succ fuel ih =>
      exact inferInstanceAs (Captures tokens
        (turn >>= fun more => if more then repeatLoop turn fuel else Pure.pure ()))

instance (turn : Parser Bool) [Captures tokens turn] : Captures tokens (repeatWhile turn) where
  keeps setting s hs :=
    Captures.keeps (p := repeatLoop turn (setting.total - s.index + 1)) setting s hs

instance [Holding α] (text : String) (p : Parser α) [Captures tokens p] :
    Captures tokens (whenAccepted text p) := by
  unfold whenAccepted
  infer_instance

instance [Holding α] (item : Parser α) [Captures tokens item] :
    Captures tokens (commaSeparated item) := by
  unfold commaSeparated
  have : ∀ value : Held tokens (Option α), Captures tokens (match value.val with
      | some value => Pure.pure (Turn.take value)
      | none => Pure.pure Turn.stop : Parser (Turn α)) := by
    rintro ⟨value, hvalue⟩
    cases value with
    | none => exact inferInstanceAs (Captures tokens (Pure.pure Turn.stop : Parser (Turn α)))
    | some a =>
        have : CutFrom tokens a := ⟨hvalue a rfl⟩
        exact inferInstanceAs (Captures tokens (Pure.pure (Turn.take a) : Parser (Turn α)))
  infer_instance

/-! ### Nesting and errors -/

instance [Holding α] (p : Parser α) [h : Captures tokens p] : Captures tokens (guarded p) where
  keeps setting s hs := by
    have hkept := h.keeps setting { s with depth := s.depth + 1 } hs
    unfold guarded
    dsimp only
    split
    · exact hs
    · split
      next hanswer =>
        rw [hanswer] at hkept
        exact hkept
      next hanswer =>
        rw [hanswer] at hkept
        exact hkept

instance (p : Parser Unit) [h : Captures tokens p] : Captures tokens (orReport p) where
  keeps setting s hs := by
    have hkept := h.keeps setting s hs
    unfold orReport
    split
    next hanswer =>
      rw [hanswer] at hkept
      exact ⟨hkept.1, trivial⟩
    next hanswer =>
      rw [hanswer] at hkept
      exact ⟨hkept, trivial⟩

theorem State.rest_recovered_suffix (s : State) (e : SyntaxError) :
    (s.report e).recovered.rest <:+ s.rest :=
  (s.report e).rest_skip_suffix _

instance [Holding α] (p : Parser α) [h : Captures tokens p] : Captures tokens (orRecover p) where
  keeps setting s hs := by
    have hkept := h.keeps setting s hs
    unfold orRecover
    split
    next a next hanswer =>
      rw [hanswer] at hkept
      have ha : CutFrom tokens a := ⟨hkept.2⟩
      have hsome : CutFrom tokens (some a) := inferInstance
      exact ⟨hkept.1, hsome.holds⟩
    next e next hanswer =>
      rw [hanswer] at hkept
      exact ⟨(next.rest_recovered_suffix e).trans hkept, nofun⟩

instance [Holding α] (p : Parser α) [h : Captures tokens p] : Captures tokens (orSkip p) where
  keeps setting s hs := by
    have hkept := h.keeps setting s hs
    unfold orSkip
    split
    next hanswer =>
      rw [hanswer] at hkept
      exact hkept
    next e next hanswer =>
      rw [hanswer] at hkept
      have hafter := (next.rest_recovered_suffix e).trans hkept
      refine ⟨?_, trivial⟩
      split
      · exact (State.rest_advance_suffix _).trans hafter
      · exact hafter

instance (p : Parser α) (test : State → Bool) : Captures tokens (lookingPast p test) where
  keeps setting s hs := by
    unfold lookingPast
    split
    · exact ⟨hs, trivial⟩
    · exact ⟨hs, trivial⟩

instance (place : State) [h : CutFrom tokens place] : Captures tokens (backTo place) :=
  ⟨fun _ _ _ => ⟨h.holds, trivial⟩⟩

end Parser

section

variable {tokens : List Token}

/-! ### Expressions -/

/-- A word that may stop an expression: it does not begin with a point. -/
class StopWord (text : String) : Prop where
  plain : text.toList.head? ≠ some '.'

instance : StopWord "," := ⟨by decide⟩
instance : StopWord ";" := ⟨by decide⟩
instance : StopWord ")" := ⟨by decide⟩
instance : StopWord ":" := ⟨by decide⟩
instance : StopWord "->" := ⟨by decide⟩

/-- Words that may stop an expression. -/
class StopWords (texts : List String) : Prop where
  plain : ∀ text ∈ texts, text.toList.head? ≠ some '.'

instance : StopWords [] := ⟨nofun⟩

instance (text : String) (texts : List String) [h : StopWord text] [hs : StopWords texts] :
    StopWords (text :: texts) where
  plain other hother := by
    rcases List.mem_cons.1 hother with rfl | hlater
    · exact h.plain
    · exact hs.plain other hlater

/-- Behind an expression stands a token that stops it or closes a bracket. -/
theorem drop_expressionLength (stops : List String) (depth : Nat) (tokens : List Token) {t : Token}
    (h : (tokens.drop (expressionLength stops depth tokens)).head? = some t) :
    t.isAny stops = true ∨ t.closes = true := by
  fun_induction expressionLength stops depth tokens with
  | case1 => cases h
  | case2 depth u tokens hstop =>
      cases h
      exact .inl hstop.2
  | case3 depth u tokens _ _ ih => exact ih h
  | case4 u tokens _ hcloses =>
      cases h
      exact .inr hcloses
  | case5 u tokens depth _ _ _ ih => exact ih h
  | case6 depth u tokens _ _ _ ih => exact ih h

/-- An expression is not cut off in front of a point. -/
theorem endsPlain_expressionLength (stops : List String) [hstops : StopWords stops]
    (tokens : List Token) : EndsPlain (tokens.drop (expressionLength stops 0 tokens)) := by
  intro t ht
  have hclosers : StopWords [")", "]", "\x7d"] :=
    ⟨by simp only [List.mem_cons, List.not_mem_nil, or_false]; rintro _ (rfl | rfl | rfl) <;> decide⟩
  have hword {texts : List String} [hwords : StopWords texts] (hany : t.isAny texts = true) :
      t.text.toList.head? ≠ some '.' := by
    obtain ⟨text, hmem, his⟩ := List.any_eq_true.1 hany
    rw [Token.text_of_is his]
    exact hwords.plain text hmem
  rcases drop_expressionLength stops 0 tokens ht with hstop | hcloses
  · exact hword hstop
  · exact hword hcloses

/-- **An expression is cut out in front of a token that stops it.** -/
instance expressionUntil_captures (stops : List String) [StopWords stops] :
    Captures tokens (expressionUntil stops) where
  keeps setting s hs := by
    have hafter := endsPlain_expressionLength stops s.rest
    unfold expressionUntil
    rw [bind_of_ok (show state setting s = .ok s s from rfl)]
    cases htake : s.rest.take (expressionLength stops 0 s.rest) with
    | nil => exact hs
    | cons first rest =>
      refine ⟨(s.rest_skip_suffix _).trans hs, ?_⟩
      obtain ⟨front, hfront⟩ := hs
      refine ⟨front, first, rest, s.rest.drop (expressionLength stops 0 s.rest), ?_, hafter, rfl⟩
      rw [← htake, List.take_append_drop, hfront]

/-! ### Phrases -/

instance : Captures tokens qualifiedName := by
  unfold qualifiedName
  infer_instance

instance : Captures tokens annotations := by
  unfold annotations
  infer_instance

instance : Captures tokens modifiers := by
  unfold modifiers
  have : ∀ s : State, Captures tokens (match s.modifier?, s.sealedLength? with
      | some word, _ => do
          advance
          return Turn.take word
      | none, some n => do
          Parser.skip n
          return Turn.skip
      | none, none =>
          if s.seesAnnotation then do
            annotations
            return Turn.skip
          else return Turn.stop : Parser (Turn String)) := by
    intro s
    split <;> infer_instance
  infer_instance

instance : Captures tokens dimensions := by
  unfold dimensions
  infer_instance

instance : Captures tokens typeSuffixes := by
  unfold typeSuffixes
  infer_instance

instance : Captures tokens typeReference := by
  unfold typeReference
  infer_instance

instance : Captures tokens typeList := by
  unfold typeList
  infer_instance

instance : Captures tokens typeParameters := by
  unfold typeParameters
  infer_instance

instance : Captures tokens parenthesized := by
  unfold parenthesized
  infer_instance

instance : Captures tokens arguments := by
  unfold arguments
  infer_instance

instance (name : String) (start : Position) : Captures tokens (declarator name start) := by
  unfold declarator
  infer_instance

instance (firstName : String) : Captures tokens (declarators firstName) := by
  unfold declarators
  infer_instance

instance : Captures tokens looksLikeLocalDeclaration := by
  unfold looksLikeLocalDeclaration
  infer_instance

end

end JavaOutline
