/-
**The spans that parsers give.**

A span is put together when a node is complete: from the position where the node began up to the token
just behind.  A parser lays its nodes out if, wherever it answers, they lie one behind another on the
tokens that it passed.  While a node is read, its parts are laid out from the place where it began, and
the parts in hand are the judgment's; when the span is taken, they are wrapped up.  Nothing is asked of
what a parser does when it fails, except that it does not go back.

Main definitions:

* `LaidOut` — values with layouts;
* `Lays` — a parser lays out what it answers;
* `Builds` — a parser goes on with a node, some parts of which are in hand.

Main results:

* `Builds.pass`, `Builds.step`, `Builds.take`, `Builds.wrap` — the steps in which a node is read;
* `Lays.gather`, `Lays.orSkip`, `Lays.orRecover` — repetition, and going on behind errors;
* `expressionUntil_lays`, `arguments_lays`, `declarators_lays` — phrases lay out what they read.
-/

import JavaOutline.Proofs.NestedMovement
import JavaOutline.Proofs.SpanLayout

set_option autoImplicit false
set_option synthInstance.maxSize 100000

namespace JavaOutline

open JavaOutline.Parser

open JavaOutline.Parser.State (OnWay)

/-! ### Values with layouts -/

/-- Values that have layouts. -/
class LaidOut (α : Type) where
  layouts : α → List Layout

section

variable {α β : Type}

instance : LaidOut Expression := ⟨fun e => [e.layout]⟩
instance : LaidOut Statement := ⟨fun s => [s.layout]⟩
instance : LaidOut Block := ⟨fun b => [b.layout]⟩
instance : LaidOut Body := ⟨Body.layouts⟩
instance : LaidOut VariableDecl := ⟨fun v => [v.layout]⟩
instance : LaidOut Parameter := ⟨fun p => [p.layout]⟩
instance : LaidOut Member := ⟨fun m => [m.layout]⟩
instance : LaidOut TypeDecl := ⟨fun t => [t.layout]⟩
instance : LaidOut PackageDecl := ⟨fun p => [p.layout]⟩
instance : LaidOut ImportDecl := ⟨fun i => [i.layout]⟩

instance [LaidOut α] : LaidOut (List α) := ⟨fun as => as.flatMap LaidOut.layouts⟩
instance [LaidOut α] : LaidOut (Option α) := ⟨fun o => o.toList.flatMap LaidOut.layouts⟩
instance [LaidOut β] : LaidOut (Option String × β) := ⟨fun pair => LaidOut.layouts pair.2⟩

instance [LaidOut α] : LaidOut (Turn α) where
  layouts
    | .stop | .skip => []
    | .take a | .final a => LaidOut.layouts a

@[simp] theorem layouts_expression (e : Expression) : LaidOut.layouts e = [e.layout] := rfl
@[simp] theorem layouts_statement (s : Statement) : LaidOut.layouts s = [s.layout] := rfl
@[simp] theorem layouts_variable (v : VariableDecl) : LaidOut.layouts v = [v.layout] := rfl
@[simp] theorem layouts_parameter (p : Parameter) : LaidOut.layouts p = [p.layout] := rfl
@[simp] theorem layouts_member (m : Member) : LaidOut.layouts m = [m.layout] := rfl
@[simp] theorem layouts_typeDecl (t : TypeDecl) : LaidOut.layouts t = [t.layout] := rfl
@[simp] theorem layouts_package (p : PackageDecl) : LaidOut.layouts p = [p.layout] := rfl
@[simp] theorem layouts_import (i : ImportDecl) : LaidOut.layouts i = [i.layout] := rfl
@[simp] theorem layouts_body (b : Body) : LaidOut.layouts b = b.layouts := rfl

variable [LaidOut α] [LaidOut β]

@[simp] theorem layouts_nil : LaidOut.layouts ([] : List α) = [] := rfl

@[simp] theorem layouts_cons (a : α) (as : List α) :
    LaidOut.layouts (a :: as) = LaidOut.layouts a ++ LaidOut.layouts as := List.flatMap_cons

@[simp] theorem layouts_append (as bs : List α) :
    LaidOut.layouts (as ++ bs) = LaidOut.layouts as ++ LaidOut.layouts bs := List.flatMap_append

@[simp] theorem layouts_none : LaidOut.layouts (none : Option α) = [] := rfl

@[simp] theorem layouts_some (a : α) : LaidOut.layouts (some a) = LaidOut.layouts a := by
  simp [LaidOut.layouts]

@[simp] theorem layouts_pair (label : Option String) (b : β) :
    LaidOut.layouts (label, b) = LaidOut.layouts b := rfl

/-- The layouts of a list of values that have one each. -/
theorem layouts_eq_map {layout : α → Layout} (h : ∀ a, LaidOut.layouts a = [layout a])
    (as : List α) : LaidOut.layouts as = as.map layout := by
  induction as with
  | nil => rfl
  | cons a as ih => rw [layouts_cons, h, ih, List.singleton_append, List.map_cons]

/-- The layouts of a value that may be missing. -/
theorem layouts_toList {layout : α → Layout} (h : ∀ a, LaidOut.layouts a = [layout a])
    (o : Option α) : LaidOut.layouts o = o.toList.map layout := layouts_eq_map h o.toList

@[simp] theorem layouts_expressions (es : List Expression) :
    LaidOut.layouts es = es.map Expression.layout := layouts_eq_map layouts_expression es

@[simp] theorem layouts_expression? (e : Option Expression) :
    LaidOut.layouts e = e.toList.map Expression.layout := layouts_toList layouts_expression e

@[simp] theorem layouts_statements (ss : List Statement) :
    LaidOut.layouts ss = ss.map Statement.layout := layouts_eq_map layouts_statement ss

@[simp] theorem layouts_statement? (s : Option Statement) :
    LaidOut.layouts s = s.toList.map Statement.layout := layouts_toList layouts_statement s

@[simp] theorem layouts_variables (vs : List VariableDecl) :
    LaidOut.layouts vs = vs.map VariableDecl.layout := layouts_eq_map layouts_variable vs

@[simp] theorem layouts_parameters (ps : List Parameter) :
    LaidOut.layouts ps = ps.map Parameter.layout := layouts_eq_map layouts_parameter ps

@[simp] theorem layouts_members (ms : List Member) :
    LaidOut.layouts ms = ms.map Member.layout := layouts_eq_map layouts_member ms

@[simp] theorem layouts_types (ts : List TypeDecl) :
    LaidOut.layouts ts = ts.map TypeDecl.layout := layouts_eq_map layouts_typeDecl ts

@[simp] theorem layouts_imports (is : List ImportDecl) :
    LaidOut.layouts is = is.map ImportDecl.layout := layouts_eq_map layouts_import is

@[simp] theorem layouts_package? (p : Option PackageDecl) :
    LaidOut.layouts p = p.toList.map PackageDecl.layout := layouts_toList layouts_package p

@[simp] theorem layouts_block (b : Block) :
    LaidOut.layouts b = [.node b.span false (b.statements.map Statement.layout)] := by
  rw [← Statement.layoutAll_eq]
  rfl

end

/-! ### The judgments -/

/-- The position is where the token at a place begins, if there is one. -/
def StartsAt (tokens : List Token) (i : Nat) (start : Position) : Prop :=
  ∀ {t}, tokens[i]? = some t → start = t.span.start

/-- The span of a node that began at a place where a token is ahead, around the parts of the node. -/
theorem Parser.State.OnWay.wrap {tokens : List Token} {s : State} {i : Nat} {start : Position}
    {parts : List Layout} (hordered : Token.Ordered tokens) (hs : s.OnWay tokens)
    (hlt : i < s.index) (hstart : StartsAt tokens i start)
    (hparts : Layout.Lie tokens i s.index parts) :
    Layout.Lie tokens i s.index [.node (s.spanFrom start) false parts] := by
  obtain ⟨l, hl⟩ : ∃ l, s.index = l + 1 := ⟨s.index - 1, by omega⟩
  obtain ⟨last, hlast, hbehind⟩ := hs.last_eq hl
  obtain ⟨first, hfirst⟩ : ∃ first, tokens[i]? = some first :=
    ⟨_, List.getElem?_eq_getElem (Nat.lt_of_lt_of_le hlt hs.index_le)⟩
  have hil : i ≤ l := by omega
  -- The token just behind does not end before the node begins, so the span ends with it.
  have hspan : s.spanFrom start = ⟨first.span.start, last.span.stop⟩ := by
    have hle := hordered.stop_le_stop hil hfirst hlast
    have hlt := hordered.start_lt_stop hfirst
    simp only [State.spanFrom, hbehind, hstart hfirst]
    exact if_neg (by omega)
  rw [hl] at hparts
  rw [hspan, hl]
  exact hparts.wrap hil hfirst hlast

section

variable {α β : Type} [LaidOut α] [LaidOut β] {tokens : List Token}

/-- A parser lays out what it answers: it lies on the tokens that the parser passed. -/
def Lays (tokens : List Token) (p : Parser α) : Prop :=
  Token.Ordered tokens → ∀ {setting s a n}, s.OnWay tokens → p setting s = .ok a n →
    Layout.Lie tokens s.index n.index (LaidOut.layouts a)

/-- A parser goes on with what began at place `i`, with some layouts in hand that lie behind it;
`moved` says that a token was passed since. -/
def Builds (tokens : List Token) (i : Nat) (moved : Bool) (hand : List Layout) (p : Parser α) :
    Prop :=
  Token.Ordered tokens → ∀ {setting s a n}, s.OnWay tokens → (moved = true → i < s.index) →
    Layout.Lie tokens i s.index hand → p setting s = .ok a n →
    Layout.Lie tokens i n.index (LaidOut.layouts a)

variable {i : Nat} {moved : Bool} {hand : List Layout}

namespace Builds

/-- Reading something that is not laid out. -/
theorem pass {γ : Type} {p : Parser γ} {f : γ → Parser α} [Moves p]
    (h : ∀ c, Builds tokens i moved hand (f c)) : Builds tokens i moved hand (p >>= f) := by
  intro hordered setting s a n hs hmoved hhand hok
  obtain ⟨c, m, hp, hf⟩ := bind_eq_ok.1 hok
  have hgoes := Moves.of_ok hp
  refine h c hordered (hs.goes hgoes) (fun hm => ?_) (hhand.mono (Nat.le_refl _) hgoes.index_le) hf
  exact Nat.lt_of_lt_of_le (hmoved hm) hgoes.index_le

/-- Reading something that is not laid out and takes a token. -/
theorem step {γ : Type} {p : Parser γ} {f : γ → Parser α} [Advances p]
    (h : ∀ c, Builds tokens i true hand (f c)) : Builds tokens i moved hand (p >>= f) := by
  intro hordered setting s a n hs _ hhand hok
  obtain ⟨c, m, hp, hf⟩ := bind_eq_ok.1 hok
  have hgoes := Moves.of_ok hp
  refine h c hordered (hs.goes hgoes) (fun _ => ?_) (hhand.mono (Nat.le_refl _) hgoes.index_le) hf
  exact Nat.lt_of_le_of_lt hhand.le (Advances.forward hp)

/-- Reading a part. -/
theorem take {p : Parser β} {f : β → Parser α} [Moves p] (hp : Lays tokens p)
    (h : ∀ b, Builds tokens i moved (hand ++ LaidOut.layouts b) (f b)) :
    Builds tokens i moved hand (p >>= f) := by
  intro hordered setting s a n hs hmoved hhand hok
  obtain ⟨b, m, hok, hf⟩ := bind_eq_ok.1 hok
  have hgoes := Moves.of_ok hok
  refine h b hordered (hs.goes hgoes) (fun hm => ?_) (hhand.append (hp hordered hs hok)) hf
  exact Nat.lt_of_lt_of_le (hmoved hm) hgoes.index_le

/-- Reading a part that takes a token. -/
theorem takeStep {p : Parser β} {f : β → Parser α} [Advances p] (hp : Lays tokens p)
    (h : ∀ b, Builds tokens i true (hand ++ LaidOut.layouts b) (f b)) :
    Builds tokens i moved hand (p >>= f) := by
  intro hordered setting s a n hs _ hhand hok
  obtain ⟨b, m, hok, hf⟩ := bind_eq_ok.1 hok
  refine h b hordered (hs.goes (Moves.of_ok hok)) (fun _ => ?_)
    (hhand.append (hp hordered hs hok)) hf
  exact Nat.lt_of_le_of_lt hhand.le (Advances.forward hok)

theorem ite {c : Prop} [Decidable c] {p q : Parser α} (hp : Builds tokens i moved hand p)
    (hq : Builds tokens i moved hand q) : Builds tokens i moved hand (if c then p else q) := by
  split
  · exact hp
  · exact hq

/-- What is in hand is what is answered. -/
theorem give {a : α} (h : LaidOut.layouts a = hand) :
    Builds tokens i moved hand (Pure.pure a : Parser α) := by
  intro _ setting s b n _ _ hhand hok
  obtain ⟨rfl, rfl⟩ := pure_eq_ok.1 hok
  rw [h]
  exact hhand

/-- **A node is wrapped up when its span is taken.** -/
theorem wrap {start : Position} (hstart : StartsAt tokens i start) {make : Span → α}
    (h : ∀ span, LaidOut.layouts (make span) = [.node span false hand]) :
    Builds tokens i true hand (do return make (← spanFrom start)) := by
  intro hordered setting s a n hs hmoved hhand hok
  obtain ⟨span, m, hspan, hok⟩ := bind_eq_ok.1 hok
  cases hspan
  obtain ⟨rfl, rfl⟩ := pure_eq_ok.1 hok
  rw [h]
  exact hs.wrap hordered (hmoved rfl) hstart hhand

/-- An error is no answer. -/
theorem unexpected {expected : String} :
    Builds tokens i moved hand (Parser.unexpected expected : Parser α) := nofun

/-- A parser that lays out what it answers, with nothing in hand. -/
theorem last {p : Parser α} (hp : Lays tokens p) : Builds tokens i moved [] p :=
  fun hordered {_ _ _ _} hs _ hhand hok =>
    (hp hordered hs hok).mono hhand.le (Nat.le_refl _)

/-- What is answered is laid out as something else. -/
theorem map {p : Parser β} {make : β → α} (hp : Builds tokens i moved hand p)
    (h : ∀ b, LaidOut.layouts (make b) = LaidOut.layouts b) :
    Builds tokens i moved hand (do return make (← p)) := by
  intro hordered setting s a n hs hmoved hhand hok
  obtain ⟨b, m, hb, hmake⟩ := bind_eq_ok.1 hok
  obtain ⟨rfl, rfl⟩ := pure_eq_ok.1 hmake
  rw [h]
  exact hp hordered hs hmoved hhand hb

end Builds

namespace Lays

/-- A parser begins where it stands, with nothing in hand. -/
theorem of_builds {p : Parser α} (h : ∀ i, Builds tokens i false [] p) : Lays tokens p :=
  fun hordered {_ s _ _} hs hok =>
    h s.index hordered hs nofun (.nil (Nat.le_refl _)) hok

/-- A node begins here. -/
theorem here {f : Position → Parser α}
    (h : ∀ i start, StartsAt tokens i start → Builds tokens i false [] (f start)) :
    Lays tokens (Parser.here >>= f) := by
  intro hordered setting s a n hs hok
  obtain ⟨start, m, hstart, hf⟩ := bind_eq_ok.1 hok
  cases hstart
  refine h s.index (setting.here s) ?_ hordered hs nofun (.nil (Nat.le_refl _)) hf
  intro t ht
  rw [hs.getElem?_index] at ht
  obtain ⟨ts, hts⟩ := List.head?_eq_some_iff.1 ht
  simp [Setting.here, hts]

/-- A node begins with a keyword or operator. -/
theorem opening {text : String} {f : Span → Parser α}
    (h : ∀ i (span : Span), StartsAt tokens i span.start → Builds tokens i true [] (f span)) :
    Lays tokens (expect text >>= f) := by
  intro hordered setting s a n hs hok
  obtain ⟨span, m, hspan, hf⟩ := bind_eq_ok.1 hok
  have hgoes : s.Goes m := Moves.of_ok hspan
  refine h s.index span ?_ hordered (hs.goes hgoes) (fun _ => Advances.forward hspan)
    (.nil hgoes.index_le) hf
  intro t ht
  rw [hs.getElem?_index] at ht
  obtain ⟨ts, hts⟩ := List.head?_eq_some_iff.1 ht
  simp only [expect, hts] at hspan
  split at hspan
  · cases hspan
    rfl
  · cases hspan

/-- Something that is not laid out may be read first. -/
theorem pass {γ : Type} {p : Parser γ} {f : γ → Parser α} [Moves p] (h : ∀ c, Lays tokens (f c)) :
    Lays tokens (p >>= f) := .of_builds fun _ => .pass fun c => .last (h c)

theorem ite {c : Prop} [Decidable c] {p q : Parser α} (hp : Lays tokens p) (hq : Lays tokens q) :
    Lays tokens (if c then p else q) := by
  split
  · exact hp
  · exact hq

/-- Nothing is laid out. -/
theorem nothing {a : α} (h : LaidOut.layouts a = []) : Lays tokens (Pure.pure a : Parser α) :=
  .of_builds fun _ => .give h

theorem unexpected {expected : String} : Lays tokens (Parser.unexpected expected : Parser α) :=
  nofun

theorem tooDeep : Lays tokens (Parser.tooDeep : Parser α) := nofun

/-- What is answered is laid out as something else. -/
theorem map {p : Parser β} {make : β → α} (hp : Lays tokens p)
    (h : ∀ b, LaidOut.layouts (make b) = LaidOut.layouts b) :
    Lays tokens (do return make (← p)) := .of_builds fun _ => .map (.last hp) h

/-! ### Repetition -/

theorem behindTurn {later : Parser (List α)} (hlater : Lays tokens later) {value : Turn α}
    {setting : Setting} {s n : State} {found : List α} {i : Nat} (hordered : Token.Ordered tokens)
    (hs : s.OnWay tokens) (hvalue : Layout.Lie tokens i s.index (LaidOut.layouts value))
    (hok : Parser.behindTurn later value setting s = .ok found n) :
    Layout.Lie tokens i n.index (LaidOut.layouts found) := by
  cases value with
  | stop =>
      obtain ⟨rfl, rfl⟩ := pure_eq_ok.1 hok
      exact hvalue
  | skip => exact (hlater hordered hs hok).mono hvalue.le (Nat.le_refl _)
  | take a =>
      obtain ⟨rest, m, hrest, hok⟩ := bind_eq_ok.1 hok
      obtain ⟨rfl, rfl⟩ := pure_eq_ok.1 hok
      rw [layouts_cons]
      exact hvalue.append (hlater hordered hs hrest)
  | final a =>
      obtain ⟨rfl, rfl⟩ := pure_eq_ok.1 hok
      rw [layouts_cons, layouts_nil, List.append_nil]
      exact hvalue

theorem collect {turn : Parser (Turn α)} [Moves turn] (h : Lays tokens turn) (fuel : Nat) :
    Lays tokens (Parser.collect turn fuel) := by
  induction fuel with
  | zero => exact .nothing rfl
  | succ fuel ih =>
      intro hordered setting s found n hs hok
      obtain ⟨value, m, hturn, hok⟩ := bind_eq_ok.1 hok
      exact ih.behindTurn hordered (hs.goes (Moves.of_ok hturn)) (h hordered hs hturn) hok

/-- A repetition lays out what its turns take, one value behind another. -/
theorem gather {turn : Parser (Turn α)} [Moves turn] (h : Lays tokens turn) :
    Lays tokens (Parser.gather turn) := by
  intro hordered setting s found n hs hok
  rw [gather_eq_collect] at hok
  exact Lays.collect h _ hordered hs hok

theorem whenAccepted {text : String} {p : Parser α} [Moves p] (hp : Lays tokens p) :
    Lays tokens (Parser.whenAccepted text p) :=
  .pass fun _ => .ite (.map hp fun _ => layouts_some _) (.nothing rfl)

theorem commaSeparated {item : Parser α} [Moves item] (hitem : Lays tokens item) :
    Lays tokens (Parser.commaSeparated item) := by
  refine .of_builds fun _ => .take hitem fun first =>
    .take (.gather (.of_builds fun i => .take (.whenAccepted hitem) fun found => ?_)) fun others =>
      .give (by simp)
  cases found with
  | none => exact .give rfl
  | some value => exact .give (by simp [LaidOut.layouts])

/-! ### Errors -/

theorem orSkip {p : Parser α} (hp : Lays tokens p) [Moves p] : Lays tokens (Parser.orSkip p) := by
  intro hordered setting s value n hs hok
  have hgoes : s.Goes n := Moves.of_ok hok
  unfold Parser.orSkip at hok
  split at hok
  · rename_i a m hm
    cases hok
    exact hp hordered hs hm
  · cases hok
    exact .nil hgoes.index_le

theorem orRecover {p : Parser α} (hp : Lays tokens p) [Moves p] :
    Lays tokens (Parser.orRecover p) := by
  intro hordered setting s value n hs hok
  have hgoes : s.Goes n := Moves.of_ok hok
  unfold Parser.orRecover at hok
  split at hok
  · rename_i a m hm
    cases hok
    rw [layouts_some]
    exact hp hordered hs hm
  · cases hok
    exact .nil hgoes.index_le

/-- A level of nesting changes nothing about where nodes lie. -/
theorem guarded {p : Parser α} (hp : Lays tokens p) : Lays tokens (Parser.guarded p) := by
  intro hordered setting s a n hs hok
  obtain ⟨-, m, hm, rfl⟩ := guarded_eq_ok.1 hok
  have hlie := hp hordered (s := { s with depth := s.depth + 1 }) hs hm
  exact hlie

end Lays

theorem Builds.guarded {p : Parser α} (hp : Builds tokens i moved hand p) :
    Builds tokens i moved hand (Parser.guarded p) := by
  intro hordered setting s a n hs hmoved hhand hok
  obtain ⟨-, m, hm, rfl⟩ := guarded_eq_ok.1 hok
  have hlie := hp hordered (s := { s with depth := s.depth + 1 }) hs hmoved hhand hm
  exact hlie

end

/-! ### Phrases -/

section

variable {tokens : List Token}

/-- **An expression lies on its tokens.** -/
theorem expressionUntil_lays (stops : List String) : Lays tokens (expressionUntil stops) := by
  intro hordered setting s e n hs hok
  obtain ⟨first, later, htake, rfl, rfl⟩ := expressionUntil_eq_ok hok
  have hle := expressionLength_le stops 0 s.rest
  generalize expressionLength stops 0 s.rest = length at htake hle
  have hlength : length = later.length + 1 := by
    have hboth := congrArg List.length htake
    rw [List.length_take, Nat.min_eq_left hle] at hboth
    exact hboth
  -- The tokens of the expression are those ahead, so its ends are found among all tokens.
  have hget (k : Nat) (hk : k < length) : tokens[s.index + k]? = (first :: later)[k]? := by
    rw [← htake, List.getElem?_take, if_pos hk, ← hs.drop_eq, List.getElem?_drop]
  have hfirst : tokens[s.index]? = some first := hget 0 (by omega)
  have hlast : tokens[s.index + later.length]? = some (later.getLastD first) := by
    rw [hget later.length (by omega), List.getLastD_eq_getLast?, ← List.getLast?_cons,
      List.getLast?_eq_getElem?, List.length_cons, Nat.add_sub_cancel]
  have hparts : Layout.Lie tokens s.index (s.index + later.length + 1) [] := .nil (by omega)
  rw [State.index_skip hle, hlength, ← Nat.add_assoc]
  exact hparts.wrap (Nat.le_add_right _ _) hfirst hlast

theorem parenthesized_lays : Lays tokens parenthesized :=
  .of_builds fun _ => .pass fun _ => .take (expressionUntil_lays _) fun _ => .pass fun _ =>
    .give (by simp)

theorem arguments_lays : Lays tokens arguments :=
  .pass fun _ => .pass fun _ => .ite (.nothing rfl)
    (.of_builds fun _ => .take (.commaSeparated (expressionUntil_lays _)) fun _ => .pass fun _ =>
      .give (by simp))

/-- A variable whose name was read begins with its name. -/
theorem declarator_builds (name : String) {i : Nat} {start : Position}
    (hstart : StartsAt tokens i start) : Builds tokens i true [] (declarator name start) :=
  .pass fun _ => .take (.whenAccepted (expressionUntil_lays _)) fun _ =>
    .wrap hstart fun _ => by simp [VariableDecl.layout]

/-- The variables of a declaration lie from the name that was just read on. -/
theorem declarators_lie (hordered : Token.Ordered tokens) {name : String} {setting : Setting}
    {s n : State} {found : List VariableDecl} (hs : s.OnWay tokens) {i : Nat}
    (hi : s.index = i + 1) (hok : declarators name setting s = .ok found n) :
    Layout.Lie tokens i n.index (LaidOut.layouts found) := by
  obtain ⟨_, _, hstate, hok⟩ := bind_eq_ok.1 hok
  cases hstate
  obtain ⟨t, ht, hlast⟩ := hs.last_eq hi
  have hstart : StartsAt tokens i ((s.last.map (·.span.start)).getD {}) := by
    intro u hu
    cases ht.symm.trans hu
    rw [hlast]
    rfl
  have hturn : Lays tokens (do
      if ← accept "," then
        let start ← here
        let name ← identifier
        return Turn.take (← declarator name start)
      else return Turn.stop) :=
    .pass fun _ => .ite (.here fun _ _ hstart => .step fun name =>
      .map (declarator_builds name hstart) fun _ => rfl) (.nothing rfl)
  obtain ⟨first, m, hfirst, hok⟩ := bind_eq_ok.1 hok
  obtain ⟨others, m', hothers, hok⟩ := bind_eq_ok.1 hok
  obtain ⟨rfl, rfl⟩ := pure_eq_ok.1 hok
  have hfirstlie := declarator_builds name hstart hordered hs (fun _ => by omega)
    (.nil (by omega)) hfirst
  have hotherslie := Lays.gather hturn hordered (hs.goes (Moves.of_ok hfirst)) hothers
  rw [layouts_cons]
  exact hfirstlie.append hotherslie

/-- The variables of a declaration, with nothing else in hand. -/
theorem Builds.declarators {α : Type} [LaidOut α] {i : Nat} {name : String}
    {f : List VariableDecl → Parser α}
    (h : ∀ found, Builds tokens i true (LaidOut.layouts found) (f found)) :
    Builds tokens i true [] (JavaOutline.declarators name >>= f) := by
  intro hordered setting s a n hs hmoved _ hok
  obtain ⟨found, m, hfound, hf⟩ := bind_eq_ok.1 hok
  have hlt := hmoved rfl
  obtain ⟨l, hl⟩ : ∃ l, s.index = l + 1 := ⟨s.index - 1, by omega⟩
  have hlie := declarators_lie hordered hs hl hfound
  have hgoes := Moves.of_ok hfound
  exact h found hordered (hs.goes hgoes) (fun _ => Nat.lt_of_lt_of_le hlt hgoes.index_le)
    (hlie.mono (by omega) (Nat.le_refl _)) hf

end

end JavaOutline
