/-
**Readings that mirror parsers.**

A parser that knows the tokens ahead and a reading that knows a position stand at the same place if the
position is the number of tokens passed.  A reading mirrors a parser if from there it comes to the same
value or error and to the same place.  A parser knows no faults, so what mirrors a parser has none: every
index is in range, no counter falls below zero, and every loop ends.

Main definitions:

* `Walk.Course` — a list to be read, with turns enough for every loop;
* `Parser.State.mark`, `Parser.Answer.mark` — the place of a state, and what comes of an answer;
* `MirrorsAt`, `Mirrors` — a reading mirrors a parser from a state, and from every state on the way.

Main results:

* `Mirrors.bind`, `Mirrors.window` — one reading after another, and decisions on the tokens ahead;
* `skipBalanced_mirrors`, `recover_mark`, `isForEach_mark` — **counting brackets has no fault**;
* `expressionUntil_mirrors` — **reading an expression has no fault**.
-/

import JavaOutline.Proofs.NestedMovement
import JavaOutline.Proofs.PositionReading

set_option autoImplicit false
set_option synthInstance.maxSize 100000

namespace JavaOutline

open JavaOutline.Parser

/-! ### Places -/

/-- A list to be read, with turns enough for every token and calls enough for every level. -/
structure Walk.Course extends Walk.Setting where
  ample : tokens.length + maxNesting < fuel

/-- The setting in which a parser reads the same list. -/
def Walk.Course.parser (c : Walk.Course) : Parser.Setting where
  diet := c.diet
  finish := c.finish
  total := c.tokens.length

/-- The place of a state. -/
def Parser.State.mark (s : State) : Walk.State := ⟨s.index, s.depth, s.errors⟩

/-- What comes of an answer. -/
def Parser.Answer.mark {α : Type} : Answer α → Walk.Outcome α
  | .ok a n => .done a n.mark
  | .fail e n => .error e n.mark

/-- A state that shows only the next three tokens. -/
def Parser.State.window (s : State) : State := { rest := s.rest.take 3 }

section

variable {α β : Type} (c : Walk.Course) (s : State)

/-- A reading mirrors a parser from a state: it comes to what the parser comes to. -/
def MirrorsAt (q : Walk α) (p : Parser α) : Prop := q c.toSetting s.mark = (p c.parser s).mark

/-- A reading mirrors a parser from every state on the way at which at least `low` levels are
counted. -/
def Mirrors (low : Nat) (q : Walk α) (p : Parser α) : Prop :=
  ∀ s : State, s.OnWay c.tokens → low ≤ s.depth → MirrorsAt c s q p

end

/-! ### What is seen in a window -/

namespace Parser.State

variable (s : State)

@[simp] theorem window_sees (text : String) : s.window.sees text = s.sees text := by
  cases h : s.rest <;> simp [window, sees, h]

@[simp] theorem window_seesSecond (text : String) :
    s.window.seesSecond text = s.seesSecond text := by
  simp [window, seesSecond]

@[simp] theorem window_seesPair (first second : String) :
    s.window.seesPair first second = s.seesPair first second := by
  simp [seesPair]

@[simp] theorem window_seesIdentifier : s.window.seesIdentifier = s.seesIdentifier := by
  cases h : s.rest <;> simp [window, seesIdentifier, h]

@[simp] theorem window_seesName (name : String) : s.window.seesName name = s.seesName name := by
  cases h : s.rest <;> simp [window, seesName, h]

@[simp] theorem window_seesIdentifierSecond :
    s.window.seesIdentifierSecond = s.seesIdentifierSecond := by
  simp [window, seesIdentifierSecond]

@[simp] theorem window_isEmpty : s.window.rest.isEmpty = s.rest.isEmpty := by
  cases h : s.rest <;> simp [window, h]

@[simp] theorem window_head? : s.window.rest.head? = s.rest.head? := by
  cases h : s.rest <;> simp [window, h]

@[simp] theorem window_seesAnnotation : s.window.seesAnnotation = s.seesAnnotation := by
  simp [ seesAnnotation]

@[simp] theorem window_seesTypeDecl : s.window.seesTypeDecl = s.seesTypeDecl := by
  simp [seesTypeDecl]

@[simp] theorem window_modifier? : s.window.modifier? = s.modifier? := by
  have hsecond (text : String) := s.window_seesSecond text
  cases h : s.rest with
  | nil => simp [modifier?, window, h]
  | cons t ts =>
      have hrest : s.window.rest = t :: ts.take 2 := by simp [window, h]
      simp [modifier?, h, hrest, hsecond]

@[simp] theorem window_sealedLength? : s.window.sealedLength? = s.sealedLength? := by
  match h : s.rest with
  | [] => simp [sealedLength?, window, h]
  | [_] => simp [sealedLength?, window, h]
  | _ :: _ :: rest => cases rest <;> simp [sealedLength?, window, h]

end Parser.State

section

variable {α β : Type} {c : Walk.Course} {s : State} {low : Nat}

/-! ### Looking and moving -/

theorem Walk.bind_done {q : Walk α} {g : α → Walk β} {setting : Walk.Setting} {w w' : Walk.State}
    {a : α} (h : q setting w = .done a w') : (q >>= g) setting w = g a setting w' := by
  show Walk.bind q g setting w = _
  rw [Walk.bind, h]

theorem Walk.lift_done {checked : Checked α} {a : α} (h : checked = .ok a) {setting : Walk.Setting}
    {w : Walk.State} : Walk.lift checked setting w = .done a w := by
  subst h
  rfl

theorem Walk.position_done (setting : Walk.Setting) (w : Walk.State) :
    Walk.position setting w = .done w.pos w := rfl

theorem Walk.tokens_done (setting : Walk.Setting) (w : Walk.State) :
    Walk.tokens setting w = .done setting.tokens w := rfl

theorem Walk.fuel_done (setting : Walk.Setting) (w : Walk.State) :
    Walk.fuel setting w = .done setting.fuel w := rfl

/-- What stands ahead is what the parser sees, and the mark where it sees nothing. -/
theorem peekAt_mark (hs : s.OnWay c.tokens) (n : Nat) :
    Walk.peekAt n c.toSetting s.mark = .done s.rest[n]? s.mark := by
  have hentry : Walk.peekAt n c.toSetting s.mark =
      Walk.entryAt (min (s.index + n) c.tokens.length) c.toSetting s.mark := rfl
  have hmin : c.tokens[min (s.index + n) c.tokens.length]? = s.rest[n]? := by
    rw [← hs.drop_eq, List.getElem?_drop]
    rcases Nat.le_total (s.index + n) c.tokens.length with hle | hle
    · rw [Nat.min_eq_left hle]
    · rw [Nat.min_eq_right hle, List.getElem?_eq_none (Nat.le_refl _), List.getElem?_eq_none hle]
  rw [hentry, Walk.entryAt, if_pos (by omega), hmin]

theorem window_mark (hs : s.OnWay c.tokens) :
    Walk.window c.toSetting s.mark = .done s.window s.mark := by
  rw [Walk.window, Walk.bind_done (peekAt_mark hs 0), Walk.bind_done (peekAt_mark hs 1),
    Walk.bind_done (peekAt_mark hs 2), State.window]
  match s.rest with
  | [] => rfl
  | [_] => rfl
  | [_, _] => rfl
  | _ :: _ :: _ :: _ => rfl

/-- The position is set to a place on the way. -/
theorem moveTo_mark (hs : s.OnWay c.tokens) (w : Walk.State) :
    Walk.moveTo s.index c.toSetting w = .done () { w with pos := s.index } := by
  have hle := hs.index_le
  rw [Walk.moveTo, if_pos (by omega)]

theorem next_mark (hs : s.OnWay c.tokens) :
    Walk.next c.toSetting s.mark = .done s.rest.head? s.advance.mark := by
  have hgoes := hs.goes (State.goes_advance s)
  rw [Walk.next, Walk.bind_done (peekAt_mark hs 0), ← List.head?_eq_getElem?]
  cases hrest : s.rest with
  | nil =>
      simp only [State.advance, hrest]
      rfl
  | cons t ts =>
      have hindex : s.index + 1 = s.advance.index := by rw [State.advance_cons hrest]
      show ((Walk.moveTo (s.index + 1) >>= fun _ => pure (some t)) c.toSetting s.mark) = _
      rw [hindex, Walk.bind_done (moveTo_mark hgoes _), State.advance_cons hrest]
      rfl

theorem advance_mirrorsAt (hs : s.OnWay c.tokens) : MirrorsAt c s Walk.advance Parser.advance := by
  rw [MirrorsAt, Walk.advance, Walk.bind_done (next_mark hs)]
  rfl

theorem skip_mirrorsAt (hs : s.OnWay c.tokens) (n : Nat) :
    MirrorsAt c s (Walk.skip n) (Parser.skip n) := by
  induction n generalizing s with
  | zero => rfl
  | succ n ih =>
      rw [MirrorsAt, Walk.skip, Walk.bind_done (advance_mirrorsAt hs)]
      exact ih (hs.goes (State.goes_advance s))

theorem sees_mark (hs : s.OnWay c.tokens) (text : String) :
    Walk.sees text c.toSetting s.mark = .done (s.sees text) s.mark := by
  rw [Walk.sees, Walk.bind_done (peekAt_mark hs 0), ← List.head?_eq_getElem?]
  rfl

theorem hereSpan_mark (hs : s.OnWay c.tokens) :
    Walk.hereSpan c.toSetting s.mark = .done (c.parser.hereSpan s) s.mark := by
  rw [Walk.hereSpan, Walk.bind_done (peekAt_mark hs 0), Setting.hereSpan]
  cases s.rest <;> rfl

theorem unexpectedAhead_mark (hs : s.OnWay c.tokens) (expected : String) :
    Walk.unexpectedAhead expected c.toSetting s.mark =
      .done (c.parser.unexpected s expected) s.mark := by
  rw [Walk.unexpectedAhead, Walk.bind_done (hereSpan_mark hs), Walk.bind_done (peekAt_mark hs 0),
    Setting.unexpected, Setting.hereSpan]
  cases s.rest <;> rfl

theorem spanFrom_mark (hs : s.OnWay c.tokens) (start : Position) :
    Walk.spanFrom start c.toSetting s.mark = .done (s.spanFrom start) s.mark := by
  have hpos : s.mark.pos = s.index := rfl
  rw [Walk.spanFrom, Walk.bind_done (Walk.position_done _ _), hpos]
  cases hindex : s.index with
  | zero =>
      rw [if_pos rfl, State.spanFrom, hs.last_eq_none hindex]
      rfl
  | succ i =>
      -- A token was passed, so there is one just behind.
      obtain ⟨last, hlast, hbehind⟩ := hs.last_eq hindex
      have hminus : Checked.minus (i + 1) 1 = .ok i := Checked.minus_ok (Nat.le_add_left 1 i)
      rw [if_neg (Nat.succ_ne_zero i), Walk.bind_done (Walk.lift_done hminus),
        Walk.bind_done (Walk.tokens_done _ _), Walk.bind_done (Walk.lift_done (Checked.item_ok hlast)),
        State.spanFrom, hbehind]
      rfl

/-! ### One step after another -/

namespace MirrorsAt

/-- What follows mirrors from wherever the parser goes. -/
theorem go {q : Walk α} {p : Parser α} {g : α → Walk β} {f : α → Parser β} [Moves p]
    (hq : MirrorsAt c s q p) (h : ∀ a n, s.Goes n → p c.parser s = .ok a n → MirrorsAt c n (g a) (f a)) :
    MirrorsAt c s (q >>= g) (p >>= f) := by
  show Walk.bind q g c.toSetting s.mark = (Parser.bind p f c.parser s).mark
  rw [Walk.bind, Parser.bind, hq]
  cases hp : p c.parser s with
  | ok a n => exact h a n (Moves.of_ok hp) hp
  | fail e n => rfl

theorem pure (a : α) : MirrorsAt c s (Pure.pure a) (Pure.pure a) := rfl

theorem ite {b b' : Prop} [Decidable b] [Decidable b'] {q q' : Walk α} {p p' : Parser α}
    (hb : b ↔ b') (hq : b' → MirrorsAt c s q p) (hq' : ¬ b' → MirrorsAt c s q' p') :
    MirrorsAt c s (if b then q else q') (if b' then p else p') := by
  by_cases h : b'
  · rw [if_pos h, if_pos (hb.2 h)]
    exact hq h
  · rw [if_neg h, if_neg fun hb' => h (hb.1 hb')]
    exact hq' h

theorem position {q : Nat → Walk α} {p : Parser α} (h : MirrorsAt c s (q s.index) p) :
    MirrorsAt c s (Walk.position >>= q) p := h

theorem state {q : Walk α} {f : State → Parser α} (h : MirrorsAt c s q (f s)) :
    MirrorsAt c s q (Parser.state >>= f) := h

/-- A decision on the tokens ahead. -/
theorem window {g : State → Walk β} {f : State → Parser β} (hs : s.OnWay c.tokens)
    (h : MirrorsAt c s (g s.window) (f s)) :
    MirrorsAt c s (Walk.window >>= g) (Parser.state >>= f) := by
  rw [MirrorsAt, Walk.bind_done (window_mark hs)]
  exact h

end MirrorsAt

namespace Mirrors

variable {q : Walk α} {p : Parser α} {g : α → Walk β} {f : α → Parser β}

theorem mono {high : Nat} (hq : Mirrors c low q p) (h : low ≤ high) : Mirrors c high q p :=
  fun s hs hdepth => hq s hs (Nat.le_trans h hdepth)

/-- One reading and then another one. -/
theorem bind [Moves p] (hq : Mirrors c low q p) (h : ∀ a, Mirrors c low (g a) (f a)) :
    Mirrors c low (q >>= g) (p >>= f) := fun s hs hdepth =>
  (hq s hs hdepth).go fun a _ hgoes _ =>
    h a _ (hs.goes hgoes) (Nat.le_trans hdepth hgoes.depth)

theorem pure (a : α) : Mirrors c low (Pure.pure a) (Pure.pure a) := fun _ _ _ => rfl

theorem ite {b : Prop} [Decidable b] {q q' : Walk α} {p p' : Parser α} (hq : Mirrors c low q p)
    (hq' : Mirrors c low q' p') : Mirrors c low (if b then q else q') (if b then p else p') :=
  fun s hs hdepth => .ite Iff.rfl (fun _ => hq s hs hdepth) fun _ => hq' s hs hdepth

theorem window {g : State → Walk β} {f : State → Parser β}
    (h : ∀ s : State, s.OnWay c.tokens → low ≤ s.depth → MirrorsAt c s (g s.window) (f s)) :
    Mirrors c low (Walk.window >>= g) (Parser.state >>= f) :=
  fun s hs hdepth => .window hs (h s hs hdepth)

/-- A decision on the token ahead, which is known to be there if it is seen. -/
theorem ifSees {text : String} {q q' : Walk α} {p p' : Parser α}
    (hq : ∀ s : State, s.OnWay c.tokens → low ≤ s.depth → s.sees text = true → MirrorsAt c s q p)
    (hq' : Mirrors c low q' p') :
    Mirrors c low (do if ← Walk.sees text then q else q')
      (do if ← Parser.sees text then p else p') := by
  intro s hs hdepth
  rw [MirrorsAt, Walk.bind_done (sees_mark hs text)]
  exact MirrorsAt.ite Iff.rfl (hq s hs hdepth) fun _ => hq' s hs hdepth

end Mirrors

/-! ### Single steps -/

theorem sees_mirrors (text : String) : Mirrors c low (Walk.sees text) (Parser.sees text) :=
  fun _ hs _ => sees_mark hs text

theorem here_mirrors : Mirrors c low Walk.here Parser.here := by
  intro s hs _
  rw [MirrorsAt, Walk.here, Walk.bind_done (hereSpan_mark hs)]
  show Walk.Outcome.done (c.parser.hereSpan s).start s.mark = .done (c.parser.here s) s.mark
  rw [Setting.hereSpan, Setting.here]
  cases s.rest <;> rfl

theorem isDiet_mirrors : Mirrors c low Walk.isDiet Parser.isDiet := fun _ _ _ => rfl

theorem spanFrom_mirrors (start : Position) :
    Mirrors c low (Walk.spanFrom start) (Parser.spanFrom start) := fun _ hs _ => spanFrom_mark hs start

theorem advance_mirrors : Mirrors c low Walk.advance Parser.advance :=
  fun _ hs _ => advance_mirrorsAt hs

theorem skip_mirrors (n : Nat) : Mirrors c low (Walk.skip n) (Parser.skip n) :=
  fun _ hs _ => skip_mirrorsAt hs n

theorem unexpected_mirrors (expected : String) :
    Mirrors c low (Walk.unexpected expected : Walk α) (Parser.unexpected expected) := by
  intro s hs _
  rw [MirrorsAt, Walk.unexpected, Walk.bind_done (unexpectedAhead_mark hs expected)]
  rfl

theorem reportUnexpected_mirrors (expected : String) :
    Mirrors c low (Walk.reportUnexpected expected) (Parser.reportUnexpected expected) := by
  intro s hs _
  rw [MirrorsAt, Walk.reportUnexpected, Walk.bind_done (unexpectedAhead_mark hs expected)]
  rfl

theorem accept_mirrors (text : String) : Mirrors c low (Walk.accept text) (Parser.accept text) := by
  intro s hs _
  rw [MirrorsAt, Walk.accept, Walk.bind_done (sees_mark hs text), Parser.accept]
  cases s.sees text with
  | true =>
      show (Walk.advance >>= fun _ => Pure.pure true) c.toSetting s.mark = _
      rw [Walk.bind_done (advance_mirrorsAt hs)]
      rfl
  | false => rfl

theorem expect_mirrors (text : String) : Mirrors c low (Walk.expect text) (Parser.expect text) := by
  intro s hs hdepth
  have hfail : MirrorsAt c s (Walk.unexpected ("'" ++ text ++ "'") : Walk Span) _ :=
    unexpected_mirrors _ s hs hdepth
  rw [MirrorsAt, Walk.expect, Walk.bind_done (sees_mark hs text), Parser.expect]
  cases hrest : s.rest with
  | nil =>
      have hsees : s.sees text = false := by rw [State.sees, hrest]; rfl
      rw [hsees]
      exact hfail
  | cons t ts =>
      have hsees : s.sees text = t.is text := by rw [State.sees, hrest]; rfl
      have hspan : c.parser.hereSpan s = t.span := by rw [Setting.hereSpan, hrest]
      rw [hsees]
      dsimp only
      split
      · rw [Walk.bind_done (hereSpan_mark hs), Walk.bind_done (advance_mirrorsAt hs), hspan]
        rfl
      · exact hfail

theorem identifier_mirrors : Mirrors c low Walk.identifier Parser.identifier := by
  intro s hs hdepth
  have hfail : MirrorsAt c s (Walk.unexpected "identifier" : Walk String) _ :=
    unexpected_mirrors _ s hs hdepth
  rw [MirrorsAt, Walk.identifier, Walk.bind_done (peekAt_mark hs 0), Parser.identifier]
  cases hrest : s.rest with
  | nil => exact hfail
  | cons t ts =>
      dsimp only [List.getElem?_cons_zero]
      split
      · rw [Walk.bind_done (advance_mirrorsAt hs)]
        rfl
      · exact hfail

/-! ### Counting brackets -/

/-- What a loop over the tokens may still do is less behind a token. -/
theorem Parser.State.OnWay.remaining_lt {t : Token} {ts : List Token} (hs : s.OnWay c.tokens)
    (h : s.rest = t :: ts) {fuel : Nat} (hfuel : c.tokens.length - s.index < fuel + 1) :
    s.advance.OnWay c.tokens ∧ s.advance.rest = ts ∧ s.advance.last = some t ∧
      c.tokens.length - s.advance.index < fuel := by
  have hnext := hs.goes (State.goes_advance s)
  have hle := hnext.index_le
  rw [State.advance_cons h] at hnext hle ⊢
  simp only at hle
  exact ⟨hnext, rfl, rfl, by simp only; omega⟩

/-- The answer about a group whose rest has the given length, if it has an end. -/
def groupAnswer (c : Walk.Course) (closer : String) (start : Position) (s : State) :
    Option Nat → Answer Span
  | some n => .ok ⟨start, ((s.skip n).last.map (·.span.stop)).getD start⟩ (s.skip n)
  | none =>
      .fail (.unexpectedEnd ("'" ++ closer ++ "'") ⟨c.finish, c.finish⟩) (s.skip s.rest.length)

theorem groupAnswer_succ {closer : String} {start : Position} {t : Token} {ts : List Token}
    (h : s.rest = t :: ts) (n? : Option Nat) :
    groupAnswer c closer start s (n?.map (· + 1)) = groupAnswer c closer start s.advance n? := by
  cases n? with
  | some n => rfl
  | none =>
      have hlength : s.rest.length = s.advance.rest.length + 1 := by
        rw [State.advance_cons h, h, List.length_cons]
      simp only [Option.map_none, groupAnswer, hlength]
      rfl

/-- Inside a group the depth is counted down only when it is above zero. -/
theorem skipGroup_mark {opener closer : String} {start : Position} {fuel : Nat} (depth : Nat)
    (hs : s.OnWay c.tokens) (hfuel : c.tokens.length - s.index < fuel) :
    Walk.skipGroup opener closer start fuel (depth + 1) c.toSetting s.mark =
      (groupAnswer c closer start s (groupLength? opener closer depth s.rest)).mark := by
  induction fuel generalizing s depth with
  | zero => omega
  | succ fuel ih =>
      rw [Walk.skipGroup, Walk.bind_done (peekAt_mark hs 0)]
      cases hrest : s.rest with
      | nil =>
          rw [groupLength?, groupAnswer, hrest]
          rfl
      | cons t ts =>
          obtain ⟨hnext, hts, hlast, hless⟩ := hs.remaining_lt hrest hfuel
          have hlater (depth : Nat) := ih depth hnext hless
          rw [hts] at hlater
          simp only [List.getElem?_cons_zero, groupLength?]
          rw [Walk.bind_done (advance_mirrorsAt hs)]
          split
          · rw [groupAnswer_succ hrest]
            exact hlater (depth + 1)
          · split
            · rw [Walk.bind_done (Walk.lift_done (Checked.minus_ok (Nat.le_add_left 1 depth)))]
              cases depth with
              | zero =>
                  show Walk.Outcome.done _ _ = (groupAnswer c closer start s (some 1)).mark
                  have hone : s.skip 1 = s.advance := rfl
                  rw [groupAnswer, hone, hlast]
                  rfl
              | succ depth =>
                  rw [groupAnswer_succ hrest]
                  exact hlater depth
            · rw [groupAnswer_succ hrest]
              exact hlater depth

/-- **Passing over a group has no fault** where its opener is ahead. -/
theorem skipBalanced_mirrors {opener closer : String} (hcloser : Walk.closerOf? opener = some closer)
    (hs : s.OnWay c.tokens) (hsees : s.sees opener = true) :
    MirrorsAt c s Walk.skipBalanced (Parser.bracketed opener closer) := by
  have hfuel := c.ample
  obtain ⟨t, ts, hrest, hopens⟩ := State.exists_cons_of_sees hsees
  have htext : t.text = opener := Token.text_of_is hopens
  have hstart : c.parser.here s = t.span.start := by rw [Setting.here, hrest]
  have hnext := hs.goes (State.goes_advance s)
  have hgroup : Walk.skipGroup opener closer t.span.start c.fuel 1 c.toSetting s.advance.mark =
      (groupAnswer c closer t.span.start s.advance _).mark := skipGroup_mark 0 hnext (by omega)
  rw [MirrorsAt, Walk.skipBalanced, Walk.bind_done (next_mark hs), hrest]
  simp only [List.head?_cons, htext, hcloser]
  rw [Walk.bind_done (Walk.fuel_done _ _), hgroup]
  unfold Parser.bracketed
  simp only [hstart]
  cases groupLength? opener closer 0 s.advance.rest <;> rfl

theorem recoverLoop_mark {fuel : Nat} (depth : Nat) (hs : s.OnWay c.tokens)
    (hfuel : c.tokens.length - s.index < fuel) :
    Walk.recoverLoop fuel depth c.toSetting s.mark =
      .done () (s.skip (recoveryLength depth s.rest)).mark := by
  induction fuel generalizing s depth with
  | zero => omega
  | succ fuel ih =>
      rw [Walk.recoverLoop, Walk.bind_done (peekAt_mark hs 0)]
      cases hrest : s.rest with
      | nil => rfl
      | cons t ts =>
          obtain ⟨hnext, hts, -, hless⟩ := hs.remaining_lt hrest hfuel
          have hlater (depth : Nat) := ih depth hnext hless
          rw [hts] at hlater
          have hadvance := advance_mirrorsAt hs
          simp only [List.getElem?_cons_zero, recoveryLength]
          split
          · rw [Walk.bind_done hadvance]
            exact hlater (depth + 1)
          · split
            · cases depth with
              | zero => rfl
              | succ depth =>
                  have hminus : Checked.minus (depth + 1) 1 = .ok depth :=
                    Checked.minus_ok (Nat.le_add_left 1 depth)
                  rw [if_neg (Nat.succ_ne_zero depth), Walk.bind_done (Walk.lift_done hminus),
                    Walk.bind_done hadvance]
                  dsimp only
                  split
                  · rfl
                  · exact hlater depth
            · split
              · exact hadvance
              · rw [Walk.bind_done hadvance]
                exact hlater depth

/-- **Passing over the rest of a statement has no fault.** -/
theorem recover_mark (hs : s.OnWay c.tokens) :
    Walk.recover c.toSetting s.mark = .done () s.recovered.mark := by
  have hfuel := c.ample
  rw [Walk.recover, Walk.bind_done (Walk.fuel_done _ _)]
  exact recoverLoop_mark 0 hs (by omega)

theorem expressionLoop_mark {stops : List String} {fuel : Nat} (depth : Nat)
    (hs : s.OnWay c.tokens) (hfuel : c.tokens.length - s.index < fuel) :
    Walk.expressionLoop stops fuel depth c.toSetting s.mark =
      .done () (s.skip (expressionLength stops depth s.rest)).mark := by
  induction fuel generalizing s depth with
  | zero => omega
  | succ fuel ih =>
      rw [Walk.expressionLoop, Walk.bind_done (peekAt_mark hs 0)]
      cases hrest : s.rest with
      | nil => rfl
      | cons t ts =>
          obtain ⟨hnext, hts, -, hless⟩ := hs.remaining_lt hrest hfuel
          have hlater (depth : Nat) := ih depth hnext hless
          rw [hts] at hlater
          have hadvance := advance_mirrorsAt hs
          simp only [List.getElem?_cons_zero, expressionLength]
          split
          · rfl
          · split
            · rw [Walk.bind_done hadvance]
              exact hlater (depth + 1)
            · split
              · cases depth with
                | zero => rfl
                | succ depth =>
                    have hminus : Checked.minus (depth + 1) 1 = .ok depth :=
                      Checked.minus_ok (Nat.le_add_left 1 depth)
                    rw [if_neg (Nat.succ_ne_zero depth), Walk.bind_done (Walk.lift_done hminus),
                      Walk.bind_done hadvance]
                    exact hlater depth
              · rw [Walk.bind_done hadvance]
                exact hlater depth

/-- The slice between two places on the way is what was passed between them. -/
theorem part_mark {n : State} (hs : s.OnWay c.tokens) (hn : n.OnWay c.tokens)
    (hle : s.index ≤ n.index) :
    Checked.part c.tokens s.index n.index = .ok (n.tokensSince s) := by
  rw [Checked.part_ok hle hn.index_le, State.tokensSince, ← hs.drop_eq, List.drop_take]

/-- The text since an earlier place on the way is found without a fault. -/
theorem textSince_mark {n : State} (hs : s.OnWay c.tokens) (hn : n.OnWay c.tokens)
    (hle : s.index ≤ n.index) :
    Walk.textSince s.index c.toSetting n.mark = .done (Token.join (n.tokensSince s)) n.mark := by
  have hpart : Checked.part c.tokens s.index n.mark.pos = .ok (n.tokensSince s) :=
    part_mark hs hn hle
  rw [Walk.textSince, Walk.bind_done (Walk.position_done _ _), Walk.bind_done (Walk.tokens_done _ _),
    Walk.bind_done (Walk.lift_done hpart), Walk.lift_done (Checked.textOf_eq _)]

/-- **Reading an expression has no fault**: the slice is in range, and it is looked into only if it has a
token. -/
theorem expressionUntil_mirrors (stops : List String) :
    Mirrors c low (Walk.expressionUntil stops) (JavaOutline.expressionUntil stops) := by
  intro s hs hdepth
  have hfuel := c.ample
  have hle := expressionLength_le stops 0 s.rest
  have hloop : Walk.expressionLoop stops c.fuel 0 c.toSetting s.mark = .done () _ :=
    expressionLoop_mark 0 hs (by omega)
  have hn := hs.goes (State.goes_skip (expressionLength stops 0 s.rest) s)
  have hindex := State.index_skip hle
  have hpart : Checked.part c.tokens s.mark.pos
      (s.skip (expressionLength stops 0 s.rest)).mark.pos =
        .ok (s.rest.take (expressionLength stops 0 s.rest)) := by
    have hslice := part_mark hs hn (by omega)
    have hsince : (s.skip (expressionLength stops 0 s.rest)).tokensSince s =
        s.rest.take (expressionLength stops 0 s.rest) := by
      rw [State.tokensSince, hindex, Nat.add_sub_cancel_left]
    rwa [hsince] at hslice
  have hstate : Parser.state c.parser s = .ok s s := rfl
  rw [MirrorsAt, Walk.expressionUntil, Walk.bind_done (Walk.position_done _ _),
    Walk.bind_done (Walk.fuel_done _ _), Walk.bind_done hloop,
    Walk.bind_done (Walk.position_done _ _), Walk.bind_done (Walk.tokens_done _ _),
    Walk.bind_done (Walk.lift_done hpart), JavaOutline.expressionUntil, bind_of_ok hstate]
  cases htake : s.rest.take (expressionLength stops 0 s.rest) with
  | nil =>
      -- Nothing was passed, so the error is reported where the expression should have begun.
      have hzero : expressionLength stops 0 s.rest = 0 := by
        have hlength := congrArg List.length htake
        rwa [List.length_take_of_le hle] at hlength
      rw [hzero]
      exact unexpected_mirrors "expression" s hs hdepth
  | cons first rest =>
      show Walk.lift (Checked.expressionOf (first :: rest)) c.toSetting _ = _
      rw [Walk.lift_done (Checked.expressionOf_eq first rest)]
      rfl

theorem forEachLoop_mark {fuel i : Nat} (depth : Nat) (rest : List Token) (w : Walk.State)
    (hrest : c.tokens.drop i = rest) (hi : i ≤ c.tokens.length)
    (hfuel : c.tokens.length - i < fuel) :
    Walk.forEachLoop fuel i depth c.toSetting w = .done (isForEachHeader depth rest) w := by
  induction fuel generalizing i depth rest with
  | zero => omega
  | succ fuel ih =>
      have hentry : Walk.entryAt i c.toSetting w = .done rest.head? w := by
        rw [Walk.entryAt, if_pos (by omega), ← hrest, List.head?_drop]
      rw [Walk.forEachLoop, Walk.bind_done hentry]
      cases rest with
      | nil => rfl
      | cons t ts =>
          have hlt : i < c.tokens.length := by
            have hlength := congrArg List.length hrest
            rw [List.length_drop, List.length_cons] at hlength
            omega
          have hts : c.tokens.drop (i + 1) = ts := by
            rw [← List.drop_drop, hrest]
            rfl
          have hlater (depth : Nat) := ih depth ts hts hlt (by omega)
          simp only [List.head?_cons, isForEachHeader]
          split
          · exact hlater (depth + 1)
          · split
            · cases depth with
              | zero => rfl
              | succ depth =>
                  have hminus : Checked.minus (depth + 1) 1 = .ok depth :=
                    Checked.minus_ok (Nat.le_add_left 1 depth)
                  rw [if_neg (Nat.succ_ne_zero depth), Walk.bind_done (Walk.lift_done hminus)]
                  exact hlater depth
            · split
              · rfl
              · split
                · rfl
                · exact hlater depth

/-- **Scanning the header of a loop has no fault.** -/
theorem isForEach_mark (hs : s.OnWay c.tokens) :
    Walk.isForEach c.toSetting s.mark = .done (isForEachHeader 0 s.rest) s.mark := by
  have hfuel := c.ample
  rw [Walk.isForEach, Walk.bind_done (Walk.fuel_done _ _), Walk.bind_done (Walk.position_done _ _)]
  exact forEachLoop_mark 0 s.rest s.mark hs.drop_eq hs.index_le (by omega)

end

end JavaOutline
