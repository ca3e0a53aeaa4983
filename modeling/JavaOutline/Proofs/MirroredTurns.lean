/-
**Turns that mirror.**

Repetition, nesting, going on behind errors and looking ahead mirror if what they are made of does.  That
a repetition ends is where progress comes in: a turn behind which it goes on has passed a token, and
there are only so many.  Where an error leaves the parser in front of the same token, the token is passed
over by force.

Main definitions:

* `Productive` — a parser that passes a token if it answers with a value of some sort;
* `Parser.Quiet` — a parser that reports nothing and leaves the level of nesting.

Main results:

* `Mirrors.gather`, `Mirrors.repeatWhile` — **repetitions end**;
* `Mirrors.guarded`, `Mirrors.orRecover`, `Mirrors.orSkip`, `Mirrors.lookingPast` — the other
  combinators.
-/

import JavaOutline.Proofs.Mirroring

set_option autoImplicit false
set_option synthInstance.maxSize 100000

namespace JavaOutline

open JavaOutline.Parser

section

variable {α β : Type} {c : Walk.Course} {s : State} {low : Nat}

/-! ### Progress -/

/-- A parser that answers with a value of some sort has passed a token. -/
def ProductiveAt (sort : α → Prop) (s : State) (p : Parser α) : Prop :=
  ∀ setting a n, p setting s = .ok a n → sort a → s.index < n.index

/-- A parser that passes a token, wherever it begins, if it answers with a value of some sort. -/
def Productive (sort : α → Prop) (p : Parser α) : Prop := ∀ s, ProductiveAt sort s p

/-- A turn behind which the repetition goes on. -/
def Parser.Turn.goesOn : Turn α → Prop
  | .skip | .take _ => True
  | .stop | .final _ => False

theorem ProductiveAt.ite {sort : α → Prop} {b : Prop} [Decidable b] {p p' : Parser α}
    (hp : b → ProductiveAt sort s p) (hp' : ¬ b → ProductiveAt sort s p') :
    ProductiveAt sort s (if b then p else p') := by
  by_cases h : b
  · rw [if_pos h]
    exact hp h
  · rw [if_neg h]
    exact hp' h

theorem ProductiveAt.of_advances {sort : α → Prop} (p : Parser α) [Advances p] :
    ProductiveAt sort s p := fun _ _ _ hok _ => Advances.forward hok

theorem ProductiveAt.other {sort : α → Prop} {a : α} (ha : ¬ sort a) :
    ProductiveAt sort s (Pure.pure a : Parser α) := by
  intro setting b n hok hb
  obtain ⟨rfl, -⟩ := pure_eq_ok.1 hok
  exact absurd hb ha

theorem ProductiveAt.state {sort : β → Prop} {f : State → Parser β}
    (h : ProductiveAt sort s (f s)) : ProductiveAt sort s (Parser.state >>= f) := h

/-- What follows does not go back. -/
theorem ProductiveAt.bind {sort : β → Prop} {p : Parser α} {f : α → Parser β} [∀ a, Moves (f a)]
    (h : ProductiveAt (fun _ => True) s p) : ProductiveAt sort s (p >>= f) := by
  intro setting b n hok _
  obtain ⟨a, m, hp, hf⟩ := bind_eq_ok.1 hok
  exact Nat.lt_of_lt_of_le (h _ _ _ hp trivial) (Moves.of_ok hf).index_le

/-- A keyword or operator that is accepted is passed; otherwise nothing was. -/
theorem ProductiveAt.accept {sort : β → Prop} {text : String} {f : Bool → Parser β}
    (hyes : Moves (f true)) (hno : ProductiveAt sort s (f false)) :
    ProductiveAt sort s (Parser.accept text >>= f) := by
  intro setting b n hok hb
  obtain ⟨accepted, m, hp, hf⟩ := bind_eq_ok.1 hok
  cases accepted with
  | true => exact Nat.lt_of_lt_of_le (index_lt_of_accept hp) (Moves.of_ok hf).index_le
  | false =>
      obtain ⟨-, rfl⟩ := accept_false hp
      exact hno _ _ _ hf hb

namespace Productive

variable {sort : β → Prop}

theorem of_advances (p : Parser β) [Advances p] : Productive sort p := fun _ => .of_advances p

theorem other {b : β} (hb : ¬ sort b) : Productive sort (Pure.pure b : Parser β) :=
  fun _ => .other hb

theorem ite {b : Prop} [Decidable b] {p p' : Parser β} (hp : Productive sort p)
    (hp' : Productive sort p') : Productive sort (if b then p else p') :=
  fun s => .ite (fun _ => hp s) fun _ => hp' s

theorem pass {p : Parser α} {f : α → Parser β} [Moves p] (h : ∀ a, Productive sort (f a)) :
    Productive sort (p >>= f) := by
  intro s setting b n hok hb
  obtain ⟨a, m, hp, hf⟩ := bind_eq_ok.1 hok
  exact Nat.lt_of_le_of_lt (Moves.of_ok hp).index_le (h a m _ _ _ hf hb)

theorem state {f : State → Parser β} (h : ∀ s, ProductiveAt sort s (f s)) :
    Productive sort (Parser.state >>= f) := fun s => .state (h s)

/-- What is seen ahead is there to be passed. -/
theorem sees {text : String} {f : Bool → Parser β}
    (hyes : ∀ s : State, s.sees text = true → ProductiveAt sort s (f true))
    (hno : Productive sort (f false)) : Productive sort (Parser.sees text >>= f) := by
  intro s setting b n hok hb
  have hsees : Parser.sees text setting s = .ok (s.sees text) s := rfl
  rw [bind_of_ok hsees] at hok
  cases hseen : s.sees text with
  | true =>
      rw [hseen] at hok
      exact hyes s hseen setting b n hok hb
  | false =>
      rw [hseen] at hok
      exact hno s setting b n hok hb

theorem whenAccepted {text : String} {p : Parser α} {f : Option α → Parser β} [Moves p]
    (hsome : ∀ a, Moves (f (some a))) (hnone : Productive sort (f none)) :
    Productive sort (Parser.whenAccepted text p >>= f) := by
  intro s setting b n hok hb
  obtain ⟨value, m, hvalue, hf⟩ := bind_eq_ok.1 hok
  obtain ⟨accepted, k, haccept, hrest⟩ := bind_eq_ok.1 hvalue
  cases accepted with
  | true =>
      obtain ⟨a, _, ha, hpure⟩ := bind_eq_ok.1 hrest
      obtain ⟨rfl, rfl⟩ := pure_eq_ok.1 hpure
      have hlt := index_lt_of_accept haccept
      have hitem := (Moves.of_ok ha).index_le
      have hlater := (Moves.of_ok hf).index_le
      omega
  | false =>
      obtain ⟨rfl, rfl⟩ := pure_eq_ok.1 hrest
      exact Nat.lt_of_le_of_lt (Moves.of_ok haccept).index_le (hnone _ _ _ _ hf hb)

end Productive

/-- In front of a token, passing over it makes progress. -/
theorem ProductiveAt.skip {sort : Unit → Prop} (hrest : s.rest ≠ []) (n : Nat) :
    ProductiveAt sort s (Parser.skip (n + 1)) := by
  intro setting _ m hok _
  cases hok
  have hadvance := State.index_advance_of_ne_nil hrest
  have hskip := (State.goes_skip n s.advance).index_le
  have hindex : (s.skip (n + 1)).index = (s.advance.skip n).index := rfl
  omega

theorem ProductiveAt.advance {sort : Unit → Prop} (hrest : s.rest ≠ []) :
    ProductiveAt sort s Parser.advance := .skip hrest 0

/-- A repetition makes progress if its first turn does. -/
theorem ProductiveAt.repeatWhile {sort : Unit → Prop} {turn : Parser Bool} [Moves turn]
    (h : ProductiveAt (fun _ => True) s turn) : ProductiveAt sort s (Parser.repeatWhile turn) := by
  intro setting a n hok ha
  have hfirst : ProductiveAt sort s (turn >>= fun more =>
      if more then Parser.repeatLoop turn (setting.total - s.index) else Pure.pure ()) := .bind h
  exact hfirst setting a n hok ha

/-- In front of a token, going on behind an error makes progress. -/
theorem ProductiveAt.orSkip {p : Parser α} [Advances p] (hrest : s.rest ≠ []) :
    ProductiveAt Turn.goesOn s (Parser.orSkip p) := by
  intro setting value n hok _
  unfold Parser.orSkip at hok
  split at hok
  next a m hp =>
    cases hok
    exact Advances.forward hp
  next e m hp =>
    cases hok
    have hgoes : s.Goes (m.report e).recovered :=
      ((Moves.of_fail hp).trans (State.goes_report m e)).trans (State.goes_recovered _)
    have hle := hgoes.index_le
    split
    next hsame =>
      -- Nothing was passed, so the token that was ahead still is.
      obtain ⟨passed, hpassed, hindex, -⟩ := hgoes.reaches
      obtain rfl : passed = [] := List.length_eq_zero_iff.1 (by omega)
      rw [List.nil_append] at hpassed
      rw [State.index_advance_of_ne_nil (hpassed ▸ hrest)]
      omega
    next hmoved => omega

/-- In front of a token, passing over a semicolon or reading something makes progress. -/
theorem ProductiveAt.semicolonOr {p : Parser α} [Advances p] (hrest : s.rest ≠ []) :
    ProductiveAt Turn.goesOn s
      (do if ← Parser.accept ";" then return Turn.skip else Parser.orSkip p) :=
  .accept inferInstance (.ite (absurd · Bool.false_ne_true) fun _ => .orSkip hrest)

/-- A declaration whose first word is ahead makes progress, be there an error behind or not. -/
theorem ProductiveAt.orRecover {sort : Option α → Prop} {p : Parser α} [Advances p]
    (hfail : ∀ setting e n, p setting s = .fail e n → s.index < n.index) :
    ProductiveAt sort s (Parser.orRecover p) := by
  intro setting value n hok _
  unfold Parser.orRecover at hok
  split at hok
  next a m hp =>
    cases hok
    exact Advances.forward hp
  next e m hp =>
    cases hok
    exact Nat.lt_of_lt_of_le (hfail _ _ _ hp) (State.goes_recovered (m.report e)).index_le

/-! ### Repetition -/

/-- Both repetitions have turns enough left. -/
theorem collect_mirrors {q : Walk (Turn α)} {p : Parser (Turn α)} [Moves p]
    (hq : Mirrors c low q p) (hp : Productive Turn.goesOn p) {fuel turns : Nat}
    (hs : s.OnWay c.tokens) (hdepth : low ≤ s.depth) (hfuel : c.tokens.length - s.index < fuel)
    (hturns : c.tokens.length - s.index < turns) :
    MirrorsAt c s (Walk.collect q fuel) (Parser.collect p turns) := by
  induction fuel generalizing s turns with
  | zero => omega
  | succ fuel ih =>
      cases turns with
      | zero => omega
      | succ turns =>
          refine (hq s hs hdepth).go fun value n hgoes hok => ?_
          have hn := hs.goes hgoes
          have hle := hn.index_le
          -- A turn that goes on has passed a token, so less is left for the others.
          have hlater (hon : value.goesOn) :
              MirrorsAt c n (Walk.collect q fuel) (Parser.collect p turns) := by
            have hlt := hp s _ _ _ hok hon
            exact ih hn (Nat.le_trans hdepth hgoes.depth) (by omega) (by omega)
          cases value with
          | stop => rfl
          | skip => exact hlater trivial
          | take a => exact (hlater trivial).go fun _ _ _ _ => .pure _
          | final a => rfl

theorem repeatLoop_mirrors {q : Walk Bool} {p : Parser Bool} [Moves p]
    (hq : Mirrors c low q p) (hp : Productive (· = true) p) {fuel turns : Nat}
    (hs : s.OnWay c.tokens) (hdepth : low ≤ s.depth) (hfuel : c.tokens.length - s.index < fuel)
    (hturns : c.tokens.length - s.index < turns) :
    MirrorsAt c s (Walk.repeatLoop q fuel) (Parser.repeatLoop p turns) := by
  induction fuel generalizing s turns with
  | zero => omega
  | succ fuel ih =>
      cases turns with
      | zero => omega
      | succ turns =>
          refine (hq s hs hdepth).go fun more n hgoes hok => ?_
          have hn := hs.goes hgoes
          have hle := hn.index_le
          cases more with
          | false => rfl
          | true =>
              have hlt := hp s _ _ _ hok rfl
              exact ih hn (Nat.le_trans hdepth hgoes.depth) (by omega) (by omega)

namespace Mirrors

/-- **A repetition ends** if its turns make progress. -/
theorem gather {q : Walk (Turn α)} {p : Parser (Turn α)} [Moves p] (hq : Mirrors c low q p)
    (hp : Productive Turn.goesOn p) : Mirrors c low (Walk.gather q) (Parser.gather p) := by
  intro s hs hdepth
  have hfuel := c.ample
  have htotal : c.parser.total = c.tokens.length := rfl
  rw [MirrorsAt, Walk.gather, Walk.bind_done (Walk.fuel_done _ _), gather_eq_collect, htotal]
  exact collect_mirrors hq hp hs hdepth (by omega) (by omega)

/-- **A repetition without values ends** if its turns make progress. -/
theorem repeatWhile {q : Walk Bool} {p : Parser Bool} [Moves p] (hq : Mirrors c low q p)
    (hp : Productive (· = true) p) : Mirrors c low (Walk.repeatWhile q) (Parser.repeatWhile p) := by
  intro s hs hdepth
  have hfuel := c.ample
  have htotal : c.parser.total = c.tokens.length := rfl
  rw [MirrorsAt, Walk.repeatWhile, Walk.bind_done (Walk.fuel_done _ _), Parser.repeatWhile, htotal]
  exact repeatLoop_mirrors hq hp hs hdepth (by omega) (by omega)

theorem whenAccepted {q : Walk α} {p : Parser α} [Moves p] (text : String) (hq : Mirrors c low q p) :
    Mirrors c low (Walk.whenAccepted text q) (Parser.whenAccepted text p) :=
  .bind (accept_mirrors text) fun _ => .ite (.bind hq fun _ => .pure _) (.pure _)

theorem commaSeparated {q : Walk α} {p : Parser α} [Moves p] (hq : Mirrors c low q p) :
    Mirrors c low (Walk.commaSeparated q) (Parser.commaSeparated p) := by
  refine .bind hq fun first => .bind (.gather ?_ ?_) fun others => .pure _
  · refine .bind (.whenAccepted "," hq) fun value => ?_
    cases value with
    | some value => exact .pure _
    | none => exact .pure _
  · exact .whenAccepted (fun _ => inferInstance) (.other id)

/-! ### Nesting and errors -/

/-- One more level of nesting. -/
theorem guarded {q : Walk α} {p : Parser α} (hq : Mirrors c (low + 1) q p) :
    Mirrors c low (Walk.guarded q) (Parser.guarded p) := by
  intro s hs hdepth
  have hinner : State.OnWay c.tokens { s with depth := s.depth + 1 } := hs
  have hmirror : q c.toSetting s.mark.enter = (p c.parser { s with depth := s.depth + 1 }).mark :=
    hq _ hinner (Nat.succ_le_succ hdepth)
  have hdeep : (Walk.tooDeep : Walk α) c.toSetting s.mark.enter =
      (Parser.tooDeep c.parser { s with depth := s.depth + 1 } : Answer α).mark := by
    have hspan : Walk.hereSpan c.toSetting s.mark.enter = .done _ _ := hereSpan_mark hinner
    rw [Walk.tooDeep, Walk.bind_done hspan]
    rfl
  rw [MirrorsAt, Walk.guarded, Parser.guarded, hmirror, hdeep]
  dsimp only
  split
  next hrefused =>
    have hrefused : maxNesting < s.depth + 1 := hrefused
    rw [if_pos hrefused]
  next hallowed =>
    have hallowed : ¬ maxNesting < s.depth + 1 := hallowed
    rw [if_neg hallowed]
    cases p c.parser { s with depth := s.depth + 1 } <;> rfl

/-- An error is reported, and the reading goes on. -/
theorem orReport {q : Walk Unit} {p : Parser Unit} (hq : Mirrors c low q p) :
    Mirrors c low (Walk.orReport q) (Parser.orReport p) := by
  intro s hs hdepth
  rw [MirrorsAt, Walk.orReport, Walk.orElse, hq s hs hdepth, Parser.orReport]
  cases p c.parser s <;> rfl

/-- An error is reported, and the reading goes on behind the statement. -/
theorem orRecover {q : Walk α} {p : Parser α} [Moves p] (hq : Mirrors c low q p) :
    Mirrors c low (Walk.orRecover q) (Parser.orRecover p) := by
  intro s hs hdepth
  have hvalue : (do return some (← q) : Walk (Option α)) c.toSetting s.mark = _ :=
    (hq s hs hdepth).go fun a _ _ _ => MirrorsAt.pure (some a)
  rw [MirrorsAt, Walk.orRecover, Walk.orElse, hvalue, Parser.orRecover]
  cases hp : p c.parser s with
  | ok a n =>
      rw [bind_of_ok hp]
      rfl
  | fail e n =>
      have hn : (n.report e).OnWay c.tokens :=
        hs.goes ((Moves.of_fail hp).trans (State.goes_report n e))
      rw [bind_of_fail hp]
      show (Walk.recover >>= fun _ => Pure.pure none) c.toSetting (n.report e).mark = _
      rw [Walk.bind_done (recover_mark hn)]
      rfl

/-- An error is reported, and at least one token is passed. -/
theorem orSkip {q : Walk α} {p : Parser α} [Moves p] (hq : Mirrors c low q p) :
    Mirrors c low (Walk.orSkip q) (Parser.orSkip p) := by
  intro s hs hdepth
  have hvalue : (do return .take (← q) : Walk (Turn α)) c.toSetting s.mark = _ :=
    (hq s hs hdepth).go fun a _ _ _ => MirrorsAt.pure (Turn.take a)
  rw [MirrorsAt, Walk.orSkip, Walk.bind_done (Walk.position_done _ _), Walk.orElse, hvalue,
    Parser.orSkip]
  cases hp : p c.parser s with
  | ok a n =>
      rw [bind_of_ok hp]
      rfl
  | fail e n =>
      have hn : (n.report e).OnWay c.tokens :=
        hs.goes ((Moves.of_fail hp).trans (State.goes_report n e))
      have hafter := hn.goes (State.goes_recovered (n.report e))
      rw [bind_of_fail hp]
      show (Walk.recover >>= _) c.toSetting (n.report e).mark = _
      rw [Walk.bind_done (recover_mark hn), Walk.bind_done (Walk.position_done _ _)]
      show _ = Walk.Outcome.done Turn.skip
        (if (n.report e).recovered.index = s.index then (n.report e).recovered.advance
          else (n.report e).recovered).mark
      split
      next hsame =>
        have hsame : (n.report e).recovered.index = s.index := hsame
        rw [if_pos hsame, Walk.bind_done (advance_mirrorsAt hafter)]
        rfl
      next hmoved =>
        have hmoved : ¬ (n.report e).recovered.index = s.index := hmoved
        rw [if_neg hmoved]
        rfl

theorem semicolonOr {q : Walk α} {p : Parser α} [Moves p] (hq : Mirrors c low q p) :
    Mirrors c low (do if ← Walk.accept ";" then return Turn.skip else Walk.orSkip q)
      (do if ← Parser.accept ";" then return Turn.skip else Parser.orSkip p) :=
  .bind (accept_mirrors ";") fun _ => .ite (.pure _) (.orSkip hq)

end Mirrors

/-! ### Looking ahead -/

/-- A parser that reports nothing and leaves the level of nesting, whatever it answers. -/
class Parser.Quiet (p : Parser α) : Prop where
  depth : ∀ setting s, (p setting s).state.depth = s.depth
  errors : ∀ setting s, (p setting s).state.errors = s.errors

namespace Parser.Quiet

variable {p : Parser α} {f : α → Parser β}

/-- A parser that passes some tokens, whatever it answers, is quiet. -/
theorem of_skip (h : ∀ setting s, ∃ k, (p setting s).state = s.skip k) : Quiet p where
  depth setting s := by
    obtain ⟨k, hk⟩ := h setting s
    rw [hk, State.skip_depth]
  errors setting s := by
    obtain ⟨k, hk⟩ := h setting s
    rw [hk, State.skip_errors]

instance (a : α) : Quiet (Pure.pure a : Parser α) := of_skip fun _ _ => ⟨0, rfl⟩

instance [Quiet p] [∀ a, Quiet (f a)] : Quiet (p >>= f) where
  depth setting s := by
    have hp := Quiet.depth (p := p) setting s
    cases h : p setting s with
    | ok a m =>
        rw [h] at hp
        rw [bind_of_ok h, Quiet.depth]
        exact hp
    | fail e m =>
        rw [h] at hp
        rw [bind_of_fail h]
        exact hp
  errors setting s := by
    have hp := Quiet.errors (p := p) setting s
    cases h : p setting s with
    | ok a m =>
        rw [h] at hp
        rw [bind_of_ok h, Quiet.errors]
        exact hp
    | fail e m =>
        rw [h] at hp
        rw [bind_of_fail h]
        exact hp

instance (b : Prop) [Decidable b] (p p' : Parser α) [hp : Quiet p] [hp' : Quiet p'] :
    Quiet (if b then p else p') := by
  split
  · exact hp
  · exact hp'

instance : Quiet Parser.state := of_skip fun _ _ => ⟨0, rfl⟩

instance (text : String) : Quiet (Parser.sees text) := of_skip fun _ _ => ⟨0, rfl⟩

instance (expected : String) : Quiet (Parser.unexpected expected : Parser α) :=
  of_skip fun _ _ => ⟨0, rfl⟩

instance : Quiet Parser.advance := of_skip fun _ _ => ⟨1, rfl⟩

instance (n : Nat) : Quiet (Parser.skip n) := of_skip fun _ _ => ⟨n, rfl⟩

instance : Quiet Parser.identifier := of_skip fun setting s => by
  unfold Parser.identifier
  split
  · split
    · exact ⟨1, rfl⟩
    · exact ⟨0, rfl⟩
  · exact ⟨0, rfl⟩

instance (opener closer : String) : Quiet (Parser.bracketed opener closer) :=
  of_skip fun setting s => by
    unfold Parser.bracketed
    dsimp only
    split
    · exact ⟨_ + 1, rfl⟩
    · exact ⟨_ + 1, rfl⟩

instance (later : Parser (List α)) [Quiet later] (value : Turn α) :
    Quiet (behindTurn later value) := by
  cases value <;> unfold behindTurn <;> infer_instance

instance (turn : Parser (Turn α)) [Quiet turn] (fuel : Nat) : Quiet (Parser.collect turn fuel) := by
  induction fuel with
  | zero => exact inferInstanceAs (Quiet (Pure.pure [] : Parser (List α)))
  | succ fuel ih => exact inferInstanceAs (Quiet (turn >>= behindTurn (Parser.collect turn fuel)))

instance (turn : Parser (Turn α)) [Quiet turn] : Quiet (Parser.gather turn) where
  depth setting s := by
    rw [gather_eq_collect]
    exact Quiet.depth setting s
  errors setting s := by
    rw [gather_eq_collect]
    exact Quiet.errors setting s

instance (turn : Parser Bool) [Quiet turn] (fuel : Nat) : Quiet (Parser.repeatLoop turn fuel) := by
  induction fuel with
  | zero => exact inferInstanceAs (Quiet (Pure.pure () : Parser Unit))
  | succ fuel ih =>
      exact inferInstanceAs (Quiet
        (turn >>= fun more => if more then Parser.repeatLoop turn fuel else Pure.pure ()))

instance (turn : Parser Bool) [Quiet turn] : Quiet (Parser.repeatWhile turn) where
  depth setting s :=
    Quiet.depth (p := Parser.repeatLoop turn (setting.total - s.index + 1)) setting s
  errors setting s :=
    Quiet.errors (p := Parser.repeatLoop turn (setting.total - s.index + 1)) setting s

instance : Quiet qualifiedName := by
  unfold qualifiedName
  infer_instance

instance : Quiet annotations := by
  unfold annotations
  infer_instance

instance : Quiet dimensions := by
  unfold dimensions
  infer_instance

instance : Quiet typeSuffixes := by
  unfold typeSuffixes
  infer_instance

instance : Quiet typeReference := by
  unfold typeReference
  infer_instance

end Parser.Quiet

/-- What a quiet parser did is undone by going back. -/
theorem back_mark {p : Parser α} [Quiet p] (hs : s.OnWay c.tokens) (answer : Bool) {n : State}
    (hn : (p c.parser s).state = n) :
    (Walk.moveTo s.index >>= fun _ => Pure.pure answer) c.toSetting
      { n.mark with errors := n.errors.take s.errors.size } = .done answer s.mark := by
  have hdepth := Quiet.depth (p := p) c.parser s
  have herrors := Quiet.errors (p := p) c.parser s
  rw [hn] at hdepth herrors
  rw [Walk.bind_done (moveTo_mark hs _), herrors]
  simp only [State.mark, hdepth]
  show Walk.Outcome.done answer _ = _
  rw [Array.take_eq_extract, Array.extract_size]

/-- Looking past something leaves the reading where it was. -/
theorem Mirrors.lookingPast {q : Walk α} {p : Parser α} [Quiet p] [Moves p] {test : State → Bool}
    (hq : Mirrors c low q p) (htest : ∀ s : State, test s.window = test s) :
    Mirrors c low (Walk.lookingPast q test) (Parser.lookingPast p test) := by
  intro s hs hdepth
  have hmirror := hq s hs hdepth
  rw [MirrorsAt] at hmirror ⊢
  rw [Walk.lookingPast, Parser.lookingPast]
  cases hp : p c.parser s with
  | ok a n =>
      have hn := hs.goes (Moves.of_ok hp)
      rw [hp] at hmirror
      rw [Walk.bind_done hmirror, window_mark hn]
      simp only [htest]
      exact back_mark hs (test n) (congrArg Answer.state hp)
  | fail e n =>
      have hfail : (q >>= fun _ => Walk.window) c.toSetting s.mark = .error e n.mark := by
        show Walk.bind q _ c.toSetting s.mark = _
        rw [Walk.bind, hmirror, hp]
        rfl
      rw [hfail]
      exact back_mark hs false (congrArg Answer.state hp)

end

end JavaOutline
