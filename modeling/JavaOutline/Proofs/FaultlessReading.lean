/-
**Reading by position has no fault.**

From the front of any list of tokens the readings mirror the parsers, and parsers know no faults.  So no
index and no slice is out of range, the position stays within the list, no depth is counted below zero
and every loop ends.  A unit is read up to the mark behind the tokens.  A block is read up to a closing
brace, or up to the mark if there is none; behind a stray bracket that brace may be an inner one, so a
body need not be read to its end.

Main results:

* `gather_ends` — a repetition that answers has come to one of its ends;
* `compilationUnit_ends`, `block_ends` — where units and blocks end;
* `readings_faultless` — **units and blocks are read without a fault**;
* `strayBracket_unread` — a body that is not read to its end.
-/

import JavaOutline.Proofs.LockStep
import JavaOutline.Proofs.MirroredGrammar
import JavaOutline.Proofs.NestedSpans

set_option autoImplicit false
set_option synthInstance.maxSize 100000

namespace JavaOutline

open JavaOutline.Parser

section

variable {α : Type} {tokens : List Token} {setting : Setting} {s n : State}

/-! ### Where repetitions end -/

/-- A repetition has turns enough to come to one of its ends. -/
theorem collect_ends (ended : State → Prop) {turn : Parser (Turn α)} [Moves turn]
    (hp : Productive Turn.goesOn turn)
    (hend : ∀ s value n, turn setting s = .ok value n → ¬ value.goesOn → ended n) {turns : Nat}
    (hs : s.OnWay tokens) (hturns : tokens.length - s.index < turns) {found : List α}
    (h : collect turn turns setting s = .ok found n) : ended n := by
  induction turns generalizing s found with
  | zero => omega
  | succ turns ih =>
      obtain ⟨value, m, hturn, hlater⟩ := bind_eq_ok.1 h
      have hm := hs.goes (Moves.of_ok hturn)
      have hle := hm.index_le
      have hless (hon : value.goesOn) : tokens.length - m.index < turns := by
        have hlt := hp s _ _ _ hturn hon
        omega
      cases value with
      | stop =>
          obtain ⟨-, rfl⟩ := pure_eq_ok.1 hlater
          exact hend _ _ _ hturn id
      | skip => exact ih hm (hless trivial) hlater
      | take a =>
          obtain ⟨_, _, hothers, hpure⟩ := bind_eq_ok.1 hlater
          obtain ⟨-, rfl⟩ := pure_eq_ok.1 hpure
          exact ih hm (hless trivial) hothers
      | final a =>
          obtain ⟨-, rfl⟩ := pure_eq_ok.1 hlater
          exact hend _ _ _ hturn id

/-- **A repetition that answers has come to one of its ends.** -/
theorem gather_ends (ended : State → Prop) {turn : Parser (Turn α)} [Moves turn]
    (hp : Productive Turn.goesOn turn)
    (hend : ∀ s value n, turn setting s = .ok value n → ¬ value.goesOn → ended n)
    (htotal : setting.total = tokens.length) (hs : s.OnWay tokens) {found : List α}
    (h : gather turn setting s = .ok found n) : ended n := by
  rw [gather_eq_collect, htotal] at h
  exact collect_ends ended hp hend hs (Nat.lt_succ_self _) h

/-- Behind something that was read or passed over the repetition goes on. -/
theorem goesOn_of_orSkip {p : Parser α} {value : Turn α} (h : orSkip p setting s = .ok value n) :
    value.goesOn := by
  unfold orSkip at h
  split at h
  · cases h
    trivial
  · cases h
    trivial

/-! ### Where units and blocks end -/

/-- The types of a unit end where the tokens do. -/
theorem topLevelTypes_ends (htotal : setting.total = tokens.length) (hs : s.OnWay tokens)
    {types : List TypeDecl} (h : topLevelTypes setting s = .ok types n) : n.rest = [] := by
  refine gather_ends (·.rest = []) topLevelTurn_productive (fun s value n hturn hno => ?_) htotal hs h
  obtain ⟨_, _, hstate, hturn⟩ := bind_eq_ok.1 hturn
  cases hstate
  split at hturn
  next hrest =>
    obtain ⟨-, rfl⟩ := pure_eq_ok.1 hturn
    exact List.isEmpty_iff.1 hrest
  next =>
    obtain ⟨accepted, m, -, hturn⟩ := bind_eq_ok.1 hturn
    cases accepted with
    | true =>
        obtain ⟨rfl, -⟩ := pure_eq_ok.1 hturn
        exact absurd trivial hno
    | false => exact absurd (goesOn_of_orSkip hturn) hno

/-- **A unit is read up to the end of the tokens.** -/
theorem compilationUnit_ends (htotal : setting.total = tokens.length) (hs : s.OnWay tokens)
    {outline : Outline} (h : compilationUnit setting s = .ok outline n) : n.rest = [] := by
  obtain ⟨_, s₁, hhere, h⟩ := bind_eq_ok.1 h
  obtain ⟨_, s₂, hannotations, h⟩ := bind_eq_ok.1 h
  obtain ⟨_, s₃, hpackage, h⟩ := bind_eq_ok.1 h
  obtain ⟨_, s₄, himports, h⟩ := bind_eq_ok.1 h
  obtain ⟨_, s₅, htypes, h⟩ := bind_eq_ok.1 h
  obtain ⟨_, _, hspan, h⟩ := bind_eq_ok.1 h
  cases hspan
  obtain ⟨-, rfl⟩ := pure_eq_ok.1 h
  have hgoes := (((Moves.of_ok hhere).trans (Moves.of_ok hannotations)).trans
    (Moves.of_ok hpackage)).trans (Moves.of_ok himports)
  exact topLevelTypes_ends htotal (hs.goes hgoes) htypes

section

variable {sub : Nested}

/-- The statements of a block end in front of a closing brace or where the tokens do. -/
theorem blockStatements_ends [sub.Advances] (htotal : setting.total = tokens.length)
    (hs : s.OnWay tokens) {found : List Statement} (h : blockStatements sub setting s = .ok found n) :
    n.sees "\x7d" = true ∨ n.rest = [] := by
  refine gather_ends (fun n => n.sees "\x7d" = true ∨ n.rest = []) blockTurn_productive
    (fun s value n hturn hno => ?_) htotal hs h
  obtain ⟨_, _, hstate, hturn⟩ := bind_eq_ok.1 hturn
  cases hstate
  split at hturn
  next hsees =>
    obtain ⟨-, rfl⟩ := pure_eq_ok.1 hturn
    exact .inl hsees
  next =>
    split at hturn
    next hrest =>
      obtain ⟨_, m, hreport, hturn⟩ := bind_eq_ok.1 hturn
      cases hreport
      obtain ⟨-, rfl⟩ := pure_eq_ok.1 hturn
      exact .inr (List.isEmpty_iff.1 hrest)
    next => exact absurd (goesOn_of_orSkip hturn) hno

/-- **A block ends behind a closing brace or where the tokens do.** -/
theorem block_ends [sub.Advances] (htotal : setting.total = tokens.length) (hs : s.OnWay tokens)
    {found : Block} (h : block sub setting s = .ok found n) :
    n.rest = [] ∨ n.last.any (·.is "\x7d") = true := by
  obtain ⟨_, m, hopening, h⟩ := bind_eq_ok.1 h
  obtain ⟨_, m', hstatements, h⟩ := bind_eq_ok.1 h
  obtain ⟨accepted, m'', haccept, h⟩ := bind_eq_ok.1 h
  obtain ⟨_, _, hspan, h⟩ := bind_eq_ok.1 h
  cases hspan
  obtain ⟨-, rfl⟩ := pure_eq_ok.1 h
  cases accepted with
  | true =>
      obtain ⟨hsees, rfl⟩ := accept_true haccept
      obtain ⟨t, ts, hrest, hbrace⟩ := State.exists_cons_of_sees hsees
      rw [State.advance_cons hrest]
      exact .inr hbrace
  | false =>
      obtain ⟨hsees, rfl⟩ := accept_false haccept
      have hends := blockStatements_ends htotal (hs.goes (Moves.of_ok hopening)) hstatements
      exact .inl (hends.resolve_left hsees)

instance (expected : String) : Answers (reportUnexpected expected) where
  answers _ _ := ⟨_, _, rfl⟩

instance : Answers (blockStatements sub) := by
  unfold blockStatements
  infer_instance

/-- Where what follows always answers, an error comes from the beginning. -/
theorem fail_of_bind {β : Type} {p : Parser α} {f : α → Parser β} [∀ a, Answers (f a)]
    {e : SyntaxError} (h : (p >>= f) setting s = .fail e n) : p setting s = .fail e n := by
  cases hp : p setting s with
  | ok a m =>
      obtain ⟨_, _, hok⟩ := Answers.answers (p := f a) setting m
      rw [bind_of_ok hp, hok] at h
      cases h
  | fail e m =>
      rw [bind_of_fail hp] at h
      cases h
      rfl

/-- A block is refused only in front of its opening brace. -/
theorem block_fail {e : SyntaxError} (h : block sub setting s = .fail e n) : n = s := by
  rw [block] at h
  have hopening := fail_of_bind h
  unfold expect at hopening
  split at hopening
  · split at hopening <;> cases hopening
    rfl
  · cases hopening
    rfl

end

end

/-! ### Reading without faults -/

/-- **Units and blocks are read by position without a fault**, whatever the tokens are and whether bodies
are passed over or not, in as many turns and open calls as there are tokens and levels of nesting.  A
unit is always read, up to the mark at the end of the list.  A block is read up to a closing brace or to
the mark, or refused in front of the first token. -/
theorem readings_faultless (tokens : List Token) (finish : Position) (diet : Bool) (extra : Nat) :
    let walk : Walk.Setting :=
      { tokens, finish, diet, fuel := tokens.length + maxNesting + 1 + extra }
    let setting : Setting := { diet, finish, total := tokens.length }
    (∃ outline s, compilationUnit setting { rest := tokens } = .ok outline s ∧
        Walk.compilationUnit walk {} = .done outline s.mark ∧ s.mark.pos = tokens.length) ∧
      ∃ s, s.mark.pos ≤ tokens.length ∧
        ((∃ found, block outermost setting { rest := tokens } = .ok found s ∧
            Walk.outerBlock walk {} = .done found s.mark ∧
            (s.mark.pos = tokens.length ∨ s.last.any (·.is "\x7d") = true)) ∨
          ∃ e, block outermost setting { rest := tokens } = .fail e s ∧
            Walk.outerBlock walk {} = .error e s.mark ∧ s.mark.pos = 0) := by
  intro walk setting
  let c : Walk.Course := { walk with ample := by simp only [walk]; omega }
  have hstart : State.OnWay tokens { rest := tokens } := State.Reaches.refl _
  have hend {n : State} (hn : n.OnWay tokens) (hrest : n.rest = []) : n.mark.pos = tokens.length := by
    have hle := hn.index_le
    have hdrop := hn.drop_eq
    rw [hrest, List.drop_eq_nil_iff] at hdrop
    exact Nat.le_antisymm hle hdrop
  have : outermost.Advances := nestedAt_advances maxNesting
  constructor
  · obtain ⟨outline, s, hok⟩ := Answers.answers (p := compilationUnit) setting { rest := tokens }
    have hmirror : Walk.compilationUnit walk {} =
        (compilationUnit setting { rest := tokens }).mark :=
      compilationUnit_mirrors (c := c) _ hstart (Nat.zero_le _)
    rw [hok] at hmirror
    exact ⟨outline, s, hok, hmirror,
      hend (hstart.goes (Moves.of_ok hok)) (compilationUnit_ends rfl hstart hok)⟩
  · have hmirror : Walk.outerBlock walk {} = (block outermost setting { rest := tokens }).mark :=
      outerBlock_mirrors (c := c) _ hstart (Nat.zero_le _)
    cases hblock : block outermost setting { rest := tokens } with
    | ok found s =>
        have hs := hstart.goes (Moves.of_ok hblock)
        rw [hblock] at hmirror
        exact ⟨s, hs.index_le, .inl ⟨found, rfl, hmirror,
          (block_ends rfl hstart hblock).imp_left (hend hs)⟩⟩
    | fail e s =>
        obtain rfl := block_fail hblock
        rw [hblock] at hmirror
        exact ⟨_, Nat.zero_le _, .inr ⟨e, rfl, hmirror, rfl⟩⟩

/-- The closing parenthesis is taken for the end of the inner braces, so the inner closing brace ends the
block, and the one that ends the body stays unread. -/
theorem strayBracket_unread :
    let source := "class A \x7b void m() \x7b x \x7b ) ; \x7d \x7d \x7d"
    let site : Site := ⟨1, ⟨⟨19, 1, 20⟩, ⟨32, 1, 33⟩⟩⟩
    let scan := Scan.ofRange source.toList site.span.start site.span.stop.offset
    site ∈ (Outline.parse source true).outline.waiting ∧ scan.tokens.length = 7 ∧
      (block outermost (scan.setting false) { rest := scan.tokens }).state.mark.pos = 6 := by
  decide +kernel

end JavaOutline
