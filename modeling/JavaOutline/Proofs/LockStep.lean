/-
**A diet parse and a full parse in step.**

A parse that passes bodies over and one that reads them go through the same tokens, and stand at
the same places outside of bodies.  A parser keeps in step if, from one place, its full answer is
the completed diet answer at the same place, given that every body that was passed over reads in
place as it reads by itself; and if nothing else can make the two answers agree.

Main definitions:

* `Site`, `Site.ReadsAlike` — a body that was passed over, and that it reads the same in place and
  by itself;
* `Deferring` — values with bodies that wait to be parsed, and their completion;
* `AtPlace` — a state on the way through the tokens of a scan, before anything is reported;
* `InStep` — **a parser keeps in step**.

Main results:

* `InStep.bind_plain`, `InStep.bind_tail`, `InStep.ite`, `InStep.guarded`, `InStep.orSkip` — parsers
  that are put together keep in step;
* `InStep.gather` — and so does a repetition.
-/

import JavaOutline.Outline.Deferred
import JavaOutline.Proofs.NestedReading

set_option autoImplicit false

namespace JavaOutline

open JavaOutline.Parser

/-! ### Bodies that wait -/

/-- A body that was passed over. -/
structure Site where
  /-- How many levels of nesting are counted there. -/
  depth : Nat
  /-- The span of its braces. -/
  span : Span
deriving DecidableEq, Repr, Inhabited

/-- **The body reads the same in place and by itself**: in place it is a block that ends where its
braces do, and by itself it is the same block, both without errors. -/
def Site.ReadsAlike (text : List Char) (scan : Scan) (site : Site) : Prop :=
  ∃ found,
    block (nestedAt (maxNesting - site.depth)) (scan.setting false)
        (scan.stateAt site.depth site.span.start.offset) =
      .ok found (scan.stateAt site.depth site.span.stop.offset) ∧
    Block.parse text site.span = (found, [])

/-- The site of a body, if it was passed over. -/
def Body.waiting (depth : Nat) : Body → List Site
  | .unparsed span => [⟨depth, span⟩]
  | .absent | .parsed _ => []

mutual

/-- The bodies inside a type that were passed over, its members being nested so deeply. -/
def TypeDecl.waiting (depth : Nat) : TypeDecl → List Site
  | ⟨_, _, _, _, _, _, members, _⟩ => Member.waitingAll depth members

/-- The bodies inside members that were passed over. -/
def Member.waitingAll (depth : Nat) : List Member → List Site
  | [] => []
  | m :: ms => m.waiting depth ++ Member.waitingAll depth ms

/-- The bodies inside a member that were passed over.  The class body of an enum constant opens no
level of its own. -/
def Member.waiting (depth : Nat) : Member → List Site
  | .field _ => []
  | .method decl => decl.body.waiting depth
  | .initializer decl => decl.body.waiting depth
  | .type decl => decl.waiting (depth + 1)
  | .enumConstant ⟨_, _, none, _⟩ => []
  | .enumConstant ⟨_, _, some body, _⟩ => body.waiting depth

end

/-- The bodies of a unit that were passed over. -/
def Outline.waiting (o : Outline) : List Site := o.types.flatMap (TypeDecl.waiting 1)

/-! ### Values that wait -/

/-- Values inside which bodies may wait to be parsed. -/
class Deferring (α : Type) where
  /-- The value with what was left filled in, and the errors found. -/
  complete : List Char → α → α × List SyntaxError
  /-- The bodies that were passed over, at a level of nesting. -/
  waiting : Nat → α → List Site

namespace Deferring

variable {α : Type} [Deferring α]

instance : Deferring Body := ⟨Body.complete, Body.waiting⟩
instance : Deferring TypeDecl := ⟨TypeDecl.complete, TypeDecl.waiting⟩
instance : Deferring Member := ⟨Member.complete, Member.waiting⟩

instance : Deferring Outline where
  complete text o :=
    let completed := o.types.map (TypeDecl.complete text)
    ({ o with types := completed.map Prod.fst }, completed.flatMap Prod.snd)
  waiting depth o := o.types.flatMap (TypeDecl.waiting depth)

instance : Deferring (List α) where
  complete text vs :=
    ((vs.map (complete text)).map Prod.fst, (vs.map (complete text)).flatMap Prod.snd)
  waiting depth vs := vs.flatMap (waiting depth)

instance : Deferring (Option α) where
  complete text
    | none => (none, [])
    | some v => (some (complete text v).1, (complete text v).2)
  waiting depth
    | none => []
    | some v => waiting depth v

instance : Deferring (Turn α) where
  complete text
    | .stop => (.stop, [])
    | .skip => (.skip, [])
    | .take v => (.take (complete text v).1, (complete text v).2)
    | .final v => (.final (complete text v).1, (complete text v).2)
  waiting depth
    | .stop | .skip => []
    | .take v | .final v => waiting depth v

end Deferring

/-! ### Keeping in step -/

section

variable {α β : Type}

/-- Every body that was passed over inside the value reads alike. -/
def Alike (text : List Char) (scan : Scan) [Deferring α] (depth : Nat) (v : α) : Prop :=
  ∀ site ∈ Deferring.waiting depth v, site.ReadsAlike text scan

/-- A state on the way through a scan, before anything is reported: so many levels of nesting are
counted, and what is ahead does not begin before the position. -/
structure AtPlace (scan : Scan) (depth : Nat) (start : Position) (s : State) : Prop where
  silent : s.errors = #[]
  depth : s.depth = depth
  reaches : scan.atStart.Reaches s
  before : ∀ t ∈ s.rest, start.offset ≤ t.span.start.offset

/-- What two answers must have in common before they can be compared: values and the states behind
them. -/
def Agreement (α : Type) : Type := α → State → α → State → Prop

/-- The values are the same. -/
def Agreement.same : Agreement α := fun v _ w _ => v = w

/-- If two turns both take a value, it is the same. -/
def Agreement.sameTaken : Agreement (Turn α) := fun v _ w _ =>
  ∀ a b, (v = .take a ∨ v = .final a) → (w = .take b ∨ w = .final b) → a = b

/-- The values are the same, and so is how far they reach from a position. -/
def Agreement.sameReach (start : Position) : Agreement α := fun v t w u =>
  v = w ∧ t.spanFrom start = u.spanFrom start

/-- **A parser keeps in step** at the places of a scan that are nested `depth` levels deep and lie
behind `start`, the bodies inside its values being nested `inner` levels deep: if they all read
alike, the full answer is the completed diet answer; and if the completed diet answer and the full
one agree, they are the same and all bodies read alike. -/
structure InStep (text : List Char) (scan : Scan) [Deferring α] (agree : Agreement α)
    (depth inner : Nat) (start : Position) (p : Parser α) : Prop where
  completes : ∀ {s t v}, AtPlace scan depth start s → p (scan.setting true) s = .ok v t →
    t.errors = #[] → Alike text scan inner v →
    p (scan.setting false) s = .ok (Deferring.complete text v).1 t ∧
      (Deferring.complete text v).2 = []
  reflects : ∀ {s t u v w}, AtPlace scan depth start s → p (scan.setting true) s = .ok v t →
    t.errors = #[] → p (scan.setting false) s = .ok w u → u.errors = #[] →
    agree (Deferring.complete text v).1 t w u → (Deferring.complete text v).2 = [] →
    w = (Deferring.complete text v).1 ∧ u = t ∧ Alike text scan inner v

/-- A value inside which no body waits. -/
structure Settled [Deferring α] (v : α) : Prop where
  complete : ∀ text, Deferring.complete text v = (v, [])
  waiting : ∀ depth, Deferring.waiting depth v = []

/-- A value is wrapped up with something, and the bodies that wait inside are those of the value. -/
structure Wraps {γ : Type} (text : List Char) [Deferring α] [Deferring β] (inner inner' : Nat)
    (g : α → γ → β) : Prop where
  complete : ∀ v x, Deferring.complete text (g v x) =
    (g (Deferring.complete text v).1 x, (Deferring.complete text v).2)
  waiting : ∀ v x, Deferring.waiting inner' (g v x) = Deferring.waiting inner v

/-- The diet answer of a plain parser is its full answer. -/
theorem Parser.Plain.full {p : Parser α} [Plain p] {scan : Scan} {s : State} {answer : Answer α}
    (h : p (scan.setting true) s = answer) : p (scan.setting false) s = answer :=
  (Plain.blind (scan.setting false) true s).symm.trans h

/-- The places that a steady parser leads to. -/
theorem AtPlace.next {scan : Scan} {depth : Nat} {start : Position} {s n : State}
    (h : AtPlace scan depth start s) (hleads : s.Leads n) (hn : n.errors = #[]) :
    AtPlace scan depth start n where
  silent := hn
  depth := hleads.depth.trans h.depth
  reaches := h.reaches.trans hleads.reaches
  before t ht := h.before t (hleads.reaches.mem_rest ht)

/-- What is ahead of a place does not begin before the place itself. -/
theorem AtPlace.here {scan : Scan} {depth : Nat} {start : Position} {s : State}
    (hordered : Token.Ordered scan.tokens) (h : AtPlace scan depth start s) (setting : Setting) :
    AtPlace scan depth (setting.here s) s where
  silent := h.silent
  depth := h.depth
  reaches := h.reaches
  before := by
    obtain ⟨front, htokens, -, -⟩ := h.reaches
    have htokens : scan.tokens = front ++ s.rest := htokens
    unfold Setting.here
    cases hrest : s.rest with
    | nil => simp
    | cons t ts =>
        intro t' ht'
        rcases List.mem_cons.1 ht' with rfl | hlater
        · exact Nat.le_refl _
        · rw [htokens, hrest, List.append_cons] at hordered
          have hlt := hordered.nonempty t (by simp)
          have hle := hordered.stop_le_start t (by simp) t' hlater
          show t.span.start.offset ≤ t'.span.start.offset
          omega

variable {text : List Char} {scan : Scan} [Deferring α] in
/-- The bodies inside a list are those of its first value and of the others. -/
theorem alike_cons {inner : Nat} {v : α} {vs : List α} :
    Alike text scan inner (v :: vs) ↔ Alike text scan inner v ∧ Alike text scan inner vs := by
  unfold Alike
  show (∀ site ∈ List.flatMap (Deferring.waiting inner) (v :: vs), _) ↔ _ ∧
    ∀ site ∈ List.flatMap (Deferring.waiting inner) vs, _
  rw [List.flatMap_cons]
  exact List.forall_mem_append

variable {text : List Char} [Deferring α] in
/-- The errors in a list are those in its first value and in the others. -/
theorem complete_cons_errors {v : α} {vs : List α} :
    (Deferring.complete text (v :: vs)).2 = [] ↔
      (Deferring.complete text v).2 = [] ∧ (Deferring.complete text vs).2 = [] :=
  List.append_eq_nil_iff

namespace InStep

variable {text : List Char} {scan : Scan} [Deferring α] [Deferring β]
  {depth inner : Nat} {start : Position}

/-- What comes behind a plain parser keeps in step, and so do both. -/
theorem bind_plain {γ : Type} {agree : Agreement α} {q : Parser γ} {f : γ → Parser α} [Plain q]
    [∀ a, Steady (f a)] (h : ∀ a, InStep text scan agree depth inner start (f a)) :
    InStep text scan agree depth inner start (q >>= f) where
  completes hs hdiet ht halike := by
    obtain ⟨a, m, hq, hf⟩ := bind_eq_ok.1 hdiet
    have hm := Steady.leads hf ht
    obtain ⟨hfull, herrors⟩ :=
      (h a).completes (hs.next (Steady.leads hq hm.silent) hm.silent) hf ht halike
    exact ⟨(bind_of_ok (Plain.full hq)).trans hfull, herrors⟩
  reflects hs hdiet ht hfull hu := by
    obtain ⟨a, m, hq, hf⟩ := bind_eq_ok.1 hdiet
    have hm := Steady.leads hf ht
    have hplace := hs.next (Steady.leads hq hm.silent) hm.silent
    rw [bind_of_ok (Plain.full hq)] at hfull
    exact (h a).reflects hplace hf ht hfull hu

/-- What is read from a place on may know the place. -/
theorem bind_here {agree : Agreement α} (hordered : Token.Ordered scan.tokens)
    {f : Position → Parser α}
    (h : ∀ place, InStep text scan agree depth inner place (f place)) :
    InStep text scan agree depth inner start (here >>= f) where
  completes hs hdiet := (h _).completes (hs.here hordered _) hdiet
  reflects hs hdiet := (h _).reflects (hs.here hordered _) hdiet

/-- Either way a parser can go. -/
theorem ite {agree : Agreement α} {c : Prop} [Decidable c] {p q : Parser α}
    (hp : InStep text scan agree depth inner start p)
    (hq : InStep text scan agree depth inner start q) :
    InStep text scan agree depth inner start (if c then p else q) := by
  split
  · exact hp
  · exact hq

/-- A value inside which no body waits. -/
theorem pure {agree : Agreement α} {v : α} (h : Settled v) :
    InStep text scan agree depth inner start (Pure.pure v) where
  completes _ hdiet _ _ := by
    obtain ⟨rfl, rfl⟩ := pure_eq_ok.1 hdiet
    rw [h.complete]
    exact ⟨rfl, rfl⟩
  reflects _ hdiet _ hfull _ _ _ := by
    obtain ⟨rfl, rfl⟩ := pure_eq_ok.1 hdiet
    obtain ⟨rfl, rfl⟩ := pure_eq_ok.1 hfull
    refine ⟨by rw [h.complete], rfl, ?_⟩
    intro site hsite
    rw [h.waiting] at hsite
    cases hsite

/-- A parser that always reports something has no answer to compare. -/
theorem of_loud {agree : Agreement α} {p : Parser α}
    (h : ∀ {setting s v t}, p setting s = .ok v t → t.errors ≠ #[]) :
    InStep text scan agree depth inner start p where
  completes _ hdiet ht := absurd ht (h hdiet)
  reflects _ hdiet ht := absurd ht (h hdiet)

/-- A plain parser that wraps the value of another one up.  It must be possible to tell from its
answer what it wrapped up. -/
theorem bind_tail {agree : Agreement α} {agree' : Agreement β} {inner' : Nat} {p : Parser α}
    {f : α → Parser β} [∀ v, Plain (f v)] (h : InStep text scan agree depth inner start p)
    (hwraps : ∀ {v setting m w t}, f v setting m = .ok w t →
      f (Deferring.complete text v).1 setting m = .ok (Deferring.complete text w).1 t ∧
        (Deferring.complete text w).2 = (Deferring.complete text v).2 ∧
        Deferring.waiting inner' w = Deferring.waiting inner v)
    (htells : ∀ {v v' setting setting' m m' w w' t u}, f v setting m = .ok w t →
      f v' setting' m' = .ok w' u → agree' (Deferring.complete text w).1 t w' u →
      agree (Deferring.complete text v).1 m v' m') :
    InStep text scan agree' depth inner' start (p >>= f) where
  completes hs hdiet ht halike := by
    obtain ⟨v, m, hp, hf⟩ := bind_eq_ok.1 hdiet
    obtain ⟨hwrap, herrors, hwaiting⟩ := hwraps hf
    have halike : Alike text scan inner v := by
      unfold Alike
      rw [← hwaiting]
      exact halike
    obtain ⟨hfull, hnone⟩ := h.completes hs hp (Steady.leads hf ht).silent halike
    exact ⟨(bind_of_ok hfull).trans (Plain.full hwrap), herrors.trans hnone⟩
  reflects hs hdiet ht hfull hu hagree hnone := by
    obtain ⟨v, m, hp, hf⟩ := bind_eq_ok.1 hdiet
    obtain ⟨v', m', hp', hf'⟩ := bind_eq_ok.1 hfull
    obtain ⟨hwrap, herrors, hwaiting⟩ := hwraps hf
    obtain ⟨rfl, rfl, halike⟩ := h.reflects hs hp (Steady.leads hf ht).silent hp'
      (Steady.leads hf' hu).silent (htells hf hf' hagree) (herrors.symm.trans hnone)
    cases (Plain.full hwrap).symm.trans hf'
    refine ⟨rfl, rfl, ?_⟩
    unfold Alike
    rw [hwaiting]
    exact halike

/-- A parser whose value is wrapped up with what is read behind it. -/
theorem bind_wrap {γ : Type} {agree : Agreement α} {inner' : Nat} {p : Parser α} {q : Parser γ}
    [Plain q] {g : α → γ → β} (h : InStep text scan agree depth inner start p)
    (hg : Wraps text inner inner' g)
    (htells : ∀ {v v' x x' setting setting' m m' n n'}, q setting m = .ok x n →
      q setting' m' = .ok x' n' → g v x = g v' x' → agree v m v' m') :
    InStep text scan Agreement.same depth inner' start
      (p >>= fun v => q >>= fun x => Pure.pure (g v x)) := by
  refine bind_tail h ?_ ?_
  · intro v setting m w t hok
    obtain ⟨x, _, hq, hpure⟩ := bind_eq_ok.1 hok
    obtain ⟨rfl, rfl⟩ := pure_eq_ok.1 hpure
    rw [hg.complete]
    exact ⟨bind_of_ok hq, rfl, hg.waiting v x⟩
  · intro v v' setting setting' m m' w w' t u hok hok' hsame
    obtain ⟨x, _, hq, hpure⟩ := bind_eq_ok.1 hok
    obtain ⟨x', _, hq', hpure'⟩ := bind_eq_ok.1 hok'
    obtain ⟨rfl, -⟩ := pure_eq_ok.1 hpure
    obtain ⟨rfl, -⟩ := pure_eq_ok.1 hpure'
    have hsame : (Deferring.complete text (g v x)).1 = g v' x' := hsame
    rw [hg.complete] at hsame
    exact htells hq hq' hsame

/-- A parser whose value is wrapped up. -/
theorem map {inner' : Nat} {p : Parser α} {g : α → β}
    (h : InStep text scan Agreement.same depth inner start p)
    (hg : Wraps text inner inner' fun v (_ : Unit) => g v)
    (htells : ∀ {v v'}, g v = g v' → v = v') :
    InStep text scan Agreement.same depth inner' start (p >>= fun v => Pure.pure (g v)) :=
  bind_wrap (q := Pure.pure ()) h hg fun _ _ hsame => htells hsame

/-- A parser of bodies, wrapped up with how far it reaches. -/
theorem bind_spanFrom {inner' : Nat} {place : Position} {p : Parser α} {g : α → Span → β}
    (h : InStep text scan (Agreement.sameReach place) depth inner start p)
    (hg : Wraps text inner inner' g)
    (htells : ∀ {v v' x x'}, g v x = g v' x' → v = v' ∧ x = x') :
    InStep text scan Agreement.same depth inner' start
      (p >>= fun v => spanFrom place >>= fun x => Pure.pure (g v x)) := by
  refine bind_wrap h hg ?_
  intro v v' x x' setting setting' m m' n n' hx hx' hsame
  cases hx
  cases hx'
  exact htells hsame

/-- One level deeper. -/
theorem guarded {p : Parser α} (h : InStep text scan Agreement.same (depth + 1) inner start p) :
    InStep text scan Agreement.same depth inner start (guarded p) where
  completes {s t v} hs hdiet ht halike := by
    obtain ⟨hdeep, m, hp, rfl⟩ := guarded_eq_ok.1 hdiet
    have hinner : AtPlace scan (depth + 1) start { s with depth := s.depth + 1 } :=
      ⟨hs.silent, congrArg (· + 1) hs.depth, hs.reaches, hs.before⟩
    obtain ⟨hfull, herrors⟩ := h.completes hinner hp ht halike
    exact ⟨guarded_eq_ok.2 ⟨hdeep, m, hfull, rfl⟩, herrors⟩
  reflects {s t u v w} hs hdiet ht hfull hu hagree hnone := by
    obtain ⟨-, m, hp, rfl⟩ := guarded_eq_ok.1 hdiet
    obtain ⟨-, m', hp', rfl⟩ := guarded_eq_ok.1 hfull
    have hinner : AtPlace scan (depth + 1) start { s with depth := s.depth + 1 } :=
      ⟨hs.silent, congrArg (· + 1) hs.depth, hs.reaches, hs.before⟩
    obtain ⟨hw, rfl, halike⟩ := h.reflects hinner hp ht hp' hu hagree hnone
    exact ⟨hw, rfl, halike⟩

/-- A turn that takes a value unless there is an error. -/
theorem orSkip {p : Parser α} (h : InStep text scan Agreement.same depth inner start p) :
    InStep text scan Agreement.sameTaken depth inner start (orSkip p) where
  completes hs hdiet ht halike := by
    obtain ⟨v, rfl, hp⟩ := orSkip_eq_ok hdiet ht
    obtain ⟨hfull, herrors⟩ := h.completes hs hp ht halike
    refine ⟨?_, herrors⟩
    unfold Parser.orSkip
    rw [hfull]
    rfl
  reflects hs hdiet ht hfull hu hagree hnone := by
    obtain ⟨v, rfl, hp⟩ := orSkip_eq_ok hdiet ht
    obtain ⟨w, rfl, hp'⟩ := orSkip_eq_ok hfull hu
    have hsame : (Deferring.complete text v).1 = w := hagree _ _ (.inl rfl) (.inl rfl)
    obtain ⟨rfl, rfl, halike⟩ := h.reflects hs hp ht hp' hu hsame hnone
    exact ⟨rfl, rfl, halike⟩

/-! ### Repetition in step -/

omit [Deferring β] in
/-- Two turns that both take a value take the same one, if what is found from them on is the same:
the value stands at the head of it. -/
theorem sameTaken_of_found {later : Parser (List α)} {value value' : Turn α} {vs : List α}
    {setting setting' : Setting} {m m' t u : State}
    (hfound : behindTurn later value setting m = .ok vs t)
    (hfound' : behindTurn later value' setting' m' = .ok (Deferring.complete text vs).1 u) :
    Agreement.sameTaken (Deferring.complete text value).1 m value' m' := by
  intro a b ha hb
  obtain ⟨rest', hrest'⟩ := behindTurn_cons hb hfound'
  have htaken : ∀ v, value = .take v ∨ value = .final v → (Deferring.complete text v).1 = b := by
    intro v hv
    obtain ⟨rest, rfl⟩ := behindTurn_cons hv hfound
    exact (List.cons.inj hrest').1
  cases value with
  | stop => rcases ha with ha | ha <;> cases ha
  | skip => rcases ha with ha | ha <;> cases ha
  | take v =>
      rcases ha with ha | ha <;> cases ha
      exact htaken v (.inl rfl)
  | final v =>
      rcases ha with ha | ha <;> cases ha
      exact htaken v (.inr rfl)

omit [Deferring β] in
/-- The value that a turn takes has no errors, if what is found from it on has none. -/
theorem taken_errors {later : Parser (List α)} {value : Turn α} {vs : List α} {setting : Setting}
    {m t : State} (hfound : behindTurn later value setting m = .ok vs t)
    (hnone : (Deferring.complete text vs).2 = []) : (Deferring.complete text value).2 = [] := by
  cases value with
  | stop => rfl
  | skip => rfl
  | take v =>
      obtain ⟨rest, rfl⟩ := behindTurn_cons (.inl rfl) hfound
      exact (complete_cons_errors.1 hnone).1
  | final v =>
      obtain ⟨rest, rfl⟩ := behindTurn_cons (.inr rfl) hfound
      exact (complete_cons_errors.1 hnone).1

/-- What is found from a turn on keeps in step, if the turn does and what comes behind it does. -/
theorem bind_behindTurn {turn : Parser (Turn α)} {later : Parser (List α)} [Steady turn]
    [Steady later] (h : InStep text scan Agreement.sameTaken depth inner start turn)
    (hlater : InStep text scan Agreement.same depth inner start later) :
    InStep text scan Agreement.same depth inner start (turn >>= behindTurn later) where
  completes {s t vs} hs hdiet ht halike := by
    obtain ⟨value, m, hturn, hbehind⟩ := bind_eq_ok.1 hdiet
    have hm := (Steady.leads hbehind ht).silent
    have hplace := hs.next (Steady.leads hturn hm) hm
    cases value with
    | stop =>
        obtain ⟨rfl, rfl⟩ := pure_eq_ok.1 hbehind
        obtain ⟨hfull, -⟩ := h.completes hs hturn hm fun _ hsite => nomatch hsite
        exact ⟨bind_of_ok hfull, rfl⟩
    | skip =>
        obtain ⟨hfull, -⟩ := h.completes hs hturn hm fun _ hsite => nomatch hsite
        obtain ⟨hrest, herrors⟩ := hlater.completes hplace hbehind ht halike
        exact ⟨(bind_of_ok hfull).trans hrest, herrors⟩
    | take v =>
        obtain ⟨vs, _, hvs, hcons⟩ := bind_eq_ok.1 hbehind
        obtain ⟨rfl, rfl⟩ := pure_eq_ok.1 hcons
        obtain ⟨hfirst, hothers⟩ := alike_cons.1 halike
        obtain ⟨hfull, hown⟩ := h.completes hs hturn hm hfirst
        obtain ⟨hrest, herrors⟩ := hlater.completes hplace hvs ht hothers
        exact ⟨(bind_of_ok hfull).trans (bind_of_ok hrest), complete_cons_errors.2 ⟨hown, herrors⟩⟩
    | final v =>
        obtain ⟨rfl, rfl⟩ := pure_eq_ok.1 hbehind
        obtain ⟨hfull, hown⟩ := h.completes hs hturn hm (alike_cons.1 halike).1
        exact ⟨bind_of_ok hfull, complete_cons_errors.2 ⟨hown, rfl⟩⟩
  reflects {s t u vs ws} hs hdiet ht hfull hu hagree hnone := by
    obtain ⟨value, m, hturn, hbehind⟩ := bind_eq_ok.1 hdiet
    obtain ⟨value', m', hturn', hbehind'⟩ := bind_eq_ok.1 hfull
    have hm := (Steady.leads hbehind ht).silent
    have hm' := (Steady.leads hbehind' hu).silent
    have hplace := hs.next (Steady.leads hturn hm) hm
    obtain rfl : (Deferring.complete text vs).1 = ws := hagree
    obtain ⟨rfl, rfl, hfirst⟩ := h.reflects hs hturn hm hturn' hm'
      (sameTaken_of_found hbehind hbehind') (taken_errors hbehind hnone)
    -- From here on both repetitions go on behind the same turn.
    refine ⟨rfl, ?_⟩
    cases value with
    | stop =>
        obtain ⟨rfl, rfl⟩ := pure_eq_ok.1 hbehind
        obtain ⟨-, rfl⟩ := pure_eq_ok.1 hbehind'
        exact ⟨rfl, fun _ hsite => nomatch hsite⟩
    | skip => exact (hlater.reflects hplace hbehind ht hbehind' hu rfl hnone).2
    | take v =>
        obtain ⟨vs, _, hvs, hcons⟩ := bind_eq_ok.1 hbehind
        obtain ⟨rfl, rfl⟩ := pure_eq_ok.1 hcons
        obtain ⟨ws, _, hws, hcons⟩ := bind_eq_ok.1 hbehind'
        obtain ⟨hsame, rfl⟩ := pure_eq_ok.1 hcons
        obtain ⟨-, rfl, halike⟩ := hlater.reflects hplace hvs ht hws hu (List.cons.inj hsame).2.symm
          (complete_cons_errors.1 hnone).2
        exact ⟨rfl, alike_cons.2 ⟨hfirst, halike⟩⟩
    | final v =>
        obtain ⟨rfl, rfl⟩ := pure_eq_ok.1 hbehind
        obtain ⟨-, rfl⟩ := pure_eq_ok.1 hbehind'
        exact ⟨rfl, alike_cons.2 ⟨hfirst, fun _ hsite => nomatch hsite⟩⟩

/-- **Turns that keep in step make a repetition that does.** -/
theorem gather {turn : Parser (Turn α)} [Steady turn]
    (h : InStep text scan Agreement.sameTaken depth inner start turn) :
    InStep text scan Agreement.same depth inner start (gather turn) := by
  have hcollect : ∀ fuel, InStep text scan Agreement.same depth inner start
      (Parser.collect turn fuel) := by
    intro fuel
    induction fuel with
    | zero => exact pure ⟨fun _ => rfl, fun _ => rfl⟩
    | succ fuel ih => exact bind_behindTurn h ih
  constructor
  · intro s t vs hs hdiet
    rw [gather_eq_collect] at hdiet ⊢
    exact (hcollect _).completes hs hdiet
  · intro s t u vs ws hs hdiet ht hfull
    rw [gather_eq_collect] at hdiet hfull
    exact (hcollect _).reflects hs hdiet ht hfull

end InStep

end

end JavaOutline
