/-
**The parsers around bodies keep in step.**

The body of a method or an initializer is where a diet parse and a full parse part: one counts
braces, the other reads statements.  From the span of the member around it is known where each of
them ends, so a member keeps in step, and from there on everything that is built from members does:
types at every level of nesting, and whole units.

Main definitions:

* `Yields` — every value that a parser answers with has a property;
* `Member.isConstant` — constants of an enum, which stand in front of the other members.

Main results:

* `body_inStep` — **bodies keep in step**, once it is known that both parses reach equally far;
* `member_inStep`, `members_inStep`, `enumConstants_inStep` — members keep in step;
* `enumConstants_yields`, `members_yields` — constants and other members are told apart, so that the
  body of an enum keeps in step;
* `typeDecl_inStep` — **types keep in step at every level**;
* `compilationUnit_inStep` — **a whole unit keeps in step**.
-/

import JavaOutline.Proofs.LockStep

set_option autoImplicit false
-- That the rest of a long declaration is steady has as many parts as the rest.
set_option synthInstance.maxSize 100000

namespace JavaOutline

open JavaOutline.Parser

/-! ### Bodies -/

/-- A token that is seen is ahead. -/
theorem Parser.State.cons_of_sees {s : State} {text : String} (h : s.sees text = true) :
    ∃ t ts, s.rest = t :: ts := by
  cases hrest : s.rest with
  | nil => simp [State.sees, hrest] at h
  | cons t ts => exact ⟨t, ts, rfl⟩

/-- What is behind a state that has passed the token ahead was ahead. -/
theorem Parser.State.last_of_advance {s n : State} {t : Token} {ts : List Token}
    (hrest : s.rest = t :: ts) (h : s.advance.Reaches n) : ∃ last ∈ s.rest, n.last = some last := by
  obtain ⟨passed, hpassed, -, hlast⟩ := h
  have hadvance : s.advance = { s with index := s.index + 1, last := some t, rest := ts } := by
    simp [State.advance, hrest]
  rw [hadvance] at hpassed hlast
  have hpassed : ts = passed ++ n.rest := hpassed
  cases hp : passed.getLast? with
  | none =>
      rw [hp] at hlast
      exact ⟨t, by simp [hrest], hlast⟩
  | some last =>
      rw [hp] at hlast
      refine ⟨last, ?_, hlast⟩
      rw [hrest, hpassed]
      exact List.mem_cons_of_mem t (List.mem_append_left _ (List.mem_of_getLast? hp))

/-- How far a state reaches from a position that the token behind does not end before. -/
theorem Parser.State.spanFrom_last {n : State} {last : Token} {start : Position}
    (hlast : n.last = some last) (hle : start.offset ≤ last.span.stop.offset) :
    n.spanFrom start = ⟨start, last.span.stop⟩ := by
  simp [State.spanFrom, hlast, Nat.not_lt.2 hle]

/-- A bracket group reaches from its opener to the token behind it. -/
theorem bracketed_eq_ok {opener closer : String} {setting : Setting} {s n : State} {span : Span}
    {t : Token} {ts : List Token} (hrest : s.rest = t :: ts)
    (hok : bracketed opener closer setting s = .ok span n) :
    s.advance.Reaches n ∧
      ∃ last ∈ s.rest, n.last = some last ∧ span = ⟨t.span.start, last.span.stop⟩ := by
  unfold bracketed at hok
  dsimp only at hok
  split at hok <;> cases hok
  rename_i k _
  have hreaches := State.reaches_skip k s.advance
  obtain ⟨last, hmem, hlast⟩ := State.last_of_advance hrest hreaches
  refine ⟨hreaches, last, hmem, hlast, ?_⟩
  simp [hlast, Setting.here, hrest]

/-- A block passes its opening brace. -/
theorem block_advances {sub : Nested} [sub.Steady] {setting : Setting} {s n : State} {found : Block}
    (hok : block sub setting s = .ok found n) (hn : n.errors = #[]) : s.advance.Reaches n := by
  obtain ⟨opening, m, hopening, hok⟩ := bind_eq_ok.1 hok
  obtain rfl := expect_eq_ok hopening
  exact (Steady.leads hok hn).reaches

/-- A body that is passed over. -/
theorem body_diet {sub : Nested} {scan : Scan} {s t : State} {v : Body}
    (hok : body sub (scan.setting true) s = .ok v t) :
    ∃ span, s.sees "\x7b" = true ∧ v = .unparsed span ∧
      bracketed "\x7b" "\x7d" (scan.setting true) s = .ok span t := by
  obtain ⟨seen, _, hsees, hok⟩ := bind_eq_ok.1 hok
  cases hsees
  split at hok
  · rename_i hseen
    obtain ⟨span, _, hspan, hok⟩ := bind_eq_ok.1 (show
      (bracketed "\x7b" "\x7d" >>= fun span => Pure.pure (Body.unparsed span))
        (scan.setting true) s = .ok v t from hok)
    obtain ⟨rfl, rfl⟩ := pure_eq_ok.1 hok
    exact ⟨span, hseen, rfl, hspan⟩
  · cases hok

/-- A body that is read. -/
theorem body_full {sub : Nested} {scan : Scan} {s : State} (hseen : s.sees "\x7b" = true) :
    body sub (scan.setting false) s =
      (block sub >>= fun found => Pure.pure (Body.parsed found)) (scan.setting false) s := by
  have hsees : sees "\x7b" (scan.setting false) s = .ok true s := by
    rw [← hseen]
    rfl
  unfold body
  rw [bind_of_ok hsees, if_pos rfl]
  rfl

variable {text : List Char} {scan : Scan} {depth : Nat} {start : Position}

/-- What is ahead of a place ends behind the position. -/
theorem AtPlace.start_le_stop (hordered : Token.Ordered scan.tokens) {s : State}
    (hs : AtPlace scan depth start s) {t : Token} (ht : t ∈ s.rest) :
    start.offset ≤ t.span.stop.offset := by
  have hle := hs.before t ht
  have hlt := hordered.nonempty t (hs.reaches.mem_rest ht)
  omega

/-- Where a body that is passed over begins and ends. -/
theorem body_diet_places {sub : Nested} [sub.Steady] (hordered : Token.Ordered scan.tokens)
    {s t : State} {v : Body} (hs : AtPlace scan depth start s)
    (hdiet : body sub (scan.setting true) s = .ok v t) (ht : t.errors = #[]) :
    ∃ span, v = .unparsed span ∧ s.sees "\x7b" = true ∧
      s = scan.stateAt depth span.start.offset ∧ t = scan.stateAt depth span.stop.offset ∧
      t.spanFrom start = ⟨start, span.stop⟩ := by
  have htplace := hs.next (Steady.leads hdiet ht) ht
  obtain ⟨span, hseen, rfl, hspan⟩ := body_diet hdiet
  obtain ⟨t', ts, hrest⟩ := State.cons_of_sees hseen
  obtain ⟨-, last, hmem, hlast, rfl⟩ := bracketed_eq_ok hrest hspan
  refine ⟨_, rfl, hseen, ?_, ?_, State.spanFrom_last hlast (hs.start_le_stop hordered hmem)⟩
  · have hplace := State.eq_stateAt_start hordered hs.reaches hs.silent hrest
    rwa [hs.depth] at hplace
  · have hplace := State.eq_stateAt_stop hordered htplace.reaches ht hlast
    rwa [htplace.depth] at hplace

/-- **A body keeps in step**, once it is known that both parses reach equally far. -/
theorem body_inStep (hordered : Token.Ordered scan.tokens) :
    InStep text scan (Agreement.sameReach start) depth depth start
      (body (nestedAt (maxNesting - depth))) where
  completes {s t v} hs hdiet ht halike := by
    obtain ⟨span, rfl, hseen, hsplace, htplace, -⟩ := body_diet_places hordered hs hdiet ht
    obtain ⟨found, hblock, hparse⟩ := halike ⟨depth, span⟩ List.mem_cons_self
    rw [← hsplace, ← htplace] at hblock
    refine ⟨?_, congrArg Prod.snd hparse⟩
    rw [body_full hseen, bind_of_ok hblock]
    show Answer.ok (Body.parsed found) t = .ok (Body.parsed (Block.parse text span).1) t
    rw [hparse]
  reflects {s t u v w} hs hdiet ht hfull hu hagree hnone := by
    obtain ⟨span, rfl, hseen, hsplace, htplace, htspan⟩ := body_diet_places hordered hs hdiet ht
    have huplace := hs.next (Steady.leads hfull hu) hu
    rw [body_full hseen] at hfull
    obtain ⟨found, _, hblock, hparsed⟩ := bind_eq_ok.1 hfull
    obtain ⟨rfl, rfl⟩ := pure_eq_ok.1 hparsed
    obtain ⟨hvalue, hspans⟩ := hagree
    -- The full parse ends behind some token; that the spans are equal says where it ends.
    obtain ⟨t', ts, hrest⟩ := State.cons_of_sees hseen
    obtain ⟨last, hmem, hlast⟩ := State.last_of_advance hrest (block_advances hblock hu)
    rw [htspan, State.spanFrom_last hlast (hs.start_le_stop hordered hmem)] at hspans
    have hstop : span.stop = last.span.stop := (Span.mk.inj hspans).2
    have hplace := State.eq_stateAt_stop hordered huplace.reaches hu hlast
    rw [huplace.depth, ← hstop, ← htplace] at hplace
    refine ⟨hvalue.symm, hplace, ?_⟩
    intro site hsite
    obtain rfl := List.mem_singleton.1 hsite
    refine ⟨found, ?_, Prod.ext ?_ hnone⟩
    · rw [hplace] at hblock
      rw [← hsplace, ← htplace]
      exact hblock
    · exact Body.parsed.inj hvalue

/-! ### Members -/

section

variable (hordered : Token.Ordered scan.tokens)

include hordered

theorem methodBody_inStep :
    InStep text scan (Agreement.sameReach start) depth depth start
      (methodBody (nestedAt (maxNesting - depth))) :=
  .bind_plain fun _ => .ite (.pure ⟨fun _ => rfl, fun _ => rfl⟩) (body_inStep hordered)

theorem methodRest_inStep {head : MethodHead} (hstart : head.start = start) :
    InStep text scan Agreement.same depth depth start
      (methodRest (nestedAt (maxNesting - depth)) head) := by
  subst hstart
  refine .bind_plain fun found => .bind_plain fun _ => .bind_plain fun throws =>
    .bind_plain fun _ => ?_
  refine .bind_spanFrom (methodBody_inStep hordered) ⟨fun _ _ => rfl, fun _ _ => rfl⟩ ?_
  intro v v' x x' hsame
  cases hsame
  exact ⟨rfl, rfl⟩

theorem initializerMember_inStep :
    InStep text scan Agreement.same depth depth start
      (initializerMember (nestedAt (maxNesting - depth)) start) := by
  refine .bind_plain fun isStatic => ?_
  refine .bind_spanFrom (body_inStep hordered) ⟨fun _ _ => rfl, fun _ _ => rfl⟩ ?_
  intro v v' x x' hsame
  cases hsame
  exact ⟨rfl, rfl⟩

theorem compactConstructor_inStep {head : MethodHead} (hstart : head.start = start) :
    InStep text scan Agreement.same depth depth start
      (compactConstructor (nestedAt (maxNesting - depth)) head) := by
  subst hstart
  refine .bind_spanFrom (body_inStep hordered) ⟨fun _ _ => rfl, fun _ _ => rfl⟩ ?_
  intro v v' x x' hsame
  cases hsame
  exact ⟨rfl, rfl⟩

theorem typedMember_inStep (words : List String) (typeParameters : Option String) :
    InStep text scan Agreement.same depth depth start
      (typedMember (nestedAt (maxNesting - depth)) words typeParameters start) := by
  refine .bind_plain fun typeName => .bind_plain fun name => .bind_plain fun _ => .ite ?_ ?_
  · exact methodRest_inStep hordered rfl
  · exact .bind_plain fun _ => .bind_plain fun _ => .bind_plain fun _ =>
      .pure ⟨fun _ => rfl, fun _ => rfl⟩

/-- A member keeps in step, if the types nested in it do. -/
theorem member_inStep (typeName : String)
    (htypes : ∀ words place, InStep text scan Agreement.same depth (depth + 1) place
      ((nestedAt (maxNesting - depth)).typeDecl words place)) :
    InStep text scan Agreement.same depth depth start
      (member (nestedAt (maxNesting - depth)) typeName) := by
  refine .bind_here hordered fun place => .bind_plain fun _ => .ite ?_ ?_
  · exact initializerMember_inStep hordered
  refine .bind_plain fun words => .bind_plain fun _ => .ite ?_ ?_
  · exact .map (htypes words place) ⟨fun _ _ => rfl, fun _ _ => rfl⟩ Member.type.inj
  refine .bind_plain fun _ => .bind_plain fun _ => .ite ?_ (.ite ?_ ?_)
  · exact .bind_plain fun _ => methodRest_inStep hordered rfl
  · exact .bind_plain fun _ => compactConstructor_inStep hordered rfl
  · exact typedMember_inStep hordered _ _

theorem members_inStep (typeName : String)
    (htypes : ∀ words place, InStep text scan Agreement.same depth (depth + 1) place
      ((nestedAt (maxNesting - depth)).typeDecl words place)) :
    InStep text scan Agreement.same depth depth start
      (members (nestedAt (maxNesting - depth)) typeName) := by
  refine .gather (.bind_plain fun _ => .ite (.pure ⟨fun _ => rfl, fun _ => rfl⟩) (.ite ?_ ?_))
  · refine .of_loud fun hok => ?_
    obtain ⟨_, m, hreport, hstop⟩ := bind_eq_ok.1 hok
    obtain ⟨-, rfl⟩ := pure_eq_ok.1 hstop
    exact reportUnexpected_loud hreport
  · exact .bind_plain fun _ => .ite (.pure ⟨fun _ => rfl, fun _ => rfl⟩)
      (.orSkip (member_inStep hordered typeName htypes))

end

/-! ### Constants and other members -/

/-- Every value that a parser answers with has a property. -/
structure Yields {α : Type} (P : α → Prop) (p : Parser α) : Prop where
  of_ok : ∀ {setting s a n}, p setting s = .ok a n → P a

namespace Yields

variable {α β : Type} {P : α → Prop}

theorem bind {p : Parser β} {f : β → Parser α} (h : ∀ b, Yields P (f b)) :
    Yields P (p >>= f) where
  of_ok hok := by
    obtain ⟨b, m, -, hf⟩ := bind_eq_ok.1 hok
    exact (h b).of_ok hf

theorem pure {a : α} (h : P a) : Yields P (Pure.pure a) where
  of_ok hok := (pure_eq_ok.1 hok).1 ▸ h

theorem ite {c : Prop} [Decidable c] {p q : Parser α} (hp : Yields P p) (hq : Yields P q) :
    Yields P (if c then p else q) := by
  split
  · exact hp
  · exact hq

/-- If every turn takes such values, a repetition finds such values. -/
theorem gather {turn : Parser (Turn α)}
    (h : Yields (fun value => ∀ a, value = .take a ∨ value = .final a → P a) turn) :
    Yields (fun found => ∀ a ∈ found, P a) (gather turn) := by
  have hcollect : ∀ fuel, Yields (fun found => ∀ a ∈ found, P a) (collect turn fuel) := by
    intro fuel
    induction fuel with
    | zero => exact pure fun a ha => nomatch ha
    | succ fuel ih =>
        constructor
        intro setting s found n hok
        obtain ⟨value, m, hturn, hbehind⟩ := bind_eq_ok.1 hok
        have htaken := h.of_ok hturn
        cases value with
        | stop =>
            obtain ⟨rfl, -⟩ := pure_eq_ok.1 hbehind
            simp
        | skip => exact ih.of_ok hbehind
        | take a =>
            obtain ⟨later, _, hlater, hcons⟩ := bind_eq_ok.1 hbehind
            obtain ⟨rfl, -⟩ := pure_eq_ok.1 hcons
            exact List.forall_mem_cons.2 ⟨htaken a (.inl rfl), ih.of_ok hlater⟩
        | final a =>
            obtain ⟨rfl, -⟩ := pure_eq_ok.1 hbehind
            exact List.forall_mem_cons.2 ⟨htaken a (.inr rfl), by simp⟩
  constructor
  intro setting s found n hok
  rw [gather_eq_collect] at hok
  exact (hcollect _).of_ok hok

end Yields

/-- Whether a member is a constant of an enum. -/
def Member.isConstant : Member → Bool
  | .enumConstant _ => true
  | .field _ | .method _ | .initializer _ | .type _ => false

/-- Completing leaves constants constants, and other members other members. -/
theorem Member.isConstant_complete (text : List Char) (m : Member) :
    (m.complete text).1.isConstant = m.isConstant := by
  cases m with
  | enumConstant decl =>
      obtain ⟨_, _, body, _⟩ := decl
      cases body <;> rfl
  | _ => rfl

/-- What follows a constant in the list of constants of an enum. -/
def constantTurn (constant : Member) : Parser (Turn Member) := do
  if ← accept "," then return Turn.take constant
  else if ← constantsEnd then return Turn.final constant
  else unexpected "',', ';' or '\x7d'"

instance (constant : Member) : Plain (constantTurn constant) := by
  unfold constantTurn
  infer_instance

/-- Whether the list goes on behind a constant does not depend on the constant. -/
theorem constantTurn_eq_ok {constant : Member} {setting : Setting} {s n : State}
    {value : Turn Member} (hok : constantTurn constant setting s = .ok value n) :
    (value = .take constant ∧ ∀ other, constantTurn other setting s = .ok (.take other) n) ∨
      (value = .final constant ∧ ∀ other, constantTurn other setting s = .ok (.final other) n) := by
  obtain ⟨comma, m, hcomma, hok⟩ := bind_eq_ok.1 hok
  cases comma with
  | true =>
      obtain ⟨rfl, rfl⟩ := pure_eq_ok.1 hok
      exact .inl ⟨rfl, fun other => bind_of_ok hcomma⟩
  | false =>
      obtain ⟨ends, m', hends, hok⟩ := bind_eq_ok.1 hok
      cases ends with
      | true =>
          obtain ⟨rfl, rfl⟩ := pure_eq_ok.1 hok
          exact .inr ⟨rfl, fun other => (bind_of_ok hcomma).trans (bind_of_ok hends)⟩
      | false => cases hok

/-- A list of constants holds constants. -/
theorem enumConstants_yields (sub : Nested) :
    Yields (fun found => ∀ m ∈ found, m.isConstant = true) (enumConstants sub) := by
  have hconstant : Yields (fun m : Member => m.isConstant = true) (enumConstant sub) :=
    .bind fun _ => .bind fun _ => .bind fun _ => .bind fun _ => .bind fun _ => .pure rfl
  refine .gather (.bind fun _ => .bind fun _ => .ite (.pure ?_) ?_)
  · rintro a (ha | ha) <;> cases ha
  · constructor
    intro setting s value n hok a ha
    obtain ⟨constant, m, hm, hok⟩ := bind_eq_ok.1 hok
    have hsame : a = constant := by
      rcases constantTurn_eq_ok hok with ⟨rfl, -⟩ | ⟨rfl, -⟩ <;> rcases ha with ha | ha <;>
        cases ha <;> rfl
    rw [hsame]
    exact hconstant.of_ok hm

theorem member_yields (sub : Nested) (typeName : String) :
    Yields (fun m : Member => m.isConstant = false) (member sub typeName) := by
  have hmethod : ∀ head, Yields (fun m : Member => m.isConstant = false) (methodRest sub head) :=
    fun _ => .bind fun _ => .bind fun _ => .bind fun _ => .bind fun _ => .bind fun _ =>
      .bind fun _ => .pure rfl
  refine .bind fun _ => .bind fun _ => .ite ?_ (.bind fun _ => .bind fun _ => .ite ?_ ?_)
  · exact .bind fun _ => .bind fun _ => .bind fun _ => .pure rfl
  · exact .bind fun _ => .pure rfl
  refine .bind fun _ => .bind fun _ => .ite ?_ (.ite ?_ ?_)
  · exact .bind fun _ => hmethod _
  · exact .bind fun _ => .bind fun _ => .bind fun _ => .pure rfl
  · exact .bind fun _ => .bind fun _ => .bind fun _ => .ite (hmethod _)
      (.bind fun _ => .bind fun _ => .bind fun _ => .pure rfl)

theorem members_yields (sub : Nested) (typeName : String) :
    Yields (fun found => ∀ m ∈ found, m.isConstant = false) (members sub typeName) := by
  have hnone : ∀ value : Turn Member, value = .stop ∨ value = .skip →
      ∀ a, value = .take a ∨ value = .final a → a.isConstant = false := by
    rintro value (rfl | rfl) a (ha | ha) <;> cases ha
  refine .gather (.bind fun _ => .ite (.pure (hnone _ (.inl rfl))) (.ite ?_ ?_))
  · exact .bind fun _ => .pure (hnone _ (.inl rfl))
  · refine .bind fun _ => .ite (.pure (hnone _ (.inr rfl))) ?_
    constructor
    intro setting s value n hok a ha
    unfold orSkip at hok
    split at hok
    · rename_i m _ hm
      cases hok
      rcases ha with ha | ha <;> cases ha
      exact (member_yields sub typeName).of_ok hm
    · cases hok
      rcases ha with ha | ha <;> cases ha

/-! ### Types -/

/-- Members are completed one by one. -/
theorem Member.completeAll_eq (text : List Char) (ms : List Member) :
    Member.completeAll text ms = Deferring.complete text ms := by
  induction ms with
  | nil => rfl
  | cons m ms ih =>
      show ((m.complete text).1 :: (Member.completeAll text ms).1,
        (m.complete text).2 ++ (Member.completeAll text ms).2) = _
      rw [ih]
      rfl

/-- The bodies of members wait one by one. -/
theorem Member.waitingAll_eq (depth : Nat) (ms : List Member) :
    Member.waitingAll depth ms = Deferring.waiting depth ms := by
  induction ms with
  | nil => rfl
  | cons m ms ih =>
      show m.waiting depth ++ Member.waitingAll depth ms = _
      rw [ih]
      rfl

/-- A type wraps its members up. -/
theorem TypeDecl.wraps (text : List Char) (depth : Nat) (kind : TypeDecl.Kind) (name : String)
    (words : List String) (typeParameters superclass : Option String) (interfaces : List String) :
    Wraps text depth depth fun (members : List Member) (span : Span) =>
      ({ kind, name, modifiers := words, typeParameters, superclass, interfaces, members,
         span } : TypeDecl) where
  complete members span := by
    show (_, (Member.completeAll text members).2) = _
    rw [Member.completeAll_eq]
  waiting members _ := Member.waitingAll_eq depth members

/-- A completed list of constants is one, and so is a completed list of other members. -/
theorem complete_constants {ms : List Member} {constant : Bool}
    (h : ∀ m ∈ ms, m.isConstant = constant) :
    ∀ m ∈ (Deferring.complete text ms).1, m.isConstant = constant := by
  intro m hm
  simp only [Deferring.complete, List.map_map, List.mem_map, Function.comp_apply] at hm
  obtain ⟨m', hm', rfl⟩ := hm
  rw [Member.isConstant_complete]
  exact h m' hm'

/-- Where the constants end and the other members begin is known from both together. -/
theorem Member.append_inj_of_constants {cs cs' ms ms' : List Member}
    (hcs : ∀ m ∈ cs, m.isConstant = true) (hcs' : ∀ m ∈ cs', m.isConstant = true)
    (hms : ∀ m ∈ ms, m.isConstant = false) (hms' : ∀ m ∈ ms', m.isConstant = false)
    (h : cs ++ ms = cs' ++ ms') : cs = cs' ∧ ms = ms' := by
  have hfilter : ∀ {cs ms : List Member}, (∀ m ∈ cs, m.isConstant = true) →
      (∀ m ∈ ms, m.isConstant = false) → (cs ++ ms).filter Member.isConstant = cs := by
    intro cs ms hcs hms
    rw [List.filter_append, List.filter_eq_self.2 hcs,
      List.filter_eq_nil_iff.2 fun m hm => by simp [hms m hm], List.append_nil]
  have hcsame : cs = cs' := by
    rw [← hfilter hcs hms, h, hfilter hcs' hms']
  subst hcsame
  exact ⟨rfl, List.append_cancel_left h⟩

/-- Lists of members are completed side by side. -/
theorem complete_append (text : List Char) (cs ms : List Member) :
    Deferring.complete text (cs ++ ms) =
      ((Deferring.complete text cs).1 ++ (Deferring.complete text ms).1,
        (Deferring.complete text cs).2 ++ (Deferring.complete text ms).2) := by
  simp [Deferring.complete]

/-- The bodies in two lists of members are those of each. -/
theorem alike_append {cs ms : List Member} :
    Alike text scan depth (cs ++ ms) ↔ Alike text scan depth cs ∧ Alike text scan depth ms := by
  unfold Alike
  show (∀ site ∈ List.flatMap (Deferring.waiting depth) (cs ++ ms), _) ↔
    (∀ site ∈ List.flatMap (Deferring.waiting depth) cs, _) ∧
      ∀ site ∈ List.flatMap (Deferring.waiting depth) ms, _
  rw [List.flatMap_append]
  exact List.forall_mem_append

section

variable (hordered : Token.Ordered scan.tokens)
  (htypes : ∀ words place, InStep text scan Agreement.same depth (depth + 1) place
    ((nestedAt (maxNesting - depth)).typeDecl words place))

include hordered htypes

theorem classBody_inStep (typeName : String) :
    InStep text scan Agreement.same depth depth start
      (classBody (nestedAt (maxNesting - depth)) typeName) := by
  refine .bind_plain fun _ => ?_
  exact .bind_wrap (members_inStep hordered typeName htypes) ⟨fun _ _ => rfl, fun _ _ => rfl⟩
    fun _ _ hsame => hsame

theorem constantBody_inStep (name : String) :
    InStep text scan Agreement.same depth depth start
      (constantBody (nestedAt (maxNesting - depth)) name) := by
  refine .bind_here hordered fun place => .bind_plain fun _ => .ite ?_ ?_
  · have hwraps := TypeDecl.wraps text depth .classType name [] none none []
    refine .bind_wrap (classBody_inStep hordered htypes name) ⟨?_, hwraps.waiting⟩ ?_
    · intro members span
      exact congrArg (fun found => (some found.1, found.2)) (hwraps.complete members span)
    · intro v v' x x' _ _ _ _ _ _ _ _ hsame
      exact (TypeDecl.mk.inj (Option.some.inj hsame)).2.2.2.2.2.2.1
  · exact .pure ⟨fun _ => rfl, fun _ => rfl⟩

theorem enumConstant_inStep :
    InStep text scan Agreement.same depth depth start
      (enumConstant (nestedAt (maxNesting - depth))) := by
  refine .bind_here hordered fun place => .bind_plain fun name => .bind_plain fun arguments => ?_
  refine .bind_wrap (constantBody_inStep hordered htypes name) ⟨?_, ?_⟩ ?_
  · intro body span
    cases body <;> rfl
  · intro body span
    cases body <;> rfl
  · intro v v' x x' _ _ _ _ _ _ _ _ hsame
    cases hsame
    rfl

theorem enumConstants_inStep :
    InStep text scan Agreement.same depth depth start
      (enumConstants (nestedAt (maxNesting - depth))) := by
  refine .gather (.bind_plain fun _ => .bind_plain fun _ =>
    .ite (.pure ⟨fun _ => rfl, fun _ => rfl⟩) ?_)
  refine .bind_tail (f := constantTurn) (enumConstant_inStep hordered htypes) ?_ ?_
  · intro v setting m w t hok
    rcases constantTurn_eq_ok hok with ⟨rfl, hother⟩ | ⟨rfl, hother⟩
    · exact ⟨hother _, rfl, rfl⟩
    · exact ⟨hother _, rfl, rfl⟩
  · intro v v' setting setting' m m' w w' t u hok hok' htaken
    have hw : (Deferring.complete text w).1 = .take (Deferring.complete text v).1 ∨
        (Deferring.complete text w).1 = .final (Deferring.complete text v).1 := by
      rcases constantTurn_eq_ok hok with ⟨rfl, -⟩ | ⟨rfl, -⟩
      · exact .inl rfl
      · exact .inr rfl
    have hw' : w' = .take v' ∨ w' = .final v' :=
      (constantTurn_eq_ok hok').imp And.left And.left
    exact htaken _ _ hw hw'

theorem enumBody_inStep (typeName : String) :
    InStep text scan Agreement.same depth depth start
      (enumBody (nestedAt (maxNesting - depth)) typeName) := by
  have hconstants : InStep text scan Agreement.same depth depth start
      (enumConstants (nestedAt (maxNesting - depth))) := enumConstants_inStep hordered htypes
  have hmembers : InStep text scan Agreement.same depth depth start
      (members (nestedAt (maxNesting - depth)) typeName) :=
    members_inStep hordered typeName htypes
  refine .bind_plain fun _ => ?_
  constructor
  · intro s t v hs hdiet ht halike
    obtain ⟨cs, m, hcs, hdiet⟩ := bind_eq_ok.1 hdiet
    obtain ⟨ms, n, hms, hdiet⟩ := bind_eq_ok.1 hdiet
    obtain ⟨closed, n', hclosed, hdiet⟩ := bind_eq_ok.1 hdiet
    obtain ⟨rfl, rfl⟩ := pure_eq_ok.1 hdiet
    obtain ⟨hcsalike, hmsalike⟩ := alike_append.1 halike
    have hn := (Steady.leads hclosed ht).silent
    have hm := (Steady.leads hms hn).silent
    obtain ⟨hcsfull, hcsnone⟩ := hconstants.completes hs hcs hm hcsalike
    obtain ⟨hmsfull, hmsnone⟩ :=
      hmembers.completes (hs.next (Steady.leads hcs hm) hm) hms hn hmsalike
    rw [complete_append]
    refine ⟨?_, List.append_eq_nil_iff.2 ⟨hcsnone, hmsnone⟩⟩
    rw [bind_of_ok hcsfull, bind_of_ok hmsfull, bind_of_ok (Plain.full hclosed)]
    rfl
  · intro s t u v w hs hdiet ht hfull hu hagree hnone
    obtain ⟨cs, m, hcs, hdiet⟩ := bind_eq_ok.1 hdiet
    obtain ⟨ms, n, hms, hdiet⟩ := bind_eq_ok.1 hdiet
    obtain ⟨closed, _, hclosed, hdiet⟩ := bind_eq_ok.1 hdiet
    obtain ⟨rfl, rfl⟩ := pure_eq_ok.1 hdiet
    obtain ⟨cs', m', hcs', hfull⟩ := bind_eq_ok.1 hfull
    obtain ⟨ms', n', hms', hfull⟩ := bind_eq_ok.1 hfull
    obtain ⟨closed', _, hclosed', hfull⟩ := bind_eq_ok.1 hfull
    obtain ⟨rfl, rfl⟩ := pure_eq_ok.1 hfull
    have hn := (Steady.leads hclosed ht).silent
    have hm := (Steady.leads hms hn).silent
    have hn' := (Steady.leads hclosed' hu).silent
    have hm' := (Steady.leads hms' hn').silent
    have hsame : (Deferring.complete text (cs ++ ms)).1 = cs' ++ ms' := hagree
    rw [complete_append] at hsame hnone
    obtain ⟨hcsnone, hmsnone⟩ := List.append_eq_nil_iff.1 hnone
    -- The full parse may find the end of the constants elsewhere; that the lists are equal says
    -- where it finds it, since no constant is among the other members.
    obtain ⟨hcsame, hmsame⟩ := Member.append_inj_of_constants
      (complete_constants ((enumConstants_yields _).of_ok hcs))
      ((enumConstants_yields _).of_ok hcs')
      (complete_constants ((members_yields _ _).of_ok hms)) ((members_yields _ _).of_ok hms') hsame
    obtain ⟨rfl, rfl, hcsalike⟩ := hconstants.reflects hs hcs hm hcs' hm' hcsame hcsnone
    obtain ⟨rfl, rfl, hmsalike⟩ := hmembers.reflects (hs.next (Steady.leads hcs hm) hm) hms hn hms'
      hn' hmsame hmsnone
    cases (Plain.full hclosed).symm.trans hclosed'
    exact ⟨by rw [complete_append], rfl, alike_append.2 ⟨hcsalike, hmsalike⟩⟩

theorem typeBody_inStep (kind : TypeDecl.Kind) (typeName : String) :
    InStep text scan Agreement.same depth depth start
      (typeBody (nestedAt (maxNesting - depth)) kind typeName) :=
  .ite (enumBody_inStep hordered htypes typeName) (classBody_inStep hordered htypes typeName)

theorem typeDeclBody_inStep (words : List String) (place : Position) :
    InStep text scan Agreement.same depth depth start
      (typeDeclBody (nestedAt (maxNesting - depth)) words place) := by
  refine .bind_plain fun kind => .bind_plain fun name => .bind_plain fun typeParameters =>
    .bind_plain fun _ => .ite (.bind_plain fun _ => ?_) ?_
  -- With the components of a record or without, the rest of the declaration is the same.
  all_goals
    refine .bind_plain fun supertypes => ?_
    obtain ⟨superclass, interfaces⟩ := supertypes
    refine .bind_plain fun _ => ?_
    refine .bind_wrap (typeBody_inStep hordered htypes kind name)
      (TypeDecl.wraps text depth kind name words typeParameters superclass interfaces) ?_
    intro v v' x x' _ _ _ _ _ _ _ _ hsame
    exact (TypeDecl.mk.inj hsame).2.2.2.2.2.2.1

end

/-! ### The levels of nesting -/

/-- **Types keep in step at every level.** -/
theorem typeDecl_inStep (hordered : Token.Ordered scan.tokens) {level depth : Nat}
    (hlevel : level + depth = maxNesting) (words : List String) (place : Position) :
    InStep text scan Agreement.same depth (depth + 1) start
      ((nestedAt level).typeDecl words place) := by
  induction level generalizing depth start words place with
  | zero =>
      have hnever : ∀ {setting s t} {found : TypeDecl},
          guarded tooDeep setting s = .ok found t → t.errors ≠ #[] := by
        intro setting s t found hok
        obtain ⟨-, m, hdeep, -⟩ := guarded_eq_ok.1 hok
        cases hdeep
      exact .of_loud hnever
  | succ level ih =>
      have hinner : level + (depth + 1) = maxNesting := by omega
      have hsame : level = maxNesting - (depth + 1) := by omega
      refine .guarded ?_
      rw [hsame]
      refine typeDeclBody_inStep hordered (fun words place => ?_) words place
      rw [← hsame]
      exact ih hinner words place

/-! ### Units -/

theorem topLevelType_inStep (hordered : Token.Ordered scan.tokens) :
    InStep text scan Agreement.same 0 1 start topLevelType := by
  unfold topLevelType outermost
  exact .bind_plain fun place => .bind_plain fun words =>
    typeDecl_inStep hordered (Nat.add_zero maxNesting) words place

theorem topLevelTypes_inStep (hordered : Token.Ordered scan.tokens) :
    InStep text scan Agreement.same 0 1 start topLevelTypes :=
  .gather (.bind_plain fun _ => .ite (.pure ⟨fun _ => rfl, fun _ => rfl⟩)
    (.bind_plain fun _ => .ite (.pure ⟨fun _ => rfl, fun _ => rfl⟩)
      (.orSkip (topLevelType_inStep hordered))))

/-- **A whole unit keeps in step.** -/
theorem compilationUnit_inStep (hordered : Token.Ordered scan.tokens) :
    InStep text scan Agreement.same 0 1 start compilationUnit := by
  refine .bind_plain fun place => .bind_plain fun _ => .bind_plain fun package =>
    .bind_plain fun imports => ?_
  refine .bind_wrap (topLevelTypes_inStep hordered) ⟨fun _ _ => rfl, fun _ _ => rfl⟩ ?_
  intro v v' x x' _ _ _ _ _ _ _ _ hsame
  exact (Outline.mk.inj hsame).2.2.1

end JavaOutline
