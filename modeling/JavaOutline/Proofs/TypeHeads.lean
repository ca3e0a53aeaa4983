/-
**What every parse finds of the first type.**

A diet parse and a full parse may disagree about a source, but only from the first body on.  What
stands in front of it is read alike: if nothing is reported, both parses find the same package, and
either no type at all or a first type with the same name.

Main definitions:

* `Heading` — answers that have something in common, however bodies are treated;
* `TurnHeading` — the same for the turns of a repetition.

Main results:

* `TurnHeading.collect` — a repetition finds nothing under either setting, or its first values have
  something in common;
* `Outline.parse_without_types` — **a source that declares no type reads the same on a diet**;
* `Outline.parse_first_type` — the first type has one name.
-/

import JavaOutline.Proofs.DietAgreement
import JavaOutline.TypeIndex

set_option autoImplicit false

namespace JavaOutline

open JavaOutline.Parser

/-! ### Answers with a common heading -/

section

variable {α β κ : Type} {key : α → κ}

/-- Whether bodies are passed over or not, the values that a parser answers with from one state have
the same key, if nothing is reported by then. -/
structure Heading (key : α → κ) (p : Parser α) : Prop where
  same : ∀ {setting diet s a b n m}, p setting s = .ok a n → n.errors = #[] →
    p { setting with diet } s = .ok b m → m.errors = #[] → key b = key a

namespace Heading

theorem bind_plain {q : Parser β} {f : β → Parser α} [Plain q] (h : ∀ b, Heading key (f b)) :
    Heading key (q >>= f) where
  same {setting diet s a b n m} hok hn hok' hm := by
    obtain ⟨found, middle, hq, hf⟩ := bind_eq_ok.1 hok
    rw [bind_of_ok ((Plain.blind setting diet s).trans hq)] at hok'
    exact (h found).same hf hn hok' hm

/-- A parser whose values all have one key. -/
theorem of_yields {k : κ} {p : Parser α} (h : Yields (fun a => key a = k) p) : Heading key p where
  same hok _ hok' _ := (h.of_ok hok').trans (h.of_ok hok).symm

theorem guarded {p : Parser α} (h : Heading key p) : Heading key (guarded p) where
  same hok hn hok' hm := by
    obtain ⟨-, inner, hp, rfl⟩ := guarded_eq_ok.1 hok
    obtain ⟨-, inner', hp', rfl⟩ := guarded_eq_ok.1 hok'
    exact h.same hp hn hp' hm

end Heading

/-- The turns of a repetition, one under each setting: they take nothing and are the same, or what
they take has one key. -/
structure TurnHeading (key : α → κ) (turn : Parser (Turn α)) : Prop where
  same : ∀ {setting diet s value n}, turn setting s = .ok value n → n.errors = #[] →
    ((value = .stop ∨ value = .skip) ∧ turn { setting with diet } s = .ok value n) ∨
      ∃ a, value = .take a ∧ ∀ other m, turn { setting with diet } s = .ok other m →
        m.errors = #[] → ∃ b, other = .take b ∧ key b = key a

namespace TurnHeading

theorem bind_plain {q : Parser β} {f : β → Parser (Turn α)} [Plain q]
    (h : ∀ b, TurnHeading key (f b)) : TurnHeading key (q >>= f) where
  same {setting diet s value n} hok hn := by
    obtain ⟨found, middle, hq, hf⟩ := bind_eq_ok.1 hok
    have hother : (q >>= f) { setting with diet } s = f found { setting with diet } middle :=
      bind_of_ok ((Plain.blind setting diet s).trans hq)
    rw [hother]
    exact (h found).same hf hn

theorem ite {c : Prop} [Decidable c] {p q : Parser (Turn α)} (hp : TurnHeading key p)
    (hq : TurnHeading key q) : TurnHeading key (if c then p else q) := by
  split
  · exact hp
  · exact hq

/-- A turn that takes nothing. -/
theorem pure {value : Turn α} (h : value = .stop ∨ value = .skip) :
    TurnHeading key (Pure.pure value) where
  same hok _ := by
    obtain ⟨rfl, rfl⟩ := pure_eq_ok.1 hok
    exact .inl ⟨h, rfl⟩

theorem orSkip {p : Parser α} (h : Heading key p) : TurnHeading key (orSkip p) where
  same hok hn := by
    obtain ⟨a, rfl, hp⟩ := orSkip_eq_ok hok hn
    refine .inr ⟨a, rfl, fun other m hok' hm => ?_⟩
    obtain ⟨b, rfl, hp'⟩ := orSkip_eq_ok hok' hm
    exact ⟨b, rfl, h.same hp hn hp' hm⟩

/-- A repetition that finds nothing finds nothing under the other setting, and else the first values
have one key. -/
theorem collect {turn : Parser (Turn α)} [Steady turn] (h : TurnHeading key turn)
    {fuel : Nat} {setting : Setting} (diet : Bool) {s n : State} {found : List α}
    (hok : collect turn fuel setting s = .ok found n) (hn : n.errors = #[]) :
    (found = [] → collect turn fuel { setting with diet } s = .ok [] n) ∧
      ∀ others m, collect turn fuel { setting with diet } s = .ok others m → m.errors = #[] →
        others.head?.map key = found.head?.map key := by
  induction fuel generalizing s n found with
  | zero =>
      obtain ⟨rfl, rfl⟩ := pure_eq_ok.1 hok
      refine ⟨fun _ => rfl, fun others m hok' _ => ?_⟩
      obtain ⟨rfl, rfl⟩ := pure_eq_ok.1 hok'
      rfl
  | succ fuel ih =>
      obtain ⟨value, middle, hturn, hbehind⟩ := bind_eq_ok.1 hok
      have hmiddle : middle.errors = #[] := (Steady.leads hbehind hn).silent
      rcases h.same hturn hmiddle with ⟨hnone, hsame⟩ | ⟨a, rfl, htaken⟩
      · have hother : Parser.collect turn (fuel + 1) { setting with diet } s =
            behindTurn (Parser.collect turn fuel) value { setting with diet } middle :=
          bind_of_ok hsame
        rw [hother]
        rcases hnone with rfl | rfl
        · obtain ⟨rfl, rfl⟩ := pure_eq_ok.1 hbehind
          refine ⟨fun _ => rfl, fun others m hok' _ => ?_⟩
          obtain ⟨rfl, rfl⟩ := pure_eq_ok.1 hok'
          rfl
        · exact ih hbehind hn
      · obtain ⟨rest, rfl⟩ := behindTurn_cons (.inl rfl) hbehind
        refine ⟨fun hnil => (List.cons_ne_nil _ _ hnil).elim, fun others m hok' hm => ?_⟩
        obtain ⟨other, middle', hturn', hbehind'⟩ := bind_eq_ok.1 hok'
        obtain ⟨b, rfl, hkey⟩ := htaken other middle' hturn' (Steady.leads hbehind' hm).silent
        obtain ⟨rest', rfl⟩ := behindTurn_cons (.inl rfl) hbehind'
        simp [hkey]

end TurnHeading

end

/-! ### Types -/

theorem typeDeclBody_heading (sub : Nested) (words : List String) (start : Position) :
    Heading TypeDecl.name (typeDeclBody sub words start) := by
  refine .bind_plain fun kind => .bind_plain fun name => ?_
  refine Heading.of_yields (show Yields (fun t : TypeDecl => t.name = name) _ from ?_)
  refine .bind fun typeParameters => .bind fun _ => .ite (.bind fun _ => ?_) ?_
  all_goals exact .bind fun _ => .bind fun _ => .bind fun _ => .bind fun _ => .pure rfl

theorem topLevelType_heading : Heading TypeDecl.name topLevelType := by
  refine .bind_plain fun start => .bind_plain fun words => ?_
  have hlevel : maxNesting = 255 + 1 := rfl
  unfold outermost
  rw [hlevel, nestedAt]
  exact (typeDeclBody_heading (nestedAt 255) words start).guarded

/-- The types of a unit, however bodies are treated: there are none, or the first one has one
name. -/
theorem topLevelTypes_heading {setting : Setting} (diet : Bool) {s n : State}
    {types : List TypeDecl} (hok : topLevelTypes setting s = .ok types n) (hn : n.errors = #[]) :
    (types = [] → topLevelTypes { setting with diet } s = .ok [] n) ∧
      ∀ others m, topLevelTypes { setting with diet } s = .ok others m → m.errors = #[] →
        others.head?.map TypeDecl.name = types.head?.map TypeDecl.name := by
  unfold topLevelTypes at hok ⊢
  simp only [gather_eq_collect] at hok ⊢
  refine TurnHeading.collect ?_ diet hok hn
  exact .bind_plain fun _ => .ite (.pure (.inl rfl))
    (.bind_plain fun _ => .ite (.pure (.inr rfl)) (.orSkip topLevelType_heading))

/-- A whole unit, however bodies are treated: without types it is the same, and else the package and
the name of the first type are. -/
theorem compilationUnit_heading {setting : Setting} (diet : Bool) {s n : State} {o : Outline}
    (hok : compilationUnit setting s = .ok o n) (hn : n.errors = #[]) :
    (o.types = [] → compilationUnit { setting with diet } s = .ok o n) ∧
      ∀ other m, compilationUnit { setting with diet } s = .ok other m → m.errors = #[] →
        other.package = o.package ∧
          other.types.head?.map TypeDecl.name = o.types.head?.map TypeDecl.name := by
  obtain ⟨start, s₁, hstart, hok⟩ := bind_eq_ok.1 hok
  obtain ⟨_, s₂, hannotations, hok⟩ := bind_eq_ok.1 hok
  obtain ⟨package, s₃, hpackage, hok⟩ := bind_eq_ok.1 hok
  obtain ⟨imports, s₄, himports, hok⟩ := bind_eq_ok.1 hok
  obtain ⟨types, s₅, htypes, hok⟩ := bind_eq_ok.1 hok
  obtain ⟨span, s₆, hspan, hok⟩ := bind_eq_ok.1 hok
  obtain ⟨rfl, rfl⟩ := pure_eq_ok.1 hok
  cases hspan
  -- Up to the types the other parse goes the same way.
  have hother : compilationUnit { setting with diet } s =
      (topLevelTypes >>= fun types => spanFrom start >>= fun span =>
        Pure.pure { package, imports, types, span }) { setting with diet } s₄ := by
    unfold compilationUnit
    rw [bind_of_ok ((Plain.blind setting diet _).trans hstart),
      bind_of_ok ((Plain.blind setting diet _).trans hannotations),
      bind_of_ok ((Plain.blind setting diet _).trans hpackage),
      bind_of_ok ((Plain.blind setting diet _).trans himports)]
  obtain ⟨hnone, hfirst⟩ := topLevelTypes_heading diet htypes hn
  rw [hother]
  refine ⟨?_, fun other m hok' hm => ?_⟩
  · rintro rfl
    rw [bind_of_ok (hnone rfl)]
    rfl
  · obtain ⟨types', s₅', htypes', hok'⟩ := bind_eq_ok.1 hok'
    obtain ⟨span', s₆', hspan', hok'⟩ := bind_eq_ok.1 hok'
    obtain ⟨rfl, rfl⟩ := pure_eq_ok.1 hok'
    cases hspan'
    exact ⟨rfl, hfirst types' _ htypes' hm⟩

/-! ### Sources -/

namespace Outline

variable {source : String} {diet : Bool}

/-- **A source that declares no type reads the same on a diet**, if nothing is wrong with it. -/
theorem parse_without_types (h : (parse source diet).errors = [])
    (htypes : (parse source diet).outline.types = []) (other : Bool) :
    parse source other = parse source diet := by
  obtain ⟨hscan, s, hok, hs⟩ := parse_errors_eq_nil.1 h
  rw [parse_of_ok ((compilationUnit_heading other hok hs).1 htypes), parse_of_ok hok]

/-- If nothing is wrong with a source, every parse finds the same package and a first type of the
same name, or no type. -/
theorem parse_first_type {other : Bool} (h : (parse source diet).errors = [])
    (hother : (parse source other).errors = []) :
    (parse source other).outline.package = (parse source diet).outline.package ∧
      (parse source other).outline.types.head?.map TypeDecl.name =
        (parse source diet).outline.types.head?.map TypeDecl.name := by
  obtain ⟨-, s, hok, hs⟩ := parse_errors_eq_nil.1 h
  obtain ⟨-, t, hok', ht⟩ := parse_errors_eq_nil.1 hother
  exact (compilationUnit_heading other hok hs).2 _ t hok' ht

/-- The first type that a unit declares stands under the name of its first type. -/
theorem head?_declaredTypes (outline : Outline) :
    outline.declaredTypes.head?.map Prod.fst =
      (outline.types.head?.map TypeDecl.name).map (qualify outline.packageName) := by
  unfold declaredTypes
  cases outline.types with
  | nil => rfl
  | cons t types =>
      obtain ⟨_, name, _, _, _, _, members, span⟩ := t
      simp [TypeDecl.declared]

end Outline

end JavaOutline
