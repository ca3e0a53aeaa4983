/-
**Where the signatures of methods come from.**

The name of a method is an identifier of its source, and the type of a parameter is written with tokens
that stand side by side in the source, no comma being outside of their groups.  So where nothing is wrong
with the characters of the source, the key by which repeated methods are told says the name of a method
and the types of its parameters one by one.

Main definitions:

* `Finds` — what a parser answers among some tokens has a property;
* `MethodDecl.WrittenWith`, `TypeDecl.WrittenWith`, `Outline.WrittenWith` — signatures are written with
  some tokens.

Main results:

* `Finds.bind`, `Finds.gather`, `Finds.commaSeparated`, `Finds.orSkip` — one parser after another,
  repetition, errors;
* `nestedAt_finds`, `parse_writtenWith` — **the signatures of an outline are written with the tokens of
  its source**;
* `MethodDecl.WrittenWith.signatureKey_eq_iff` — **the key says the name and the types**.
-/

import JavaOutline.Proofs.DietParse
import JavaOutline.Proofs.UnsplitTypes

set_option autoImplicit false

namespace JavaOutline

open JavaOutline.Parser

/-! ### What parsers find -/

/-- What a parser answers has a property, wherever among some tokens it begins. -/
structure Finds {α : Type} (tokens : List Token) (P : α → Prop) (p : Parser α) : Prop where
  of_ok : ∀ {setting s a n}, s.rest <:+ tokens → p setting s = .ok a n → P a

/-- The tokens ahead of a state that is reached are some of those ahead before. -/
theorem Parser.State.Goes.suffix {tokens : List Token} {s n : State} (h : s.Goes n)
    (hs : s.rest <:+ tokens) : n.rest <:+ tokens := by
  obtain ⟨passed, hrest, -, -⟩ := h.reaches
  exact List.IsSuffix.trans ⟨passed, hrest.symm⟩ hs

namespace Finds

variable {α β : Type} {tokens : List Token} {P : α → Prop} {Q : β → Prop}

/-- With what the first parser finds the second one goes on. -/
theorem bind {p : Parser β} {f : β → Parser α} [Moves p] (hp : Finds tokens Q p)
    (hf : ∀ b, Q b → Finds tokens P (f b)) : Finds tokens P (p >>= f) where
  of_ok hs hok := by
    obtain ⟨b, m, hb, hok⟩ := bind_eq_ok.1 hok
    exact (hf b (hp.of_ok hs hb)).of_ok ((Moves.of_ok hb).suffix hs) hok

/-- What the first parser answers does not matter. -/
theorem after {p : Parser β} {f : β → Parser α} [Moves p] (hf : ∀ b, Finds tokens P (f b)) :
    Finds tokens P (p >>= f) :=
  bind (Q := fun _ => True) ⟨fun _ _ => trivial⟩ fun b _ => hf b

theorem pure {a : α} (h : P a) : Finds tokens P (Pure.pure a) :=
  ⟨fun _ hok => (pure_eq_ok.1 hok).1 ▸ h⟩

theorem ite {c : Prop} [Decidable c] {p q : Parser α} (hp : Finds tokens P p)
    (hq : Finds tokens P q) : Finds tokens P (if c then p else q) := by
  split
  · exact hp
  · exact hq

/-- What the turns of a repetition take is what it finds. -/
theorem gather {turn : Parser (Turn α)} [Moves turn]
    (h : Finds tokens (fun value => ∀ a, value = .take a ∨ value = .final a → P a) turn) :
    Finds tokens (fun found => ∀ a ∈ found, P a) (Parser.gather turn) := by
  have hcollect : ∀ fuel, Finds tokens (fun found => ∀ a ∈ found, P a) (collect turn fuel) := by
    intro fuel
    induction fuel with
    | zero => exact pure fun a ha => nomatch ha
    | succ fuel ih =>
        refine bind (f := behindTurn (collect turn fuel)) h fun value htaken => ?_
        cases value with
        | stop => exact pure fun a ha => nomatch ha
        | skip => exact ih
        | take a =>
            exact bind ih fun later hlater =>
              pure (List.forall_mem_cons.2 ⟨htaken a (.inl rfl), hlater⟩)
        | final a =>
            exact pure (List.forall_mem_cons.2 ⟨htaken a (.inr rfl), fun b hb => nomatch hb⟩)
  constructor
  intro setting s found n hs hok
  rw [gather_eq_collect] at hok
  exact (hcollect _).of_ok hs hok

theorem commaSeparated {item : Parser α} [Moves item] (h : Finds tokens P item) :
    Finds tokens (fun found => ∀ a ∈ found, P a) (Parser.commaSeparated item) := by
  refine bind h fun first hfirst => bind (Q := fun found => ∀ a ∈ found, P a) (gather ?_)
    fun others hothers => pure (List.forall_mem_cons.2 ⟨hfirst, hothers⟩)
  refine bind (Q := fun found => ∀ a ∈ found, P a) (after fun accepted => ite ?_ ?_) ?_
  · exact bind h fun a ha => pure fun b hb => Option.some.inj hb ▸ ha
  · exact pure fun a ha => absurd ha (Option.not_mem_none a)
  · intro found hfound
    cases found with
    | none => exact pure fun a ha => by rcases ha with ha | ha <;> cases ha
    | some a =>
        refine pure fun b hb => ?_
        rcases hb with hb | hb <;> cases hb
        exact hfound a rfl

theorem guarded {p : Parser α} (h : Finds tokens P p) : Finds tokens P (Parser.guarded p) where
  of_ok {setting s a n} hs hok := by
    obtain ⟨-, m, hok, -⟩ := guarded_eq_ok.1 hok
    exact h.of_ok (s := { s with depth := s.depth + 1 }) hs hok

theorem orSkip {p : Parser α} (h : Finds tokens P p) :
    Finds tokens (fun value => ∀ a, value = .take a ∨ value = .final a → P a)
      (Parser.orSkip p) where
  of_ok hs hok a ha := by
    unfold Parser.orSkip at hok
    split at hok
    next b next hb =>
      cases hok
      rcases ha with ha | ha <;> cases ha
      exact h.of_ok hs hb
    next =>
      cases hok
      rcases ha with ha | ha <;> cases ha

end Finds

/-! ### Signatures -/

/-- The text is an identifier among some tokens. -/
def IsName (tokens : List Token) (text : String) : Prop :=
  ∃ t ∈ tokens, t.isIdentifier = true ∧ t.text = text

/-- The signature of a method is written with some tokens. -/
structure MethodDecl.WrittenWith (tokens : List Token) (m : MethodDecl) : Prop where
  name : IsName tokens m.name
  types : ∀ p ∈ m.parameters, UnsplitText tokens p.typeName

/-- The signatures of the methods of a type, and of the types in it, are written with some tokens. -/
def TypeDecl.WrittenWith (tokens : List Token) (t : TypeDecl) : Prop :=
  ∀ u ∈ t.withNested, ∀ m, Member.method m ∈ u.members → m.WrittenWith tokens

/-- The signatures of a member are written with some tokens. -/
def Member.WrittenWith (tokens : List Token) : Member → Prop
  | .method m => m.WrittenWith tokens
  | .type t => t.WrittenWith tokens
  | .field _ | .initializer _ | .enumConstant _ => True

theorem Member.exists_of_mem_nestedTypes {u : TypeDecl} {ms : List Member}
    (h : u ∈ Member.nestedTypes ms) : ∃ t, Member.type t ∈ ms ∧ u ∈ t.withNested := by
  induction ms with
  | nil => cases h
  | cons m ms ih =>
      have hlater (h : u ∈ Member.nestedTypes ms) : ∃ t, Member.type t ∈ m :: ms ∧ u ∈ t.withNested := by
        obtain ⟨t, ht, hu⟩ := ih h
        exact ⟨t, List.mem_cons_of_mem m ht, hu⟩
      cases m with
      | type t =>
          rw [nestedTypes] at h
          rcases List.mem_append.1 h with hown | h
          · exact ⟨t, List.mem_cons_self, hown⟩
          · exact hlater h
      | field _ => exact hlater h
      | method _ => exact hlater h
      | initializer _ => exact hlater h
      | enumConstant _ => exact hlater h

/-- A type is written with tokens if its members are. -/
theorem TypeDecl.WrittenWith.of_members {tokens : List Token} {t : TypeDecl}
    (h : ∀ m ∈ t.members, m.WrittenWith tokens) : t.WrittenWith tokens := by
  obtain ⟨_, _, _, _, _, _, members, _⟩ := t
  intro u hu m hm
  rw [withNested] at hu
  rcases List.mem_cons.1 hu with rfl | hnested
  · exact h _ hm
  · obtain ⟨t, ht, hu⟩ := Member.exists_of_mem_nestedTypes hnested
    exact h _ ht u hu m hm

section

variable {tokens : List Token}

theorem identifier_finds : Finds tokens (IsName tokens) identifier := by
  constructor
  intro setting s name n hs hok
  unfold identifier at hok
  split at hok
  next t ts hrest =>
    split at hok
    next ht =>
      cases hok
      exact ⟨t, hs.subset (hrest ▸ List.mem_cons_self), ht, rfl⟩
    next => cases hok
  next => cases hok

theorem typeReference_finds : Finds tokens (UnsplitText tokens) typeReference := by
  constructor
  intro setting s text n hs hok
  obtain ⟨front, part, hrest, hne, hunsplit, hcut, rfl⟩ := typeReference_eq_ok hok
  obtain ⟨before, hbefore⟩ := hs
  exact ⟨before ++ front, part, n.rest, by rw [← hbefore, hrest, List.append_assoc], hne, hunsplit,
    hcut, rfl⟩

theorem parameter_finds : Finds tokens (fun p => UnsplitText tokens p.typeName) parameter :=
  .after fun _ => .after fun _ => .bind typeReference_finds fun _ htype => .after fun _ =>
    .after fun _ => .after fun _ => .pure htype

theorem parameters_finds :
    Finds tokens (fun found => ∀ p ∈ found, UnsplitText tokens p.typeName) parameters :=
  .after fun _ => .after fun _ => .ite (.pure nofun) <|
    .bind (.commaSeparated parameter_finds) fun _ htypes => .after fun _ => .pure htypes

variable (sub : Nested) [sub.Advances]

theorem methodRest_finds {head : MethodHead} (hname : IsName tokens head.name) :
    Finds tokens (Member.WrittenWith tokens) (methodRest sub head) :=
  .bind parameters_finds fun _ htypes => .after fun _ => .after fun _ => .after fun _ =>
    .after fun _ => .after fun _ => .pure ⟨hname, htypes⟩

theorem initializerMember_finds (start : Position) :
    Finds tokens (Member.WrittenWith tokens) (initializerMember sub start) :=
  .after fun _ => .after fun _ => .after fun _ => .pure trivial

theorem compactConstructor_finds {head : MethodHead} (hname : IsName tokens head.name) :
    Finds tokens (Member.WrittenWith tokens) (compactConstructor sub head) :=
  .after fun _ => .after fun _ => .pure ⟨hname, nofun⟩

theorem typedMember_finds (words : List String) (typeParameters : Option String) (start : Position) :
    Finds tokens (Member.WrittenWith tokens) (typedMember sub words typeParameters start) :=
  .after fun _ => .bind identifier_finds fun _ hname => .after fun _ =>
    .ite (methodRest_finds sub hname) <|
      .after fun _ => .after fun _ => .after fun _ => .pure trivial

variable (htypes : ∀ words start, Finds tokens (TypeDecl.WrittenWith tokens) (sub.typeDecl words start))

include htypes

theorem member_finds {typeName : String} (hname : IsName tokens typeName) :
    Finds tokens (Member.WrittenWith tokens) (member sub typeName) := by
  refine .after fun start => .after fun s => .ite (initializerMember_finds sub start) ?_
  refine .after fun words => .after fun s => .ite ?_ ?_
  · exact .bind (htypes words start) fun _ ht => .pure ht
  · refine .after fun typeParameters => .after fun s => .ite ?_ (.ite ?_ ?_)
    · exact .after fun _ => methodRest_finds sub hname
    · exact .after fun _ => compactConstructor_finds sub hname
    · exact typedMember_finds sub words typeParameters start

theorem members_finds {typeName : String} (hname : IsName tokens typeName) :
    Finds tokens (fun found => ∀ m ∈ found, m.WrittenWith tokens) (members sub typeName) := by
  have hnone {value : Turn Member} (h : value = .stop ∨ value = .skip) :
      ∀ a, value = .take a ∨ value = .final a → a.WrittenWith tokens := by
    rcases h with rfl | rfl <;> nofun
  refine .gather (.after fun s => .ite (.pure (hnone (.inl rfl))) (.ite ?_ ?_))
  · exact .after fun _ => .pure (hnone (.inl rfl))
  · exact .after fun _ => .ite (.pure (hnone (.inr rfl))) (.orSkip (member_finds sub htypes hname))

theorem typeBody_finds (kind : TypeDecl.Kind) {typeName : String} (hname : IsName tokens typeName) :
    Finds tokens (fun found => ∀ m ∈ found, m.WrittenWith tokens) (typeBody sub kind typeName) := by
  have hmembers := members_finds sub htypes hname
  have hconstants : Finds tokens (fun found => ∀ m ∈ found, m.WrittenWith tokens)
      (enumConstants sub) := by
    refine ⟨fun _ hok m hm => ?_⟩
    have hconstant := (enumConstants_yields sub).of_ok hok m hm
    cases m with
    | enumConstant _ => trivial
    | _ => cases hconstant
  refine .ite ?_ ?_
  · exact .after fun _ => .bind hconstants fun _ hconstants => .bind hmembers fun _ hfound =>
      .after fun _ => .pure (List.forall_mem_append.2 ⟨hconstants, hfound⟩)
  · exact .after fun _ => .bind hmembers fun _ hfound => .after fun _ => .pure hfound

theorem typeDeclBody_finds (words : List String) (start : Position) :
    Finds tokens (TypeDecl.WrittenWith tokens) (typeDeclBody sub words start) := by
  refine .after fun kind => .bind identifier_finds fun name hname => ?_
  refine .after fun typeParameters => .after fun components => ?_
  dsimp only
  -- With or without components the supertypes and the body follow.
  refine .ite (.after fun _ => ?_) ?_
  all_goals
    refine .after fun clauses => ?_
    obtain ⟨superclass, interfaces⟩ := clauses
    exact .after fun _ => .bind (typeBody_finds sub htypes kind hname) fun _ hfound =>
      .after fun _ => .pure (.of_members hfound)

end

section

variable {tokens : List Token}

/-- **Types are written with the tokens of their source at every level of nesting.** -/
theorem nestedAt_finds (level : Nat) (words : List String) (start : Position) :
    Finds tokens (TypeDecl.WrittenWith tokens) ((nestedAt level).typeDecl words start) := by
  induction level generalizing words start with
  | zero =>
      show Finds tokens _ (guarded tooDeep)
      exact .guarded ⟨fun _ hok => by cases hok⟩
  | succ level ih =>
      show Finds tokens _ (guarded (typeDeclBody (nestedAt level) words start))
      exact .guarded (typeDeclBody_finds (nestedAt level) ih words start)

/-- **The types of a unit are written with its tokens.** -/
theorem compilationUnit_finds :
    Finds tokens (fun o => ∀ t ∈ o.types, t.WrittenWith tokens) compilationUnit := by
  have htype : Finds tokens (TypeDecl.WrittenWith tokens) topLevelType :=
    .after fun start => .after fun words => nestedAt_finds maxNesting words start
  have hnone {value : Turn TypeDecl} (h : value = .stop ∨ value = .skip) :
      ∀ a, value = .take a ∨ value = .final a → a.WrittenWith tokens := by
    rcases h with rfl | rfl <;> nofun
  have htypes : Finds tokens (fun found => ∀ t ∈ found, t.WrittenWith tokens) topLevelTypes :=
    .gather (.after fun s => .ite (.pure (hnone (.inl rfl))) (.after fun _ =>
      .ite (.pure (hnone (.inr rfl))) (.orSkip htype)))
  exact .after fun _ => .after fun _ => .after fun _ => .after fun _ =>
    .bind htypes fun _ hfound => .after fun _ => .pure hfound

end

/-! ### Outlines -/

/-- The signatures of all types of an outline are written with some tokens. -/
def Outline.WrittenWith (tokens : List Token) (o : Outline) : Prop :=
  ∀ t ∈ o.allTypes, ∀ m, Member.method m ∈ t.members → m.WrittenWith tokens

/-- **The signatures of an outline are written with the tokens of its source.** -/
theorem parse_writtenWith (source : String) (diet : Bool) :
    (Outline.parse source diet).outline.WrittenWith (Scan.ofText source).tokens := by
  intro t ht m hm
  simp only [Outline.parse] at ht
  cases hanswer : compilationUnit ((Scan.ofText source).setting diet)
      { rest := (Scan.ofText source).tokens } with
  | ok outline s =>
      rw [hanswer] at ht
      obtain ⟨u, hu, ht⟩ := List.mem_flatMap.1 ht
      exact compilationUnit_finds.of_ok List.suffix_rfl hanswer u hu t ht m hm
  | fail error s =>
      rw [hanswer] at ht
      cases ht

/-! ### Keys -/

/-- Two names in front of parentheses are the same if what they begin is. -/
theorem name_eq_of_append {name name' types types' : List Char} (hname : '(' ∉ name)
    (hname' : '(' ∉ name') (heq : name ++ '(' :: types = name' ++ '(' :: types') :
    name = name' ∧ types = types' := by
  have htake {name : List Char} (types : List Char) (hname : '(' ∉ name) :
      (name ++ '(' :: types).takeWhile (· != '(') = name := by
    rw [List.takeWhile_append_of_pos (by
      intro c hc
      rw [bne_iff_ne]
      exact fun h => hname (h ▸ hc))]
    simp
  obtain rfl : name = name' := by
    rw [← htake types hname, heq, htake types' hname']
  exact ⟨rfl, (List.cons.inj (List.append_cancel_left heq)).2⟩

namespace MethodDecl.WrittenWith

variable {offset : Nat} {source : List Char} {tokens : List Token} {m m' : MethodDecl}

theorem parenthesis_notMem (h : m.WrittenWith tokens) (hlexed : Lexed offset source tokens) :
    '(' ∉ m.name.toList := by
  intro hmem
  obtain ⟨t, ht, hname, htext⟩ := h.name
  have hword := hlexed.word_of_isIdentifier ht hname '(' (htext ▸ hmem)
  revert hword
  decide

/-- **The key says the name of a method and the types of its parameters**, one by one. -/
theorem signatureKey_eq_iff (h : m.WrittenWith tokens) (h' : m'.WrittenWith tokens)
    (hlexed : Lexed offset source tokens) :
    m.signatureKey = m'.signatureKey ↔
      m.name = m'.name ∧ m.parameters.map Parameter.typeName = m'.parameters.map Parameter.typeName := by
  constructor
  · intro hkey
    have hchars (m : MethodDecl) : m.signatureKey.toList = m.name.toList ++
        '(' :: ((",".intercalate (m.parameters.map Parameter.typeName)).toList ++ [')']) := by
      rw [signatureKey, String.toList_append, String.toList_append, String.toList_append,
        List.append_assoc, List.append_assoc]
      rfl
    have heq := congrArg String.toList hkey
    rw [hchars, hchars] at heq
    obtain ⟨hname, htypes⟩ := name_eq_of_append (h.parenthesis_notMem hlexed)
      (h'.parenthesis_notMem hlexed) heq
    refine ⟨String.toList_inj.1 hname, UnsplitText.intercalate_inj hlexed ?_ ?_
      (String.toList_inj.1 (List.append_cancel_right htypes))⟩
    · exact List.forall_mem_map.2 h.types
    · exact List.forall_mem_map.2 h'.types
  · rintro ⟨hname, htypes⟩
    rw [signatureKey, signatureKey, hname, htypes]

end MethodDecl.WrittenWith

end JavaOutline
