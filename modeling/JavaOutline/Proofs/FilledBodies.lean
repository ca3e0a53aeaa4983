/-
**Completing an outline fills its bodies and changes nothing else.**

The bodies of an outline stand in its methods and initializers, in nested types and in the class bodies
of enum constants as well.  To complete an outline is to replace each body that waits by the block that
is read at its span, and to leave everything around the bodies as it is.  In an outline that was parsed
on a diet every body that waits lies between braces, so whatever is wrong with the statements the block
begins at the opening brace and ends no later than the closing one.

Main definitions:

* `Outline.bodies` — all bodies of an outline;
* `Outline.mapBodies` — the outline with its bodies replaced and nothing else;
* `Body.FilledBy` — how a body is replaced when an outline is completed.

Main results:

* `Outline.bodies_mapBodies`, `Outline.hasUnparsedBodies_eq` — which bodies an outline has;
* `Outline.complete_eq` — completing is replacing bodies;
* `Block.span_parse` — **a block that is read between braces lies between them**;
* `Outline.complete_fills_bodies` — **completing fills the bodies that wait and changes nothing else**.
-/

import JavaOutline.Proofs.CompletedOutline
import JavaOutline.Proofs.SoundSpans

set_option autoImplicit false

namespace JavaOutline

open JavaOutline.Parser

/-! ### The bodies of an outline -/

mutual

/-- The bodies inside a type. -/
def TypeDecl.bodies : TypeDecl → List Body
  | ⟨_, _, _, _, _, _, members, _⟩ => Member.allBodies members

/-- The bodies inside members. -/
def Member.allBodies : List Member → List Body
  | [] => []
  | m :: ms => m.bodies ++ Member.allBodies ms

/-- The bodies inside a member. -/
def Member.bodies : Member → List Body
  | .field _ => []
  | .method decl => [decl.body]
  | .initializer decl => [decl.body]
  | .type decl => decl.bodies
  | .enumConstant ⟨_, _, none, _⟩ => []
  | .enumConstant ⟨_, _, some body, _⟩ => body.bodies

end

/-- The bodies of an outline. -/
def Outline.bodies (o : Outline) : List Body := o.types.flatMap TypeDecl.bodies

mutual

/-- The type with its bodies replaced. -/
def TypeDecl.mapBodies (fill : Body → Body) : TypeDecl → TypeDecl
  | ⟨kind, name, modifiers, typeParameters, superclass, interfaces, members, span⟩ =>
      ⟨kind, name, modifiers, typeParameters, superclass, interfaces,
        Member.mapAllBodies fill members, span⟩

/-- The members with their bodies replaced. -/
def Member.mapAllBodies (fill : Body → Body) : List Member → List Member
  | [] => []
  | m :: ms => m.mapBodies fill :: Member.mapAllBodies fill ms

/-- The member with its bodies replaced. -/
def Member.mapBodies (fill : Body → Body) : Member → Member
  | .field decl => .field decl
  | .method decl => .method { decl with body := fill decl.body }
  | .initializer decl => .initializer { decl with body := fill decl.body }
  | .type decl => .type (decl.mapBodies fill)
  | .enumConstant ⟨name, arguments, none, span⟩ => .enumConstant ⟨name, arguments, none, span⟩
  | .enumConstant ⟨name, arguments, some body, span⟩ =>
      .enumConstant ⟨name, arguments, some (body.mapBodies fill), span⟩

end

/-- The outline with its bodies replaced. -/
def Outline.mapBodies (fill : Body → Body) (o : Outline) : Outline :=
  { o with types := o.types.map (TypeDecl.mapBodies fill) }

mutual

/-- A body waits in a type exactly if one of its bodies waits. -/
theorem TypeDecl.hasUnparsedBodies_eq :
    (t : TypeDecl) → t.hasUnparsedBodies = t.bodies.any Body.isUnparsed
  | ⟨_, _, _, _, _, _, members, _⟩ => by
      rw [TypeDecl.hasUnparsedBodies, TypeDecl.bodies, Member.anyUnparsed_eq members]

theorem Member.anyUnparsed_eq :
    (ms : List Member) → Member.anyUnparsed ms = (Member.allBodies ms).any Body.isUnparsed
  | [] => rfl
  | m :: ms => by
      rw [Member.anyUnparsed, Member.allBodies, List.any_append, Member.hasUnparsedBodies_eq m,
        Member.anyUnparsed_eq ms]

theorem Member.hasUnparsedBodies_eq :
    (m : Member) → m.hasUnparsedBodies = m.bodies.any Body.isUnparsed
  | .field _ => rfl
  | .method decl => by simp [Member.hasUnparsedBodies, Member.bodies]
  | .initializer decl => by simp [Member.hasUnparsedBodies, Member.bodies]
  | .type decl => by
      rw [Member.hasUnparsedBodies, Member.bodies, TypeDecl.hasUnparsedBodies_eq decl]
  | .enumConstant ⟨_, _, none, _⟩ => rfl
  | .enumConstant ⟨_, _, some body, _⟩ => by
      rw [Member.hasUnparsedBodies, Member.bodies, TypeDecl.hasUnparsedBodies_eq body]

end

/-- **A body waits in an outline exactly if one of its bodies waits.** -/
theorem Outline.hasUnparsedBodies_eq (o : Outline) :
    o.hasUnparsedBodies = o.bodies.any Body.isUnparsed := by
  rw [hasUnparsedBodies, bodies, List.any_flatMap]
  exact congrArg o.types.any (funext TypeDecl.hasUnparsedBodies_eq)

mutual

/-- The bodies of a type are those that were put there. -/
theorem TypeDecl.bodies_mapBodies (fill : Body → Body) :
    (t : TypeDecl) → (t.mapBodies fill).bodies = t.bodies.map fill
  | ⟨_, _, _, _, _, _, members, _⟩ => by
      rw [TypeDecl.mapBodies, TypeDecl.bodies, TypeDecl.bodies, Member.allBodies_mapAllBodies fill members]

theorem Member.allBodies_mapAllBodies (fill : Body → Body) :
    (ms : List Member) → Member.allBodies (Member.mapAllBodies fill ms) =
      (Member.allBodies ms).map fill
  | [] => rfl
  | m :: ms => by
      rw [Member.mapAllBodies, Member.allBodies, Member.allBodies, List.map_append,
        Member.bodies_mapBodies fill m, Member.allBodies_mapAllBodies fill ms]

theorem Member.bodies_mapBodies (fill : Body → Body) :
    (m : Member) → (m.mapBodies fill).bodies = m.bodies.map fill
  | .field _ => rfl
  | .method _ => rfl
  | .initializer _ => rfl
  | .type decl => by
      rw [Member.mapBodies, Member.bodies, Member.bodies, TypeDecl.bodies_mapBodies fill decl]
  | .enumConstant ⟨_, _, none, _⟩ => rfl
  | .enumConstant ⟨_, _, some body, _⟩ => by
      rw [Member.mapBodies, Member.bodies, Member.bodies, TypeDecl.bodies_mapBodies fill body]

end

/-- **The bodies of an outline are those that were put there.** -/
theorem Outline.bodies_mapBodies (fill : Body → Body) (o : Outline) :
    (o.mapBodies fill).bodies = o.bodies.map fill := by
  simp only [mapBodies, bodies, List.flatMap_map, List.map_flatMap, TypeDecl.bodies_mapBodies]

/-! ### Completing -/

mutual

/-- Completing a type replaces its bodies. -/
theorem TypeDecl.complete_eq (text : List Char) :
    (t : TypeDecl) → t.complete text =
      (t.mapBodies fun body => (body.complete text).1,
        t.bodies.flatMap fun body => (body.complete text).2)
  | ⟨_, _, _, _, _, _, members, _⟩ => by
      rw [TypeDecl.complete, TypeDecl.mapBodies, TypeDecl.bodies, Member.completeAll_mapBodies text members]

theorem Member.completeAll_mapBodies (text : List Char) :
    (ms : List Member) → Member.completeAll text ms =
      (Member.mapAllBodies (fun body => (body.complete text).1) ms,
        (Member.allBodies ms).flatMap fun body => (body.complete text).2)
  | [] => rfl
  | m :: ms => by
      rw [Member.completeAll, Member.mapAllBodies, Member.allBodies, List.flatMap_append,
        Member.complete_eq text m, Member.completeAll_mapBodies text ms]

theorem Member.complete_eq (text : List Char) :
    (m : Member) → m.complete text =
      (m.mapBodies fun body => (body.complete text).1,
        m.bodies.flatMap fun body => (body.complete text).2)
  | .field _ => rfl
  | .method decl => by
      simp only [Member.complete, Member.mapBodies, Member.bodies, List.flatMap_singleton]
  | .initializer decl => by
      simp only [Member.complete, Member.mapBodies, Member.bodies, List.flatMap_singleton]
  | .type decl => by
      rw [Member.complete, Member.mapBodies, Member.bodies, TypeDecl.complete_eq text decl]
  | .enumConstant ⟨_, _, none, _⟩ => rfl
  | .enumConstant ⟨_, _, some body, _⟩ => by
      rw [Member.complete, Member.mapBodies, Member.bodies, TypeDecl.complete_eq text body]

end

/-- **Completing an outline replaces its bodies**, and finds the errors that are in them. -/
theorem Outline.complete_eq (source : String) (o : Outline) :
    o.complete source =
      (o.mapBodies fun body => (body.complete source.toList).1,
        o.bodies.flatMap fun body => (body.complete source.toList).2) := by
  simp only [complete, mapBodies, bodies, List.map_map, List.flatMap_map, List.flatMap_assoc,
    Function.comp_def, TypeDecl.complete_eq]

/-! ### Where blocks lie -/

theorem Parser.State.start_spanFrom (s : State) (start : Position) : (s.spanFrom start).start = start := by
  unfold State.spanFrom
  split
  · rfl
  · split <;> rfl

/-- A block begins where the token ahead does. -/
theorem block_start {sub : Nested} {setting : Setting} {t : Token} {ts : List Token} {found : Block}
    {n : State} (hok : block sub setting { rest := t :: ts } = .ok found n) :
    found.span.start = t.span.start := by
  obtain ⟨opening, m, hopening, hok⟩ := bind_eq_ok.1 hok
  obtain ⟨statements, _, _, hok⟩ := bind_eq_ok.1 hok
  obtain ⟨_, _, _, hok⟩ := bind_eq_ok.1 hok
  obtain ⟨span, last, hspan, hok⟩ := bind_eq_ok.1 hok
  cases hspan
  obtain ⟨rfl, -⟩ := pure_eq_ok.1 hok
  have hopening : opening = t.span := by
    unfold expect at hopening
    split at hopening
    · rename_i ahead _ hrest
      obtain ⟨rfl, -⟩ := List.cons.inj hrest
      split at hopening
      · cases hopening
        rfl
      · cases hopening
    · cases hopening
  rw [hopening]
  exact State.start_spanFrom _ _

section

variable {source : String} {k l : Nat} {first last : Token}

/-- The tokens between two braces begin with the opening one. -/
theorem slice_eq_cons {tokens : List Token} (hkl : k ≤ l) (hfirst : tokens[k]? = some first) :
    ∃ ts, (tokens.drop k).take (l + 1 - k) = first :: ts := by
  obtain ⟨hlt, hget⟩ := List.getElem?_eq_some_iff.1 hfirst
  refine ⟨(tokens.drop (k + 1)).take (l - k), ?_⟩
  rw [List.drop_eq_getElem_cons hlt, hget, show l + 1 - k = l - k + 1 by omega, List.take_succ_cons]

/-- **A block that is read between braces begins at the opening one and ends between them**, whatever
stands there. -/
theorem Block.span_parse (hkl : k ≤ l) (hfirst : (Scan.ofText source).tokens[k]? = some first)
    (hlast : (Scan.ofText source).tokens[l]? = some last) (hbrace : last.is "\x7d" = true) :
    let found := (Block.parse source.toList ⟨first.span.start, last.span.stop⟩).1
    found.span.start = first.span.start ∧ first.span.start.offset < found.span.stop.offset ∧
      found.span.stop.offset ≤ last.span.stop.offset := by
  intro found
  have hordered : Token.Ordered (Scan.ofText source).tokens :=
    Scan.ordered_ofChars Position.start source.toList
  have hlie : Layout.Lie (Scan.ofText source).tokens k (l + 1) [found.layout] :=
    Block.lie_parse hkl hfirst hlast hbrace
  have hstart : found.span.start = first.span.start := by
    obtain ⟨ts, hts⟩ := slice_eq_cons hkl hfirst
    have htokens := (Scan.tokens_ofRange source hfirst hlast hkl hbrace).trans hts
    simp only [found, Block.parse, htokens]
    split
    next hok => exact block_start hok
    next => rfl
  have hstop : found.span.stop.offset ≤ last.span.stop.offset :=
    hlie.le_stop hordered hlast _ (List.mem_singleton.2 rfl)
  refine ⟨hstart, ?_, hstop⟩
  rw [← hstart]
  -- a node takes up a token at least
  generalize hlayout : [found.layout] = layouts at hlie
  cases hlie with
  | nil => cases hlayout
  | cons _ hkl' hfirst' hlast' _ _ _ =>
      obtain ⟨hnode, -⟩ := List.cons.inj hlayout
      have hspan : found.span = _ := (Layout.node.inj hnode).1
      rw [hspan]
      exact Nat.lt_of_lt_of_le (hordered.start_lt_stop hfirst')
        (hordered.stop_le_stop hkl' hfirst' hlast')

end

/-- The parts of a node lie where it does. -/
theorem Layout.Lie.parts {tokens : List Token} {i j : Nat} {span : Span} {waits : Bool}
    {parts : List Layout} (h : Layout.Lie tokens i j [.node span waits parts]) :
    Layout.Lie tokens i j parts := by
  simpa using h.flatten

/-- What lies among others lies on the tokens. -/
theorem Layout.Lie.of_mem {tokens : List Token} {i j : Nat} {layouts : List Layout} {layout : Layout}
    (h : Layout.Lie tokens i j layouts) (hmem : layout ∈ layouts) :
    ∃ i j, Layout.Lie tokens i j [layout] := by
  induction h with
  | nil => cases hmem
  | cons hi hkl hfirst hlast hwaits hparts _ _ ih =>
      rcases List.mem_cons.1 hmem with rfl | hlater
      · exact ⟨_, _, .cons hi hkl hfirst hlast hwaits hparts (.nil (Nat.le_refl _))⟩
      · exact ih hlater

section

variable {tokens : List Token} {body : Body}

mutual

/-- The bodies of a type lie on the tokens if the type does. -/
theorem TypeDecl.lie_of_mem_bodies : (t : TypeDecl) → {i j : Nat} →
    Layout.Lie tokens i j [t.layout] → body ∈ t.bodies → ∃ i j, Layout.Lie tokens i j body.layouts
  | ⟨_, _, _, _, _, _, members, _⟩, _, _, h, hbody => by
      rw [TypeDecl.layout] at h
      rw [TypeDecl.bodies] at hbody
      exact Member.lie_of_mem_allBodies members h.parts hbody

theorem Member.lie_of_mem_allBodies : (ms : List Member) → {i j : Nat} →
    Layout.Lie tokens i j (Member.layoutAll ms) → body ∈ Member.allBodies ms →
      ∃ i j, Layout.Lie tokens i j body.layouts
  | [], _, _, _, hbody => nomatch hbody
  | m :: ms, _, _, h, hbody => by
      rw [Member.layoutAll] at h
      obtain ⟨_, hfirst, hrest⟩ := h.of_cons
      rw [Member.allBodies, List.mem_append] at hbody
      rcases hbody with hbody | hbody
      · exact Member.lie_of_mem_bodies m hfirst hbody
      · exact Member.lie_of_mem_allBodies ms hrest hbody

theorem Member.lie_of_mem_bodies : (m : Member) → {i j : Nat} →
    Layout.Lie tokens i j [m.layout] → body ∈ m.bodies → ∃ i j, Layout.Lie tokens i j body.layouts
  | .field _, _, _, _, hbody => nomatch hbody
  | .method decl, _, _, h, hbody => by
      rw [Member.bodies, List.mem_singleton] at hbody
      rw [Member.layout, MethodDecl.layout, ← hbody] at h
      obtain ⟨_, -, hback⟩ := h.parts.of_append
      exact ⟨_, _, hback⟩
  | .initializer decl, _, _, h, hbody => by
      rw [Member.bodies, List.mem_singleton] at hbody
      rw [Member.layout, InitializerDecl.layout, ← hbody] at h
      exact ⟨_, _, h.parts⟩
  | .type decl, _, _, h, hbody => by
      rw [Member.layout] at h
      rw [Member.bodies] at hbody
      exact TypeDecl.lie_of_mem_bodies decl h hbody
  | .enumConstant ⟨_, _, none, _⟩, _, _, _, hbody => nomatch hbody
  | .enumConstant ⟨_, _, some nested, _⟩, _, _, h, hbody => by
      rw [Member.layout] at h
      rw [Member.bodies] at hbody
      obtain ⟨_, -, hback⟩ := h.parts.of_append
      exact TypeDecl.lie_of_mem_bodies nested hback hbody

end

end

/-! ### Filled bodies -/

/-- What a body becomes when it is completed from a text: a body that waits becomes the block that is
read at its span, which begins where the span does and ends inside it; the others stay. -/
inductive Body.FilledBy (text : List Char) : Body → Body → Prop
  | absent : FilledBy text .absent .absent
  | parsed (block : Block) : FilledBy text (.parsed block) (.parsed block)
  | unparsed {span : Span} {block : Block} (hblock : block = (Block.parse text span).1)
      (hstart : block.span.start = span.start)
      (hnonempty : span.start.offset < block.span.stop.offset)
      (hstop : block.span.stop.offset ≤ span.stop.offset) :
      FilledBy text (.unparsed span) (.parsed block)

/-- A body that lies on the tokens of a source is filled when it is completed. -/
theorem Body.filledBy_complete {source : String} {body : Body} {i j : Nat}
    (h : Layout.Lie (Scan.ofText source).tokens i j body.layouts) :
    body.FilledBy source.toList (body.complete source.toList).1 := by
  cases body with
  | absent => exact .absent
  | parsed block => exact .parsed block
  | unparsed span =>
      cases h with
      | cons _ hkl hfirst hlast hwaits _ _ =>
          obtain ⟨hstart, hnonempty, hstop⟩ := Block.span_parse hkl hfirst hlast (hwaits rfl).2
          exact .unparsed rfl hstart hnonempty hstop

/-- The bodies of an outline that was parsed lie on the tokens of its source. -/
theorem Outline.lie_of_mem_bodies (source : String) (diet : Bool) {body : Body}
    (hbody : body ∈ (parse source diet).outline.bodies) :
    ∃ i j, Layout.Lie (Scan.ofText source).tokens i j body.layouts := by
  have hordered : Token.Ordered (Scan.ofText source).tokens :=
    Scan.ordered_ofChars Position.start source.toList
  obtain ⟨o, n, hok, -, -, hlie⟩ :=
    compilationUnit_lie hordered ((Scan.ofText source).setting diet)
  have houtline : (parse source diet).outline = o := by
    simp only [parse, hok]
  rw [houtline] at hbody
  obtain ⟨t, ht, hbody⟩ := List.mem_flatMap.1 hbody
  obtain ⟨i, j, htype⟩ := hlie.of_mem (List.mem_append_right _ (List.mem_map_of_mem ht))
  exact TypeDecl.lie_of_mem_bodies t htype hbody

/-- **Completing fills the bodies that wait and changes nothing else.**  Whatever the source is, of the
outline that was parsed on a diet only the bodies are replaced: each one that waits by the block that
is read at its span, from where the span begins and not beyond its end, and each other one by itself.
No body waits afterwards, and completing again finds no errors and changes nothing. -/
theorem Outline.complete_fills_bodies (source : String) :
    let diet : Outline := (parse source true).outline
    let completed : Outline := (diet.complete source).1
    completed.hasUnparsedBodies = false ∧
    (∀ body ∈ completed.bodies, body.isUnparsed = false) ∧
    (∃ fill : Body → Body, completed = diet.mapBodies fill ∧ completed.bodies = diet.bodies.map fill ∧
      ∀ body ∈ diet.bodies, body.FilledBy source.toList (fill body)) ∧
    completed.complete source = (completed, []) := by
  intro diet completed
  have hwaits : completed.hasUnparsedBodies = false := diet.complete_hasUnparsedBodies source
  have hfilled : completed = diet.mapBodies fun body => (body.complete source.toList).1 :=
    congrArg Prod.fst (diet.complete_eq source)
  refine ⟨hwaits, ?_, ⟨_, hfilled, ?_, ?_⟩, diet.complete_complete source⟩
  · rw [hasUnparsedBodies_eq, List.any_eq_false] at hwaits
    intro body hbody
    simpa using hwaits body hbody
  · rw [hfilled, bodies_mapBodies]
  · intro body hbody
    obtain ⟨i, j, hlie⟩ := lie_of_mem_bodies source true hbody
    exact Body.filledBy_complete hlie

end JavaOutline
