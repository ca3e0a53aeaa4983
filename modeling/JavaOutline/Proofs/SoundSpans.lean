/-
**The spans of an outline are sound.**

The declarations of a unit lie one behind another on its tokens, and the nodes inside them lie inside;
so the spans of the outline are sound, whether the source is well formed or not.  A body that was passed
over lies between braces.  The tokens between them are found again when it is scanned by itself, so
what is read there lies in the body's place, and an outline that is completed is sound as well.

Main results:

* `Layout.Lie.of_slice` — what lies on a slice of tokens lies on the tokens;
* `Outline.layout_sound` — a unit is sound if its declarations lie on the tokens that were passed;
* `TypeDecl.lie_complete` — **a completed type lies where the type does**;
* `Outline.spans_sound` — **all spans of an outline are sound**, in full, on a diet and completed.
-/

import JavaOutline.Proofs.NestedSpans
import JavaOutline.Proofs.SlicedScan

set_option autoImplicit false

namespace JavaOutline

open JavaOutline.Parser

/-! ### Slices of tokens -/

/-- What lies on a slice of tokens lies on the tokens. -/
theorem Layout.Lie.of_slice {tokens : List Token} {k count i j : Nat} {layouts : List Layout}
    (h : Layout.Lie ((tokens.drop k).take count) i j layouts) :
    Layout.Lie tokens (k + i) (k + j) layouts := by
  have hshift {m : Nat} {t : Token} (ht : ((tokens.drop k).take count)[m]? = some t) :
      tokens[k + m]? = some t := by
    rw [List.getElem?_take] at ht
    split at ht
    · rwa [List.getElem?_drop] at ht
    · cases ht
  induction h with
  | nil h => exact .nil (by omega)
  | cons hi hkl hfirst hlast hwaits _ _ ihparts ihrest =>
      exact .cons (by omega) (by omega) (hshift hfirst) (hshift hlast) hwaits ihparts ihrest

theorem Token.Ordered.sublist {tokens part : List Token} (h : Token.Ordered tokens)
    (hpart : part.Sublist tokens) : Token.Ordered part where
  nonempty t ht := h.nonempty t (hpart.subset ht)
  apart := h.apart.sublist hpart

/-! ### Completed bodies -/

section

variable {source : String} {i j : Nat}

/-- A block that is parsed from its braces lies between them. -/
theorem Block.lie_parse {k l : Nat} {first last : Token} (hkl : k ≤ l)
    (hfirst : (Scan.ofText source).tokens[k]? = some first)
    (hlast : (Scan.ofText source).tokens[l]? = some last) (hbrace : last.is "\x7d" = true) :
    Layout.Lie (Scan.ofText source).tokens k (l + 1)
      [(Block.parse source.toList ⟨first.span.start, last.span.stop⟩).1.layout] := by
  have htokens := Scan.tokens_ofRange source hfirst hlast hkl hbrace
  unfold Block.parse
  simp only [htokens]
  generalize (Scan.ofRange source.toList first.span.start last.span.stop.offset).setting false =
    setting
  split
  next found s hok =>
    have hordered : Token.Ordered (((Scan.ofText source).tokens.drop k).take (l + 1 - k)) :=
      (Scan.ordered_ofChars Position.start source.toList).sublist
        ((List.take_sublist _ _).trans (List.drop_sublist _ _))
    have : outermost.Advances := nestedAt_advances maxNesting
    have hs : s.OnWay (((Scan.ofText source).tokens.drop k).take (l + 1 - k)) :=
      (Moves.of_ok hok).reaches
    have hlie := (block_lays (nestedAt_lays _ maxNesting) hordered (State.Reaches.refl _) hok).of_slice
    have hindex := hs.index_le
    rw [List.length_take] at hindex
    exact hlie.mono (Nat.le_refl _) (by omega)
  next =>
    exact .cons (Nat.le_refl _) hkl hfirst hlast nofun (.nil (by omega)) (.nil (Nat.le_refl _))

/-- A completed body lies where the body does. -/
theorem Body.lie_complete {b : Body} (h : Layout.Lie (Scan.ofText source).tokens i j b.layouts) :
    Layout.Lie (Scan.ofText source).tokens i j (b.complete source.toList).1.layouts := by
  cases b with
  | absent => exact h
  | parsed block => exact h
  | unparsed span =>
      cases h with
      | cons hi hkl hfirst hlast hwaits _ hrest =>
          exact (Block.lie_parse hkl hfirst hlast (hwaits rfl).2).mono hi hrest.le

/-- A node keeps its place if its parts are completed in theirs. -/
theorem Layout.Lie.replace {tokens : List Token} {span : Span} {parts other : List Layout}
    (hparts : ∀ {i j}, Layout.Lie tokens i j parts → Layout.Lie tokens i j other)
    (h : Layout.Lie tokens i j [.node span false parts]) :
    Layout.Lie tokens i j [.node span false other] := by
  cases h with
  | cons hi hkl hfirst hlast hwaits hinside hrest =>
      exact .cons hi hkl hfirst hlast hwaits (hparts hinside) hrest

/-- Some layouts stay and those behind them are completed in their places. -/
theorem Layout.Lie.replaceBack {tokens : List Token} {front back other : List Layout}
    (hback : ∀ {i j}, Layout.Lie tokens i j back → Layout.Lie tokens i j other)
    (h : Layout.Lie tokens i j (front ++ back)) : Layout.Lie tokens i j (front ++ other) := by
  obtain ⟨k, hfront, hrest⟩ := h.of_append
  exact hfront.append (hback hrest)

mutual

/-- **A completed type lies where the type does.** -/
theorem TypeDecl.lie_complete : (t : TypeDecl) → {i j : Nat} →
    Layout.Lie (Scan.ofText source).tokens i j [t.layout] →
    Layout.Lie (Scan.ofText source).tokens i j [(t.complete source.toList).1.layout]
  | ⟨_, _, _, _, _, _, members, _⟩, _, _, h => by
      rw [TypeDecl.layout] at h
      rw [TypeDecl.complete, TypeDecl.layout]
      exact h.replace (Member.lie_completeAll members)

/-- Completed members lie where the members do. -/
theorem Member.lie_completeAll : (ms : List Member) → {i j : Nat} →
    Layout.Lie (Scan.ofText source).tokens i j (Member.layoutAll ms) →
    Layout.Lie (Scan.ofText source).tokens i j
      (Member.layoutAll (Member.completeAll source.toList ms).1)
  | [], _, _, h => h
  | m :: ms, _, _, h => by
      rw [Member.layoutAll] at h
      rw [Member.completeAll, Member.layoutAll]
      obtain ⟨k, hfirst, hrest⟩ := h.of_cons
      exact (Member.lie_complete m hfirst).append (Member.lie_completeAll ms hrest)

/-- A completed member lies where the member does. -/
theorem Member.lie_complete : (m : Member) → {i j : Nat} →
    Layout.Lie (Scan.ofText source).tokens i j [m.layout] →
    Layout.Lie (Scan.ofText source).tokens i j [(m.complete source.toList).1.layout]
  | .field _, _, _, h => h
  | .method decl, _, _, h => by
      simp only [Member.layout, MethodDecl.layout, Member.complete] at h ⊢
      exact h.replace (Layout.Lie.replaceBack Body.lie_complete)
  | .initializer decl, _, _, h => by
      simp only [Member.layout, InitializerDecl.layout, Member.complete] at h ⊢
      exact h.replace Body.lie_complete
  | .type decl, _, _, h => by
      rw [Member.layout] at h
      rw [Member.complete, Member.layout]
      exact TypeDecl.lie_complete decl h
  | .enumConstant ⟨_, _, none, _⟩, _, _, h => h
  | .enumConstant ⟨_, _, some body, _⟩, _, _, h => by
      rw [Member.layout] at h
      rw [Member.complete, Member.layout]
      exact h.replace (Layout.Lie.replaceBack (TypeDecl.lie_complete body))

end

/-- The declarations of a completed unit lie where those of the unit do. -/
theorem Outline.lie_complete (o : Outline)
    (h : Layout.Lie (Scan.ofText source).tokens i j o.parts) :
    Layout.Lie (Scan.ofText source).tokens i j (o.complete source).1.parts := by
  refine Layout.Lie.replaceBack (fun {i j} htypes => ?_) h
  simp only [Outline.complete, List.map_map]
  generalize o.types = types at htypes ⊢
  induction types generalizing i with
  | nil => exact htypes
  | cons t types ih =>
      obtain ⟨k, hfirst, hrest⟩ := htypes.of_cons
      exact (TypeDecl.lie_complete t hfirst).append (ih hrest)

end

/-! ### Whole units -/

/-- A unit is sound if its declarations lie on the tokens that were passed. -/
theorem Outline.layout_sound {scan : Scan} (hordered : Token.Ordered scan.tokens) {diet : Bool}
    {o : Outline} {n : State} (hn : n.OnWay scan.tokens)
    (hspan : o.span = n.spanFrom ((scan.setting diet).here { rest := scan.tokens }))
    (hlie : Layout.Lie scan.tokens 0 n.index o.parts) : o.layout.Sound scan := by
  rw [Outline.layout, hspan]
  cases hindex : n.index with
  | zero =>
      -- No token was passed, so there are no declarations and the span is empty.
      rw [hindex] at hlie
      have hparts : o.parts = [] := by
        generalize o.parts = parts at hlie
        cases hlie with
        | nil => rfl
        | cons _ _ _ _ _ _ hrest => exact absurd hrest.le (by omega)
      have hboundary : scan.Boundary ((scan.setting diet).here { rest := scan.tokens }) := by
        cases htokens : scan.tokens with
        | nil => exact .inl rfl
        | cons t ts => exact .inr ⟨t, htokens ▸ List.mem_cons_self, .inl rfl⟩
      rw [hparts, State.spanFrom, hn.last_eq_none hindex]
      exact .node (Nat.le_refl _) hboundary hboundary (by simp) .nil (by simp)
  | succ l =>
      have hstart : StartsAt scan.tokens 0 ((scan.setting diet).here { rest := scan.tokens }) := by
        intro t ht
        obtain ⟨ts, hts⟩ := List.head?_eq_some_iff.1 (List.head?_eq_getElem? ▸ ht)
        rw [hts]
        rfl
      have hwhole := hn.wrap hordered (by omega) hstart hlie
      exact hwhole.sound hordered _ (List.mem_singleton.2 rfl)

/-- **All spans of an outline are sound**, whatever the source is: every span starts no later than it
ends, on boundaries of tokens, inside the span around it and apart from those beside it.  So it is for
the full outline, for the one on a diet, and for that one when it is completed. -/
theorem Outline.spans_sound (source : String) :
    (∀ diet, (Outline.parse source diet).outline.layout.Sound (Scan.ofText source)) ∧
      ((Outline.parse source true).outline.complete source).1.layout.Sound (Scan.ofText source) := by
  have hordered := Scan.ordered_ofChars Position.start source.toList
  have hread (diet : Bool) := compilationUnit_lie hordered ((Scan.ofText source).setting diet)
  have houtline {diet : Bool} {o : Outline} {n : State}
      (hok : compilationUnit ((Scan.ofText source).setting diet)
        { rest := (Scan.ofText source).tokens } = .ok o n) :
      (Outline.parse source diet).outline = o := by
    simp only [Outline.parse, hok]
  constructor
  · intro diet
    obtain ⟨o, n, hok, hn, hspan, hlie⟩ := hread diet
    rw [houtline hok]
    exact Outline.layout_sound hordered hn hspan hlie
  · obtain ⟨o, n, hok, hn, hspan, hlie⟩ := hread true
    rw [houtline hok]
    exact Outline.layout_sound (o := (o.complete source).1) hordered hn hspan (o.lie_complete hlie)

end JavaOutline
