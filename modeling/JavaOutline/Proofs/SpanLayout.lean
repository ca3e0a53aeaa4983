/-
**How spans nest.**

Every node of an outline has a span, and the nodes inside it have theirs.  Here an outline is reduced
to these: a layout is a span with the layouts of the parts, in the order in which they are written.  A
layout is sound if every span begins and ends where tokens do, covers the spans of its parts, and
leaves the parts apart from each other.  Layouts are sound if they lie on slices of the tokens: each
node on a slice of its own, and its parts on slices of that.

Main definitions:

* `Layout`, `Outline.layout` — the spans of an outline;
* `Scan.Boundary` — the places where tokens begin and end;
* `Layout.Sound` — spans are ordered, on boundaries, inside the span around them and apart;
* `Layout.Lie` — layouts lie one behind another between two places among tokens.

Main results:

* `Layout.Lie.append`, `Layout.Lie.flatten`, `Layout.Lie.wrap` — putting layouts together;
* `Layout.Lie.sound` — **layouts that lie on ordered tokens are sound**.
-/

import JavaOutline.Outline.Deferred
import JavaOutline.Proofs.TokenOrder

set_option autoImplicit false

namespace JavaOutline

/-! ### Layouts -/

/-- The span of a node, whether the node is a body that waits to be parsed, and the layouts of its
parts in the order of the source. -/
inductive Layout where
  | node (span : Span) (waits : Bool) (parts : List Layout)

/-- The span of the node. -/
def Layout.span : Layout → Span
  | .node span _ _ => span

def Expression.layout (e : Expression) : Layout := .node e.span false []

mutual

/-- The layout of a statement.  The condition of a loop with `do` is written behind its body, other
expressions in front of the statements inside. -/
def Statement.layout : Statement → Layout
  | ⟨kind, _, expressions, children, span⟩ =>
      .node span false
        (if kind = .doLoop then Statement.layoutAll children ++ expressions.map Expression.layout
        else expressions.map Expression.layout ++ Statement.layoutAll children)

/-- The layouts of statements. -/
def Statement.layoutAll : List Statement → List Layout
  | [] => []
  | s :: ss => s.layout :: Statement.layoutAll ss

end

def Block.layout (b : Block) : Layout := .node b.span false (Statement.layoutAll b.statements)

/-- The layout of a body, if there is one. -/
def Body.layouts : Body → List Layout
  | .absent => []
  | .unparsed span => [.node span true []]
  | .parsed block => [block.layout]

def VariableDecl.layout (v : VariableDecl) : Layout :=
  .node v.span false (v.initializer.toList.map Expression.layout)

def FieldDecl.layout (f : FieldDecl) : Layout :=
  .node f.span false (f.declarators.map VariableDecl.layout)

def Parameter.layout (p : Parameter) : Layout := .node p.span false []

def MethodDecl.layout (m : MethodDecl) : Layout :=
  .node m.span false (m.parameters.map Parameter.layout ++ m.body.layouts)

def InitializerDecl.layout (i : InitializerDecl) : Layout := .node i.span false i.body.layouts

mutual

/-- The layout of a type. -/
def TypeDecl.layout : TypeDecl → Layout
  | ⟨_, _, _, _, _, _, members, span⟩ => .node span false (Member.layoutAll members)

/-- The layouts of members. -/
def Member.layoutAll : List Member → List Layout
  | [] => []
  | m :: ms => m.layout :: Member.layoutAll ms

/-- The layout of a member. -/
def Member.layout : Member → Layout
  | .field decl => decl.layout
  | .method decl => decl.layout
  | .initializer decl => decl.layout
  | .type decl => decl.layout
  | .enumConstant ⟨_, arguments, none, span⟩ => .node span false (arguments.map Expression.layout)
  | .enumConstant ⟨_, arguments, some body, span⟩ =>
      .node span false (arguments.map Expression.layout ++ [body.layout])

end

def PackageDecl.layout (p : PackageDecl) : Layout := .node p.span false []

def ImportDecl.layout (i : ImportDecl) : Layout := .node i.span false []

/-- The layouts of the declarations of a unit. -/
def Outline.parts (o : Outline) : List Layout :=
  o.package.toList.map PackageDecl.layout ++ o.imports.map ImportDecl.layout ++
    o.types.map TypeDecl.layout

/-- The layout of a unit. -/
def Outline.layout (o : Outline) : Layout := .node o.span false o.parts

theorem Statement.layoutAll_eq (ss : List Statement) :
    Statement.layoutAll ss = ss.map Statement.layout := by
  induction ss with
  | nil => rfl
  | cons s ss ih => rw [Statement.layoutAll, ih, List.map_cons]

theorem Member.layoutAll_eq (ms : List Member) :
    Member.layoutAll ms = ms.map Member.layout := by
  induction ms with
  | nil => rfl
  | cons m ms ih => rw [Member.layoutAll, ih, List.map_cons]

/-! ### Sound layouts -/

/-- A place where a token begins or ends.  At the end of the text an empty token is thought. -/
def Scan.Boundary (scan : Scan) (place : Position) : Prop :=
  place = scan.finish ∨ ∃ t ∈ scan.tokens, place = t.span.start ∨ place = t.span.stop

/-- A span lies inside another one. -/
def Span.Inside (inner outer : Span) : Prop :=
  outer.start.offset ≤ inner.start.offset ∧ inner.stop.offset ≤ outer.stop.offset

/-- A span ends before another one begins. -/
def Span.Before (first second : Span) : Prop := first.stop.offset ≤ second.start.offset

/-- Every span starts no later than it ends, on boundaries of tokens; the spans of the parts lie
inside it, one behind another; and the parts are sound. -/
inductive Layout.Sound (scan : Scan) : Layout → Prop
  | node {span : Span} {waits : Bool} {parts : List Layout}
      (ordered : span.start.offset ≤ span.stop.offset)
      (start : scan.Boundary span.start) (stop : scan.Boundary span.stop)
      (inside : ∀ part ∈ parts, part.span.Inside span)
      (apart : parts.Pairwise fun first second => first.span.Before second.span)
      (sound : ∀ part ∈ parts, part.Sound scan) : Layout.Sound scan (.node span waits parts)

/-! ### Layouts on tokens -/

namespace Layout

/-- Layouts lie one behind another between two places among tokens: each node begins where a token
does and ends where the same or a later one does, and its parts lie between these.  A body that waits
lies between braces. -/
inductive Lie (tokens : List Token) : Nat → Nat → List Layout → Prop
  | nil {i j : Nat} (h : i ≤ j) : Lie tokens i j []
  | cons {i j k l : Nat} {first last : Token} {waits : Bool} {parts rest : List Layout}
      (hi : i ≤ k) (hkl : k ≤ l) (hfirst : tokens[k]? = some first) (hlast : tokens[l]? = some last)
      (hwaits : waits = true → first.is "\x7b" = true ∧ last.is "\x7d" = true)
      (hparts : Lie tokens k (l + 1) parts) (hrest : Lie tokens (l + 1) j rest) :
      Lie tokens i j (.node ⟨first.span.start, last.span.stop⟩ waits parts :: rest)

namespace Lie

variable {tokens : List Token} {i j k l : Nat} {front back parts rest : List Layout}

theorem le (h : Lie tokens i j front) : i ≤ j := by
  induction h with
  | nil h => exact h
  | cons hi hkl _ _ _ _ _ _ ih => omega

/-- The places may lie further apart. -/
theorem mono (h : Lie tokens k l front) (hi : i ≤ k) (hj : l ≤ j) : Lie tokens i j front := by
  induction h generalizing i with
  | nil h => exact .nil (by omega)
  | cons hi' hkl hfirst hlast hwaits hparts hrest _ ih =>
      exact .cons (Nat.le_trans hi hi') hkl hfirst hlast hwaits hparts (ih (Nat.le_refl _) hj)

/-- Layouts up to a place and layouts from there on. -/
theorem append (h : Lie tokens i k front) (h' : Lie tokens k j back) :
    Lie tokens i j (front ++ back) := by
  induction h with
  | nil h => exact h'.mono h (Nat.le_refl _)
  | cons hi hkl hfirst hlast hwaits hparts _ _ ih =>
      exact .cons hi hkl hfirst hlast hwaits hparts (ih h')

/-- Where layouts lie one behind another, there is a place between some of them and the others. -/
theorem of_append (h : Lie tokens i j (front ++ back)) :
    ∃ k, Lie tokens i k front ∧ Lie tokens k j back := by
  induction front generalizing i with
  | nil => exact ⟨i, .nil (Nat.le_refl _), h⟩
  | cons layout front ih =>
      cases h with
      | cons hi hkl hfirst hlast hwaits hparts hrest =>
          obtain ⟨m, hfront, hback⟩ := ih hrest
          exact ⟨m, .cons hi hkl hfirst hlast hwaits hparts hfront, hback⟩

/-- There is a place between the first layout and the others. -/
theorem of_cons {layout : Layout} (h : Lie tokens i j (layout :: rest)) :
    ∃ k, Lie tokens i k [layout] ∧ Lie tokens k j rest := by
  rw [← List.singleton_append] at h
  exact h.of_append

/-- The parts of a node lie where the node does. -/
theorem flatten {span : Span} {waits : Bool} (h : Lie tokens i j (.node span waits parts :: rest)) :
    Lie tokens i j (parts ++ rest) := by
  cases h with
  | cons hi hkl hfirst hlast hwaits hparts hrest =>
      exact (hparts.mono hi (Nat.le_refl _)).append hrest

/-- A node lies where it does whatever is known of its parts. -/
theorem bare {span : Span} (h : Lie tokens i j [.node span false parts]) :
    Lie tokens i j [.node span false []] := by
  cases h with
  | cons hi hkl hfirst hlast hwaits hparts hrest =>
      exact .cons hi hkl hfirst hlast hwaits (.nil hparts.le) hrest

/-- A node around layouts that lie between two places. -/
theorem wrap {first last : Token} (h : Lie tokens i (l + 1) parts) (hil : i ≤ l)
    (hfirst : tokens[i]? = some first) (hlast : tokens[l]? = some last) :
    Lie tokens i (l + 1) [.node ⟨first.span.start, last.span.stop⟩ false parts] :=
  .cons (Nat.le_refl _) hil hfirst hlast nofun h (.nil (Nat.le_refl _))

end Lie

end Layout

/-! ### Layouts on ordered tokens -/

namespace Token.Ordered

variable {tokens : List Token} {i j : Nat} {t u : Token}

theorem stop_le_start_of_lt (h : Token.Ordered tokens) (hij : i < j) (ht : tokens[i]? = some t)
    (hu : tokens[j]? = some u) : t.span.stop.offset ≤ u.span.start.offset := by
  obtain ⟨hi, rfl⟩ := List.getElem?_eq_some_iff.1 ht
  obtain ⟨hj, rfl⟩ := List.getElem?_eq_some_iff.1 hu
  exact List.pairwise_iff_getElem.1 h.apart i j hi hj hij

theorem start_lt_stop (h : Token.Ordered tokens) (ht : tokens[i]? = some t) :
    t.span.start.offset < t.span.stop.offset := h.nonempty t (List.mem_of_getElem? ht)

theorem start_le_start (h : Token.Ordered tokens) (hij : i ≤ j) (ht : tokens[i]? = some t)
    (hu : tokens[j]? = some u) : t.span.start.offset ≤ u.span.start.offset := by
  rcases Nat.lt_or_eq_of_le hij with hlt | rfl
  · have hbetween := h.stop_le_start_of_lt hlt ht hu
    have hown := h.start_lt_stop ht
    omega
  · cases ht.symm.trans hu
    exact Nat.le_refl _

theorem stop_le_stop (h : Token.Ordered tokens) (hij : i ≤ j) (ht : tokens[i]? = some t)
    (hu : tokens[j]? = some u) : t.span.stop.offset ≤ u.span.stop.offset := by
  rcases Nat.lt_or_eq_of_le hij with hlt | rfl
  · have hbetween := h.stop_le_start_of_lt hlt ht hu
    have hown := h.start_lt_stop hu
    omega
  · cases ht.symm.trans hu
    exact Nat.le_refl _

end Token.Ordered

namespace Layout.Lie

variable {tokens : List Token} {i j : Nat} {layouts : List Layout}

/-- What lies from a place on does not begin before the token there. -/
theorem start_le (hordered : Token.Ordered tokens) (h : Lie tokens i j layouts) {t : Token}
    (ht : tokens[i]? = some t) : ∀ part ∈ layouts, t.span.start.offset ≤ part.span.start.offset := by
  induction h generalizing t with
  | nil => nofun
  | @cons i j k l first last waits parts rest hi hkl hfirst hlast _ _ hrest _ ih =>
      intro part hpart
      have hstart := hordered.start_le_start hi ht hfirst
      rcases List.mem_cons.1 hpart with rfl | hlater
      · exact hstart
      · -- If there is a later node, there is a token where the one in front of it ends.
        have hnext : ∃ u, tokens[l + 1]? = some u := by
          cases hrest with
          | nil => cases hlater
          | @cons _ _ k' _ first' _ _ _ _ hi' _ hfirst' _ _ _ _ =>
              have hlt := (List.getElem?_eq_some_iff.1 hfirst').1
              exact ⟨_, List.getElem?_eq_getElem (Nat.lt_of_le_of_lt hi' hlt)⟩
        obtain ⟨u, hu⟩ := hnext
        exact Nat.le_trans (hordered.start_le_start (by omega) ht hu) (ih hu part hlater)

/-- What lies up to a place does not end behind the token in front of it. -/
theorem le_stop (hordered : Token.Ordered tokens) (h : Lie tokens i (j + 1) layouts) {t : Token}
    (ht : tokens[j]? = some t) : ∀ part ∈ layouts, part.span.stop.offset ≤ t.span.stop.offset := by
  generalize hstop : j + 1 = stop at h
  induction h with
  | nil => nofun
  | @cons i _ k l first last waits parts rest hi hkl hfirst hlast _ _ hrest _ ih =>
      intro part hpart
      rcases List.mem_cons.1 hpart with rfl | hlater
      · have hle := hrest.le
        exact hordered.stop_le_stop (by omega) hlast ht
      · exact ih hstop part hlater

/-- Layouts that lie one behind another are apart. -/
theorem apart (hordered : Token.Ordered tokens) (h : Lie tokens i j layouts) :
    layouts.Pairwise fun first second => first.span.Before second.span := by
  induction h with
  | nil => exact List.Pairwise.nil
  | @cons i j k l first last waits parts rest hi hkl hfirst hlast _ _ hrest _ ih =>
      refine List.Pairwise.cons ?_ ih
      intro part hpart
      cases hrest with
      | nil => cases hpart
      | @cons _ _ k' l' first' last' _ _ _ hi' hkl' hfirst' hlast' hwaits' hparts' hrest' =>
          have hbehind : Lie tokens k' j _ :=
            .cons (Nat.le_refl _) hkl' hfirst' hlast' hwaits' hparts' hrest'
          exact Nat.le_trans (hordered.stop_le_start_of_lt hi' hlast hfirst')
            (hbehind.start_le hordered hfirst' part hpart)

/-- **Layouts that lie on ordered tokens are sound.** -/
theorem sound {scan : Scan} (hordered : Token.Ordered scan.tokens)
    (h : Lie scan.tokens i j layouts) : ∀ layout ∈ layouts, layout.Sound scan := by
  induction h with
  | nil => nofun
  | @cons i j k l first last waits parts rest hi hkl hfirst hlast _ hparts _ ihparts ihrest =>
      intro layout hlayout
      rcases List.mem_cons.1 hlayout with rfl | hlater
      · refine .node ?_ ?_ ?_ ?_ (hparts.apart hordered) ihparts
        · exact Nat.le_trans (Nat.le_of_lt (hordered.start_lt_stop hfirst))
            (hordered.stop_le_stop hkl hfirst hlast)
        · exact .inr ⟨first, List.mem_of_getElem? hfirst, .inl rfl⟩
        · exact .inr ⟨last, List.mem_of_getElem? hlast, .inr rfl⟩
        · exact fun part hpart => ⟨hparts.start_le hordered hfirst part hpart,
            hparts.le_stop hordered hlast part hpart⟩
      · exact ihrest layout hlater

end Layout.Lie

end JavaOutline
