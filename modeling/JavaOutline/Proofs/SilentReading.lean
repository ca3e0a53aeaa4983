/-
**Reading words without an error.**

What a parser does depends on the sorts and texts of the tokens ahead, and their places only show up
in the places of what it answers.  So the tokens ahead are looked at without their places, and a
parser reads from one such view to another one: it answers, reports nothing, and what it answers is
what was meant.  There is one rule for each way of putting parsers together, and from the rules
follows what phrases read.

Main definitions:

* `Parser.State.Shows` — a state in which nothing has been reported, with the tokens ahead;
* `Parser.Reads` — a parser reads from one view to another one;
* `Parser.Repeats` — so does a repetition, with any number of turns that is large enough;
* `Avoids` — none of some keywords and operators is ahead;
* `EndsModifiers` — what may follow modifiers.

Main results:

* `Parser.Reads.bind` — **one parser after another**;
* `Parser.Repeats.items` — **a repetition reads one item after another**;
* `modifiers_reads`, `typeReference_reads`, `typeList_reads`, `qualifiedName_reads` — phrases.
-/

import JavaOutline.Proofs.OutlineSketch
import JavaOutline.Proofs.Reading

set_option autoImplicit false

namespace JavaOutline

open JavaOutline.Parser

/-! ### Questions to words -/

namespace Token

@[simp] theorem keyword_is (word text : String) : (keyword word).is text = (word == text) := by
  simp [is, keyword]

@[simp] theorem operator_is (word text : String) : (operator word).is text = (word == text) := by
  simp [is, operator]

@[simp] theorem identifier_is (word text : String) : (identifier word).is text = false := by
  simp [is, identifier]

@[simp] theorem keyword_isName (word text : String) : (keyword word).isName text = false := by
  simp [isName, isIdentifier, keyword]

@[simp] theorem identifier_isName (word text : String) :
    (identifier word).isName text = (word == text) := by
  simp [isName, isIdentifier, identifier]

end Token

namespace Parser

variable {α β : Type} {setting : Setting} {depth : Nat}

/-! ### What a state shows -/

/-- A state at a level of nesting in which nothing has been reported, and the tokens ahead of it
without their places. -/
structure State.Shows (setting : Setting) (depth : Nat) (view : List Token) (s : State) : Prop where
  silent : s.errors = #[]
  depth : s.depth = depth
  index : s.index + s.rest.length = setting.total
  view : s.rest.map Token.bare = view

namespace State.Shows

variable {s : State} {t u : Token} {view : List Token}

theorem isEmpty (h : s.Shows setting depth view) : s.rest.isEmpty = view.isEmpty := by
  rw [← h.view, List.isEmpty_map]

theorem sees (h : s.Shows setting depth view) (text : String) :
    s.sees text = view.head?.any (·.is text) := by
  rw [← h.view, List.head?_map, Option.any_map]
  rfl

theorem seesSecond (h : s.Shows setting depth view) (text : String) :
    s.seesSecond text = view[1]?.any (·.is text) := by
  rw [← h.view, List.getElem?_map, Option.any_map]
  rfl

theorem seesName (h : s.Shows setting depth view) (name : String) :
    s.seesName name = view.head?.any (·.isName name) := by
  rw [← h.view, List.head?_map, Option.any_map]
  rfl

theorem seesIdentifierSecond (h : s.Shows setting depth view) :
    s.seesIdentifierSecond = view[1]?.any Token.isIdentifier := by
  rw [← h.view, List.getElem?_map, Option.any_map]
  rfl

theorem modifier? (h : s.Shows setting depth view) :
    s.modifier? = ({ rest := view } : State).modifier? := by
  have hsecond := h.seesSecond
  have hview := h.view
  unfold State.modifier?
  cases hrest : s.rest with
  | nil =>
      rw [hrest] at hview
      subst hview
      rfl
  | cons t rest =>
      rw [hrest] at hview
      subst hview
      simp only [hsecond]
      rfl

theorem sealedLength? (h : s.Shows setting depth view) :
    s.sealedLength? = ({ rest := view } : State).sealedLength? := by
  rw [← h.view]
  unfold State.sealedLength?
  match s.rest with
  | [] => rfl
  | [_] => rfl
  | [_, _] => rfl
  | _ :: _ :: _ :: _ => rfl

theorem seesAnnotations (h : s.Shows setting depth view) :
    s.seesAnnotation = State.seesAnnotation { rest := view } := by
  rw [ State.seesAnnotation, h.sees, h.seesSecond]
  rfl

theorem seesTypeDecl (h : s.Shows setting depth view) :
    s.seesTypeDecl = ({ rest := view } : State).seesTypeDecl := by
  simp only [State.seesTypeDecl, State.seesPair, h.sees, h.seesSecond, h.seesName,
    h.seesIdentifierSecond]
  rfl

/-- The token ahead, and what is shown behind it. -/
theorem cons (h : s.Shows setting depth (t :: view)) :
    ∃ t' rest, s.rest = t' :: rest ∧ t'.bare = t ∧ s.advance.Shows setting depth view := by
  obtain ⟨t', rest, hrest, rfl, hview⟩ := List.map_eq_cons_iff.1 h.view
  refine ⟨t', rest, hrest, rfl, ?_⟩
  have hindex := h.index
  have hadvance : s.advance = { s with index := s.index + 1, last := some t', rest := rest } := by
    rw [State.advance, hrest]
  rw [hrest, List.length_cons] at hindex
  rw [hadvance]
  exact ⟨h.silent, h.depth, by simp only; omega, hview⟩

end State.Shows

/-! ### Reading from one view to another -/

/-- A parser that, wherever the first view is ahead, answers with something good, has the second view
ahead then, and reports nothing. -/
def Reads (setting : Setting) (depth : Nat) (p : Parser α) (before after : List Token)
    (good : α → Prop) : Prop :=
  ∀ s : State, s.Shows setting depth before →
    ∃ a next, p setting s = .ok a next ∧ next.Shows setting depth after ∧ good a

variable {p : Parser α} {f : α → Parser β} {good good' : α → Prop} {goodNext : β → Prop}
  {before middle after view : List Token} {t u : Token} {text : String}

theorem Reads.mono (h : Reads setting depth p before after good) (hgood : ∀ a, good a → good' a) :
    Reads setting depth p before after good' := by
  intro s hs
  obtain ⟨a, next, hok, hnext, ha⟩ := h s hs
  exact ⟨a, next, hok, hnext, hgood a ha⟩

theorem Reads.pure {a : α} (ha : good a) :
    Reads setting depth (Pure.pure a : Parser α) view view good :=
  fun s hs => ⟨a, s, rfl, hs, ha⟩

/-- **One parser after another.** -/
theorem Reads.bind (hp : Reads setting depth p before middle good)
    (hf : ∀ a, good a → Reads setting depth (f a) middle after goodNext) :
    Reads setting depth (p >>= f) before after goodNext := by
  intro s hs
  obtain ⟨a, next, hok, hnext, ha⟩ := hp s hs
  rw [bind_of_ok hok]
  exact hf a ha next hnext

/-- One parser of which the answer is known, after another. -/
theorem Reads.bind_eq {a : α} (hp : Reads setting depth p before middle (· = a))
    (hf : Reads setting depth (f a) middle after goodNext) :
    Reads setting depth (p >>= f) before after goodNext :=
  hp.bind fun b hb => by
    subst hb
    exact hf

/-! ### Single tokens -/

theorem state_reads : Reads setting depth state view view (·.Shows setting depth view) :=
  fun s hs => ⟨s, s, rfl, hs, hs⟩

theorem here_reads : Reads setting depth here view view fun _ => True :=
  fun s hs => ⟨_, s, rfl, hs, trivial⟩

theorem isDiet_reads : Reads setting depth isDiet view view (· = setting.diet) :=
  fun s hs => ⟨_, s, rfl, hs, rfl⟩

theorem spanFrom_reads {start : Position} :
    Reads setting depth (spanFrom start) view view fun _ => True :=
  fun s hs => ⟨_, s, rfl, hs, trivial⟩

theorem sees_reads (h : t.is text = true) :
    Reads setting depth (sees text) (t :: view) (t :: view) (· = true) :=
  fun s hs => ⟨_, s, rfl, hs, (hs.sees text).trans h⟩

theorem sees_passes (h : view.head?.any (·.is text) = false) :
    Reads setting depth (sees text) view view (· = false) :=
  fun s hs => ⟨_, s, rfl, hs, (hs.sees text).trans h⟩

theorem advance_reads : Reads setting depth advance (t :: view) view fun _ => True := by
  intro s hs
  obtain ⟨_, _, _, _, hnext⟩ := hs.cons
  exact ⟨(), s.advance, rfl, hnext, trivial⟩

theorem skip_two_reads : Reads setting depth (skip 2) (t :: u :: view) view fun _ => True := by
  intro s hs
  obtain ⟨_, _, _, _, hnext⟩ := hs.cons
  obtain ⟨_, _, _, _, hnext'⟩ := hnext.cons
  exact ⟨(), s.advance.advance, rfl, hnext', trivial⟩

theorem accept_reads (h : t.is text = true) :
    Reads setting depth (accept text) (t :: view) view (· = true) := by
  intro s hs
  obtain ⟨_, _, _, _, hnext⟩ := hs.cons
  have hsees : s.sees text = true := (hs.sees text).trans h
  exact ⟨true, s.advance, by rw [accept, if_pos hsees], hnext, rfl⟩

theorem accept_passes (h : view.head?.any (·.is text) = false) :
    Reads setting depth (accept text) view view (· = false) := by
  intro s hs
  have hsees : ¬ s.sees text = true := by rw [hs.sees text, h]; exact Bool.false_ne_true
  exact ⟨false, s, by rw [accept, if_neg hsees], hs, rfl⟩

/-- A keyword or operator that is written if a flag is set. -/
theorem accept_flag (flag : Bool) (ht : t.is text = true)
    (h : view.head?.any (·.is text) = false) :
    Reads setting depth (accept text) (wordsIf flag [t] ++ view) view (· = flag) := by
  cases flag with
  | true => exact accept_reads ht
  | false => exact accept_passes h

theorem expect_reads (h : t.is text = true) :
    Reads setting depth (expect text) (t :: view) view fun _ => True := by
  intro s hs
  obtain ⟨t', rest, hrest, rfl, hnext⟩ := hs.cons
  have his : t'.is text = true := h
  exact ⟨t'.span, s.advance, by simp only [expect, hrest, if_pos his], hnext, trivial⟩

theorem identifier_reads (name : String) :
    Reads setting depth identifier (.identifier name :: view) view (· = name) := by
  intro s hs
  obtain ⟨t', rest, hrest, hbare, hnext⟩ := hs.cons
  have hkind : t'.isIdentifier = true := congrArg Token.isIdentifier hbare
  have htext : t'.text = name := congrArg Token.text hbare
  exact ⟨t'.text, s.advance, by simp only [Parser.identifier, hrest, if_pos hkind], hnext, htext⟩

/-- A pair of braces is passed over. -/
theorem bracketed_reads : Reads setting depth (bracketed "\x7b" "\x7d")
    (.operator "\x7b" :: .operator "\x7d" :: view) view fun _ => True := by
  intro s hs
  obtain ⟨_, _, _, _, hinside⟩ := hs.cons
  obtain ⟨t', rest, hrest, hbare, hnext⟩ := hinside.cons
  have hopens : ¬ t'.is "\x7b" = true := by
    rw [show t'.is "\x7b" = t'.bare.is "\x7b" from rfl, hbare]
    decide
  have hcloses : t'.is "\x7d" = true := by
    rw [show t'.is "\x7d" = t'.bare.is "\x7d" from rfl, hbare]
    decide
  have hlength : groupLength? "\x7b" "\x7d" 0 s.advance.rest = some 1 := by
    rw [hrest, groupLength?, if_neg hopens, if_pos hcloses]
  simp only [bracketed, hlength]
  exact ⟨_, _, rfl, hnext, trivial⟩

/-! ### Repetition -/

theorem repeatWhile_passes {turn : Parser Bool}
    (h : Reads setting depth turn view view (· = false)) :
    Reads setting depth (repeatWhile turn) view view fun _ => True := by
  intro s hs
  obtain ⟨_, next, hok, hnext, rfl⟩ := h s hs
  refine ⟨(), next, ?_, hnext, trivial⟩
  rw [repeatWhile, repeatLoop]
  simp only [Parser.bind, hok, if_neg Bool.false_ne_true]
  rfl

/-- A repetition that reads from one view to another one, if it may take more turns than there are
tokens ahead. -/
def Repeats (setting : Setting) (depth : Nat) (turn : Parser (Turn α)) (before after : List Token)
    (good : List α → Prop) : Prop :=
  ∀ fuel, before.length < fuel → Reads setting depth (collect turn fuel) before after good

section

variable {turn : Parser (Turn α)} {goods : List α → Prop}

theorem Repeats.gather (h : Repeats setting depth turn before after goods) :
    Reads setting depth (gather turn) before after goods := by
  intro s hs
  rw [gather_eq_collect]
  refine h _ ?_ s hs
  rw [← hs.view, List.length_map, ← hs.index]
  omega

theorem Repeats.stop (h : Reads setting depth turn before after (· = .stop)) (hgood : goods []) :
    Repeats setting depth turn before after goods := by
  intro fuel hfuel
  obtain ⟨fuel, rfl⟩ : ∃ n, fuel = n + 1 := ⟨fuel - 1, by omega⟩
  exact h.bind_eq (.pure hgood)

theorem Repeats.final
    (h : Reads setting depth turn before after fun value => ∃ a, value = .final a ∧ goods [a]) :
    Repeats setting depth turn before after goods := by
  intro fuel hfuel
  obtain ⟨fuel, rfl⟩ : ∃ n, fuel = n + 1 := ⟨fuel - 1, by omega⟩
  refine h.bind fun _ hvalue => ?_
  obtain ⟨a, rfl, hgood⟩ := hvalue
  exact .pure hgood

theorem Repeats.take (middle : List Token) (good : α → Prop)
    (h : Reads setting depth turn before middle fun value => ∃ a, value = .take a ∧ good a)
    (hless : middle.length < before.length)
    (hlater : ∀ a, good a →
      Repeats setting depth turn middle after fun found => goods (a :: found)) :
    Repeats setting depth turn before after goods := by
  intro fuel hfuel
  obtain ⟨fuel, rfl⟩ : ∃ n, fuel = n + 1 := ⟨fuel - 1, by omega⟩
  refine h.bind fun _ hvalue => ?_
  obtain ⟨a, rfl, hgood⟩ := hvalue
  exact (hlater a hgood fuel (by omega)).bind fun found hfound => .pure hfound

end

/-- **A repetition reads one item after another**, if each item is read in front of anything that may
follow it, and the next item and what ends the repetition may follow. -/
theorem Repeats.items {γ : Type} {turn : Parser (Turn α)} {items : List β} {ending : List Token}
    (words : β → List Token) (value : β → γ) (shown : α → γ) (follows : List Token → Prop)
    (hitem : ∀ item ∈ items, ∀ later, follows later →
      Reads setting depth turn (words item ++ later) later
        fun found => ∃ a, found = .take a ∧ shown a = value item)
    (hne : ∀ item ∈ items, words item ≠ [])
    (hnext : ∀ item ∈ items, ∀ later, follows later → follows (words item ++ later))
    (hending : follows ending) (hstop : Reads setting depth turn ending after (· = .stop)) :
    Repeats setting depth turn (items.flatMap words ++ ending) after
      fun found => found.map shown = items.map value := by
  have hall : Repeats setting depth turn (items.flatMap words ++ ending) after
        (fun found => found.map shown = items.map value) ∧
      follows (items.flatMap words ++ ending) := by
    induction items with
    | nil => exact ⟨.stop hstop rfl, hending⟩
    | cons item items ih =>
        obtain ⟨hlater, hfollows⟩ := ih (fun i hi => hitem i (.tail _ hi))
          (fun i hi => hne i (.tail _ hi)) (fun i hi => hnext i (.tail _ hi))
        rw [List.flatMap_cons, List.append_assoc]
        refine ⟨.take _ _ (hitem item (.head _) _ hfollows) ?_ fun a ha => ?_,
          hnext item (.head _) _ hfollows⟩
        · have hpos := List.length_pos_iff.2 (hne item (.head _))
          simp only [List.length_append]
          omega
        · intro fuel hfuel
          refine (hlater fuel hfuel).mono fun found hfound => ?_
          rw [List.map_cons, List.map_cons, ha, hfound]
  exact hall.1

/-! ### What a keyword introduces, and commas -/

theorem whenAccepted_reads (h : t.is text = true) (hp : Reads setting depth p view after good) :
    Reads setting depth (whenAccepted text p) (t :: view) after
      fun found => ∃ a, found = some a ∧ good a :=
  (accept_reads h).bind_eq (hp.bind fun a ha => .pure ⟨a, rfl, ha⟩)

theorem whenAccepted_passes (h : view.head?.any (·.is text) = false) :
    Reads setting depth (whenAccepted text p) view view (· = none) :=
  (accept_passes h).bind_eq (.pure rfl)

/-- One or more items with commas between them are read in front of anything but a comma, if each is
read in front of a comma and of what follows them all. -/
theorem commaSeparated_reads {γ : Type} {item : Parser α} {first : β} {others : List β}
    (words : β → List Token) (value : β → γ) (shown : α → γ) (follows : List Token → Prop)
    (hitem : ∀ b ∈ first :: others, ∀ later, follows later →
      Reads setting depth item (words b ++ later) later fun a => shown a = value b)
    (hcomma : ∀ later, follows (.operator "," :: later)) (hview : follows view)
    (hstop : view.head?.any (·.is ",") = false) :
    Reads setting depth (commaSeparated item) (commaWords words (first :: others) ++ view) view
      fun found => found.map shown = (first :: others).map value := by
  have hfollows : follows ((others.flatMap fun b => .operator "," :: words b) ++ view) := by
    cases others with
    | nil => exact hview
    | cons b others => exact hcomma _
  rw [commaWords, List.append_assoc]
  refine (hitem first (.head _) _ hfollows).bind fun a ha => ?_
  refine Reads.bind (Repeats.gather (Repeats.items (fun b => .operator "," :: words b) value shown
    follows ?_ ?_ ?_ hview ?_)) fun found hfound => .pure ?_
  · intro b hb later hlater
    refine (whenAccepted_reads (t := .operator ",") (by decide)
      (hitem b (.tail _ hb) later hlater)).bind fun found hfound => ?_
    obtain ⟨a, rfl, ha⟩ := hfound
    exact .pure ⟨a, rfl, ha⟩
  · exact fun b hb => nofun
  · exact fun b hb later _ => hcomma _
  · exact (whenAccepted_passes hstop).bind_eq (.pure rfl)
  · rw [List.map_cons, List.map_cons, ha, hfound]

/-! ### Nesting and errors -/

theorem guarded_reads (hdepth : depth + 1 ≤ maxNesting)
    (h : Reads setting (depth + 1) p before after good) :
    Reads setting depth (guarded p) before after good := by
  intro s hs
  obtain ⟨a, next, hok, hnext, ha⟩ := h { s with depth := s.depth + 1 }
    ⟨hs.silent, congrArg (· + 1) hs.depth, hs.index, hs.view⟩
  refine ⟨a, { next with depth := next.depth - 1 }, ?_, ?_, ha⟩
  · exact guarded_eq_ok.2 ⟨by rw [hs.depth]; exact hdepth, next, hok, rfl⟩
  · exact ⟨hnext.silent, by simp [hnext.depth], hnext.index, hnext.view⟩

theorem orReport_reads {p : Parser Unit} {good : Unit → Prop}
    (h : Reads setting depth p before after good) :
    Reads setting depth (orReport p) before after good := by
  intro s hs
  obtain ⟨a, next, hok, hnext, ha⟩ := h s hs
  exact ⟨(), next, by rw [orReport, hok], hnext, ha⟩

theorem orRecover_reads (h : Reads setting depth p before after good) :
    Reads setting depth (orRecover p) before after fun found => ∃ a, found = some a ∧ good a := by
  intro s hs
  obtain ⟨a, next, hok, hnext, ha⟩ := h s hs
  exact ⟨some a, next, by rw [orRecover, hok], hnext, a, rfl, ha⟩

theorem orSkip_reads (h : Reads setting depth p before after good) :
    Reads setting depth (orSkip p) before after fun found => ∃ a, found = .take a ∧ good a := by
  intro s hs
  obtain ⟨a, next, hok, hnext, ha⟩ := h s hs
  exact ⟨.take a, next, by rw [orSkip, hok], hnext, a, rfl, ha⟩

end Parser

/-! ### What is not ahead -/

/-- None of these keywords and operators is ahead. -/
def Avoids (texts : List String) (view : List Token) : Prop :=
  ∀ text ∈ texts, view.head?.any (·.is text) = false

section

variable {texts : List String} {word : String} {view : List Token}

@[simp] theorem avoids_nil : Avoids texts [] := fun _ _ => rfl

@[simp] theorem avoids_operator : Avoids texts (.operator word :: view) ↔ word ∉ texts := by
  simp [Avoids, List.forall_mem_ne]

@[simp] theorem avoids_keyword : Avoids texts (.keyword word :: view) ↔ word ∉ texts := by
  simp [Avoids, List.forall_mem_ne]

@[simp] theorem avoids_identifier : Avoids texts (.identifier word :: view) := by
  simp [Avoids]

theorem Avoids.mono {fewer : List String} (h : Avoids texts view) (hfewer : fewer ⊆ texts) :
    Avoids fewer view := fun text htext => h text (hfewer htext)

end

section

variable {setting : Setting} {depth : Nat} {view : List Token}

/-! ### Names -/

/-- A name in front of something that does not continue it. -/
theorem qualifiedName_reads (n : DottedName)
    (h : (view.head?.any (·.is ".") && view[1]?.any Token.isIdentifier) = false) :
    Reads setting depth qualifiedName (n.words ++ view) view (· = n.text) := by
  refine (identifier_reads n.first.text).bind_eq ?_
  refine Reads.bind (Repeats.gather (Repeats.items (fun part => [.operator ".", part.token])
    PlainName.text id (fun _ => True) ?_ (fun _ _ => nofun) (fun _ _ _ _ => trivial) trivial ?_))
    fun parts hparts => .pure ?_
  · intro part _ later _
    refine state_reads.bind fun s hs => ?_
    have hahead : (s.sees "." && s.seesIdentifierSecond) = true := by
      rw [hs.sees, hs.seesIdentifierSecond]
      rfl
    rw [if_pos hahead]
    exact advance_reads.bind fun _ _ => (identifier_reads part.text).bind_eq (.pure ⟨_, rfl, rfl⟩)
  · refine state_reads.bind fun s hs => ?_
    have hahead : ¬ (s.sees "." && s.seesIdentifierSecond) = true := by
      rw [hs.sees, hs.seesIdentifierSecond, h]
      exact Bool.false_ne_true
    rw [if_neg hahead]
    exact .pure rfl
  · rw [List.map_id] at hparts
    rw [hparts, DottedName.text]

/-! ### Annotations and modifiers -/

/-- Where no annotation is ahead none is passed over. -/
theorem annotations_reads (h : State.seesAnnotation { rest := view } = false) :
    Reads setting depth annotations view view fun _ => True := by
  refine repeatWhile_passes (state_reads.bind fun s hs => ?_)
  rw [hs.seesAnnotations, h, if_neg Bool.false_ne_true]
  exact .pure rfl

/-- What may follow modifiers: no further modifier, no annotation, and not what ends a label. -/
structure EndsModifiers (view : List Token) : Prop where
  modifier : ({ rest := view } : State).modifier? = none
  sealed : ({ rest := view } : State).sealedLength? = none
  annotation : State.seesAnnotation { rest := view } = false
  label : Avoids [":", "->"] view

/-- A modifier is none of the other words of a list. -/
theorem ModifierWord.avoids (m : ModifierWord) {texts : List String}
    (h : ∀ text ∈ texts, text ∉ modifierWords) : Avoids texts (m.token :: view) :=
  avoids_keyword.2 fun hmem => h m.text hmem m.known

/-- The modifier ahead, unless it is a label. -/
theorem ModifierWord.ahead (m : ModifierWord) (h : Avoids [":", "->"] view) :
    ({ rest := m.token :: view } : State).modifier? = some m.text := by
  have hsecond : ∀ text ∈ [":", "->"],
      ({ rest := m.token :: view } : State).seesSecond text = false := by
    cases view with
    | nil => exact fun _ _ => rfl
    | cons t view => exact h
  have hmodifier : (m.token.isKeyword && modifierWords.contains m.token.text) = true := by
    simpa [ModifierWord.token, Token.keyword, Token.isKeyword] using m.known
  simp only [State.modifier?, hmodifier, hsecond ":" (by simp), hsecond "->" (by simp),
    Bool.or_self, Bool.and_false, if_neg Bool.false_ne_true]
  rfl

theorem modifiers_reads (words : List ModifierWord) (h : EndsModifiers view) :
    Reads setting depth modifiers (words.map ModifierWord.token ++ view) view
      (· = words.map ModifierWord.text) := by
  rw [List.map_eq_flatMap]
  refine (Repeats.gather (Repeats.items (fun m => [m.token]) ModifierWord.text id
    (Avoids [":", "->"]) ?_ (fun _ _ => nofun) ?_ h.label ?_)).mono fun found hfound => ?_
  · intro m _ later hlater
    refine state_reads.bind fun s hs => ?_
    rw [hs.modifier?, List.singleton_append, m.ahead hlater]
    exact advance_reads.bind fun _ _ => .pure ⟨m.text, rfl, rfl⟩
  · exact fun m _ later _ => m.avoids (by decide)
  · refine state_reads.bind fun s hs => ?_
    rw [hs.modifier?, hs.sealedLength?, hs.seesAnnotations, h.modifier, h.sealed, h.annotation]
    exact .pure rfl
  · rwa [List.map_id] at hfound

/-! ### Types -/

theorem dimensions_reads (h : Avoids ["["] view) :
    Reads setting depth dimensions view view fun _ => True := by
  refine repeatWhile_passes (state_reads.bind fun s hs => ?_)
  have hahead : ¬ s.seesPair "[" "]" = true := by
    rw [State.seesPair, hs.sees, h "[" (by simp)]
    exact Bool.false_ne_true
  rw [if_neg hahead]
  exact .pure rfl

theorem typeSuffixes_reads (h : Avoids ["<", "."] view) :
    Reads setting depth typeSuffixes view view fun _ => True := by
  refine repeatWhile_passes (state_reads.bind fun s hs => ?_)
  rw [State.seesPair, hs.sees, hs.sees, h "<" (by simp), h "." (by simp)]
  exact .pure rfl

theorem typeParameters_reads (h : Avoids ["<"] view) :
    Reads setting depth typeParameters view view (· = none) := by
  refine state_reads.bind fun s hs => ?_
  rw [hs.sees, h "<" (by simp), if_neg Bool.false_ne_true]
  exact .pure rfl

/-- A type of one token may begin a type. -/
theorem TypeWord.starts (t : TypeWord) : t.token.isTypeStart = true ∨ t.token.is "?" = true := by
  cases t with
  | name n => exact .inl rfl
  | primitive text known =>
      left
      simpa [TypeWord.token, Token.keyword, Token.isTypeStart, Token.isKeyword] using .inr known
  | wildcard => exact .inr (by decide)

/-- A type of one token is no other word of a list. -/
theorem TypeWord.avoids (t : TypeWord) {texts : List String}
    (h : ∀ text ∈ texts, text ∉ "?" :: primitiveTypes) : Avoids texts (t.token :: view) := by
  cases t with
  | name n => exact avoids_identifier
  | primitive text known => exact avoids_keyword.2 fun hmem => h text hmem (.tail _ known)
  | wildcard => exact avoids_operator.2 fun hmem => h "?" hmem (.head _)

theorem Avoids.seesAnnotations (h : Avoids ["@"] view) :
    State.seesAnnotation { rest := view } = false := by
  have hsees : ({ rest := view } : State).sees "@" = false := h "@" (by simp)
  rw [ State.seesAnnotation, hsees, Bool.false_and]

/-- **A type of one token is read in front of what does not continue it.** -/
theorem typeReference_reads (t : TypeWord) (h : Avoids ["<", ".", "["] view) :
    Reads setting depth typeReference (t.token :: view) view (· = t.text) := by
  have hannotation : Avoids ["@"] (t.token :: view) := t.avoids (by decide)
  refine (annotations_reads hannotation.seesAnnotations).bind fun _ _ =>
    state_reads.bind fun start hstart => ?_
  obtain ⟨t', rest, hrest, hbare, -⟩ := hstart.cons
  have hstarts : (start.rest.head?.any Token.isTypeStart || start.sees "?") = true := by
    have hhead : start.rest.head?.any Token.isTypeStart = t.token.isTypeStart := by
      rw [hrest, ← hbare]
      rfl
    rw [hhead, hstart.sees]
    exact Bool.or_eq_true_iff.2 t.starts
  rw [if_pos hstarts]
  refine advance_reads.bind fun _ _ => (typeSuffixes_reads (h.mono (by simp))).bind fun _ _ =>
    (dimensions_reads (h.mono (by simp))).bind fun _ _ =>
    state_reads.bind fun stop hstop => .pure ?_
  -- Between the two states lies the one token.
  have hcount : stop.index - start.index = 1 := by
    have hfront := hstart.index
    have hback := hstop.index
    have hlong : start.rest.length = view.length + 1 := by
      rw [← List.length_map Token.bare, hstart.view, List.length_cons]
    have hshort : stop.rest.length = view.length := by
      rw [← List.length_map Token.bare, hstop.view]
    omega
  rw [State.tokensSince, hcount, hrest, List.take_succ_cons, List.take_zero, Token.join_singleton]
  rw [TypeWord.text, ← hbare]
  rfl

theorem typeList_reads (first : TypeWord) (others : List TypeWord)
    (h : Avoids [",", "<", ".", "["] view) :
    Reads setting depth typeList
      (commaWords (fun t => [TypeWord.token t]) (first :: others) ++ view) view
      (· = (first :: others).map TypeWord.text) := by
  refine (commaSeparated_reads (fun t => [t.token]) TypeWord.text id (Avoids ["<", ".", "["])
    (fun t _ later hlater => typeReference_reads t hlater) (fun later => ?_) (h.mono (by simp))
    (h "," (by simp))).mono fun found hfound => ?_
  · exact avoids_operator.2 (by decide)
  · rwa [List.map_id] at hfound

/-- Types behind a keyword, or none. -/
theorem clause_reads {opening : String} (types : List TypeWord)
    (h : Avoids [opening, ",", "<", ".", "["] view) :
    Reads setting depth (whenAccepted opening typeList) (clauseWords opening types ++ view) view
      (·.getD [] = types.map TypeWord.text) := by
  cases types with
  | nil =>
      refine (whenAccepted_passes (h opening (by simp))).mono fun found hfound => ?_
      rw [hfound]
      rfl
  | cons first others =>
      refine (whenAccepted_reads (by simp) (typeList_reads first others (h.mono (by simp)))).mono
        fun found hfound => ?_
      obtain ⟨types, rfl, htypes⟩ := hfound
      exact htypes

/-! ### Variables -/

theorem declarator_reads (name : String) (start : Position) (h : Avoids ["[", "="] view) :
    Reads setting depth (declarator name start) view view
      (·.bare = { name, span := {} }) := by
  refine (dimensions_reads (h.mono (by simp))).bind fun _ _ =>
    (whenAccepted_passes (h "=" (by simp))).bind_eq ?_
  exact spanFrom_reads.bind fun span _ => .pure rfl

/-- The variables behind the first name. -/
theorem declarators_reads (first : PlainName) (others : List PlainName)
    (h : Avoids [",", "[", "="] view) :
    Reads setting depth (declarators first.text)
      ((others.flatMap fun n => [.operator ",", n.token]) ++ view) view
      (·.map VariableDecl.bare = (first :: others).map fun n => { name := n.text, span := {} }) := by
  have hfollows : Avoids ["[", "="]
      ((others.flatMap fun n => [.operator ",", n.token]) ++ view) := by
    cases others with
    | nil => exact h.mono (by simp)
    | cons n others => exact avoids_operator.2 (by decide)
  refine state_reads.bind fun s _ => (declarator_reads _ _ hfollows).bind fun v hv => ?_
  refine Reads.bind (Repeats.gather (Repeats.items (fun n => [.operator ",", PlainName.token n])
    (fun n => { name := n.text, span := {} }) VariableDecl.bare (Avoids ["[", "="]) ?_
    (fun _ _ => nofun) (fun _ _ _ _ => avoids_operator.2 (by decide)) (h.mono (by simp)) ?_))
    fun found hfound => .pure ?_
  · intro n _ later hlater
    refine (accept_reads (t := .operator ",") (by decide)).bind_eq ?_
    refine here_reads.bind fun start _ => (identifier_reads n.text).bind_eq ?_
    exact (declarator_reads _ _ hlater).bind fun v hv => .pure ⟨v, rfl, hv⟩
  · exact (accept_passes (h "," (by simp))).bind_eq (.pure rfl)
  · rw [List.map_cons, List.map_cons, hv, hfound]

end

end JavaOutline
