/-
**Parsers that meet brackets in pairs.**

The judgments follow the parsers.  While something is read, some closing brackets are awaited.  If nothing
is reported in the end, the brackets that were passed nest, apart from the stretches that the run tells.
An expression may run into the end of the text with brackets open; then something is missing behind it,
and that is reported unless nothing more is read.  So an answer is either closed, or it is known to nest
only if a token is left.

Main definitions:

* `Paired`, `PairsAt`, `Pairs` — a parser that is silent has met brackets that nest;
* `Neat` — such a parser that does not run into the end of the text;
* `PlainWord`, `BracketPair`, `ClosingWord` — the words of the grammar, by their brackets.

Main results:

* `Paired.trans`, `PairsAt.after`, `PairsAt.take`, `PairsAt.takeInside` — **one parser after another**;
* `PairsAt.opening`, `PairsAt.closing` — brackets are opened and closed;
* `Pairs.gather`, `Pairs.orSkip`, `Pairs.guarded` — repetition, errors and levels of nesting.
-/

import JavaOutline.Proofs.ClauseHeads
import JavaOutline.Proofs.PairedBrackets

set_option autoImplicit false

namespace JavaOutline

open JavaOutline.Parser

open JavaOutline.Parser.State (OnWay)

/-! ### The judgments -/

section

variable {α β : Type}

/-- What is known of an answer if nothing is reported by then: the brackets on the way nest, apart from
the stretches that were passed.  An answer that is not `closed` may have run into the end of the text. -/
structure Paired (closed : Bool) (awaited : List String) (s : State) (found : List Stretch)
    (n : State) : Prop where
  silent : s.errors = #[]
  nests : closed = true ∨ n.rest ≠ [] → Nesting awaited s.index s.rest found n.index n.rest

/-- A parser that answers at a state without reporting anything has met brackets that nest, while closing
brackets are awaited. -/
def PairsAt (scan : Scan) (closed : Bool) (awaited : List String) (s : State) (p : Parser α)
    [Passing p] : Prop :=
  s.OnWay scan.tokens → ∀ {a n}, p (scan.setting false) s = .ok a n → n.errors = #[] →
    Paired closed awaited s (stretches p (scan.setting false) s) n

/-- A parser for which brackets nest wherever it begins. -/
def Pairs (scan : Scan) (closed : Bool) (awaited : List String) (p : Parser α) [Passing p] : Prop :=
  ∀ s, PairsAt scan closed awaited s p

/-- A parser for which brackets nest wherever it begins and that does not run into the end of the
text. -/
class Neat (scan : Scan) (p : Parser α) [Passing p] : Prop where
  pairs : Pairs scan true [] p

variable {scan : Scan} {closed : Bool} {awaited : List String} {s : State}

/-! ### Words and brackets -/

/-- A keyword or operator that is no bracket. -/
class PlainWord (text : String) : Prop where
  plain : text ∉ ["(", "[", "\x7b"] ∧ text ∉ [")", "]", "\x7d"]

instance : PlainWord ";" := ⟨by decide⟩
instance : PlainWord "," := ⟨by decide⟩
instance : PlainWord "." := ⟨by decide⟩
instance : PlainWord ":" := ⟨by decide⟩
instance : PlainWord "=" := ⟨by decide⟩
instance : PlainWord "->" := ⟨by decide⟩
instance : PlainWord "..." := ⟨by decide⟩
instance : PlainWord "|" := ⟨by decide⟩
instance : PlainWord "@" := ⟨by decide⟩
instance : PlainWord "*" := ⟨by decide⟩
instance : PlainWord "if" := ⟨by decide⟩
instance : PlainWord "else" := ⟨by decide⟩
instance : PlainWord "while" := ⟨by decide⟩
instance : PlainWord "do" := ⟨by decide⟩
instance : PlainWord "for" := ⟨by decide⟩
instance : PlainWord "switch" := ⟨by decide⟩
instance : PlainWord "case" := ⟨by decide⟩
instance : PlainWord "default" := ⟨by decide⟩
instance : PlainWord "try" := ⟨by decide⟩
instance : PlainWord "catch" := ⟨by decide⟩
instance : PlainWord "finally" := ⟨by decide⟩
instance : PlainWord "return" := ⟨by decide⟩
instance : PlainWord "throw" := ⟨by decide⟩
instance : PlainWord "break" := ⟨by decide⟩
instance : PlainWord "continue" := ⟨by decide⟩
instance : PlainWord "assert" := ⟨by decide⟩
instance : PlainWord "synchronized" := ⟨by decide⟩
instance : PlainWord "this" := ⟨by decide⟩
instance : PlainWord "throws" := ⟨by decide⟩
instance : PlainWord "static" := ⟨by decide⟩
instance : PlainWord "class" := ⟨by decide⟩
instance : PlainWord "interface" := ⟨by decide⟩
instance : PlainWord "enum" := ⟨by decide⟩
instance : PlainWord "extends" := ⟨by decide⟩
instance : PlainWord "implements" := ⟨by decide⟩
instance : PlainWord "package" := ⟨by decide⟩
instance : PlainWord "import" := ⟨by decide⟩

/-- A bracket and the one that closes it. -/
class BracketPair (opener : String) (closer : outParam String) : Prop where
  awaits : ∀ t : Token, t.is opener = true → t.opens = true ∧ t.closer? = some closer

instance : BracketPair "(" ")" where
  awaits t ht := ⟨List.any_eq_true.2 ⟨"(", by decide, ht⟩, by rw [Token.closer?, if_pos ht]⟩

instance : BracketPair "\x7b" "\x7d" where
  awaits t ht := by
    have hround : t.is "(" = false := Token.is_of_is ht (by decide)
    have hsquare : t.is "[" = false := Token.is_of_is ht (by decide)
    exact ⟨List.any_eq_true.2 ⟨"\x7b", by decide, ht⟩, by simp [Token.closer?, hround, hsquare, ht]⟩

/-- A closing bracket. -/
class ClosingWord (text : String) : Prop where
  closing : text ∈ [")", "]", "\x7d"] ∧ text ∉ ["(", "[", "\x7b"]

instance : ClosingWord ")" := ⟨by decide⟩
instance : ClosingWord "\x7d" := ⟨by decide⟩

/-- Looking ahead leaves the parser where it is. -/
theorem still_of_lookingPast {γ : Type} {p : Parser γ} {test : State → Bool} {setting : Setting}
    {s n : State} {b : Bool} (h : lookingPast p test setting s = .ok b n) : n = s := by
  unfold lookingPast at h
  split at h <;> cases h <;> rfl

/-- A word that is read is ahead. -/
theorem sees_of_expect {text : String} {setting : Setting} {s n : State} {span : Span}
    (h : expect text setting s = .ok span n) : s.sees text = true ∧ n = s.advance := by
  refine ⟨?_, expect_eq_ok h⟩
  unfold expect at h
  split at h
  next t ts hrest =>
    split at h
    next ht => rw [State.sees_cons hrest, ht]
    next => cases h
  next => cases h

/-- A name that is read is ahead. -/
theorem name_of_identifier {setting : Setting} {n : State} {s : State} {name : String}
    (h : identifier setting s = .ok name n) : s.seesIdentifier = true ∧ n = s.advance := by
  unfold identifier at h
  split at h
  next t ts hrest =>
    split at h
    next ht =>
      cases h
      exact ⟨by rw [State.seesIdentifier, hrest]; exact ht, rfl⟩
    next => cases h
  next => cases h

/-- In front of a name there is a token. -/
theorem Parser.State.exists_cons_of_seesIdentifier {s : State} (h : s.seesIdentifier = true) :
    ∃ t ts, s.rest = t :: ts ∧ t.isIdentifier = true := by
  obtain ⟨t, hhead, ht⟩ := (Option.any_eq_true _ _).1 h
  obtain ⟨ts, hts⟩ := List.head?_eq_some_iff.1 hhead
  exact ⟨t, ts, hts, ht⟩

/-- A certain name is a name. -/
theorem Parser.State.seesIdentifier_of_seesName {s : State} {name : String}
    (h : s.seesName name = true) : s.seesIdentifier = true := by
  obtain ⟨t, hhead, ht⟩ := (Option.any_eq_true _ _).1 h
  exact (Option.any_eq_true _ _).2 ⟨t, hhead, (Bool.and_eq_true_iff.1 ht).1⟩

/-- Behind two tokens the others are ahead. -/
theorem Parser.State.rest_skip_two {s : State} {t u : Token} {ts : List Token}
    (hrest : s.rest = t :: u :: ts) : (s.skip 2).rest = ts :=
  State.rest_skip (show s.rest = [t, u] ++ ts from hrest)

/-- In front of a second token there is a first one. -/
theorem Parser.State.exists_second {s : State} {test : Token → Bool}
    (h : (s.rest[1]?).any test = true) : ∃ t u ts, s.rest = t :: u :: ts ∧ test u = true := by
  match hrest : s.rest with
  | [] => simp [hrest] at h
  | [_] => simp [hrest] at h
  | t :: u :: ts =>
      rw [hrest] at h
      exact ⟨t, u, ts, rfl, h⟩

theorem Parser.State.exists_pair {s : State} {first second : String}
    (h : s.seesPair first second = true) :
    ∃ t u ts, s.rest = t :: u :: ts ∧ t.is first = true ∧ u.is second = true := by
  obtain ⟨hfirst, hsecond⟩ := Bool.and_eq_true_iff.1 h
  obtain ⟨t, u, ts, hrest, hu⟩ := exists_second hsecond
  exact ⟨t, u, ts, hrest, by rwa [State.sees_cons hrest] at hfirst, hu⟩

namespace Paired

variable {n : State} {found : List Stretch}

/-- In front of what nests a bracket was opened. -/
theorem opened {opener closer : String} [hpair : BracketPair opener closer]
    (h : Paired closed (closer :: awaited) s.advance found n) (hsees : s.sees opener = true) :
    Paired closed awaited s found n := by
  obtain ⟨t, ts, hrest, ht⟩ := State.exists_cons_of_sees hsees
  obtain ⟨hopens, hcloser⟩ := hpair.awaits t ht
  refine ⟨s.advance_errors.symm.trans h.silent, fun hend => ?_⟩
  have hnests := h.nests hend
  rw [State.advance_cons hrest] at hnests
  rw [hrest]
  exact .opens hopens hcloser hnests

/-- In front of what nests the bracket was closed that was awaited. -/
theorem shut {closer : String} [hcloser : ClosingWord closer]
    (h : Paired closed awaited s.advance found n) (hsees : s.sees closer = true) :
    Paired closed (closer :: awaited) s found n := by
  obtain ⟨t, ts, hrest, ht⟩ := State.exists_cons_of_sees hsees
  obtain ⟨hmem, hother⟩ := hcloser.closing
  have hopens : ¬ t.opens = true := by
    intro hopens
    rw [Token.is_of_isAny hopens hother] at ht
    cases ht
  refine ⟨s.advance_errors.symm.trans h.silent, fun hend => ?_⟩
  have hnests := h.nests hend
  rw [State.advance_cons hrest] at hnests
  rw [hrest]
  exact .closes hopens (List.any_eq_true.2 ⟨closer, hmem, ht⟩) ht hnests

/-- A token that is no bracket nests by itself. -/
theorem token {t : Token} {ts : List Token} (hrest : s.rest = t :: ts)
    (ht : ¬ t.opens = true ∧ ¬ t.closes = true) (hn : s.advance.errors = #[]) :
    Paired closed [] s [] s.advance := by
  rw [State.advance_errors] at hn
  refine ⟨hn, fun _ => ?_⟩
  rw [State.advance_cons hrest, hrest]
  exact .word ht.1 ht.2 .done

theorem word {text : String} [htext : PlainWord text] (hsees : s.sees text = true)
    (hn : s.advance.errors = #[]) : Paired closed [] s [] s.advance := by
  obtain ⟨t, ts, hrest, ht⟩ := State.exists_cons_of_sees hsees
  exact token hrest (Token.not_bracket_of_is ht htext.plain) hn

theorem name (hsees : s.seesIdentifier = true) (hn : s.advance.errors = #[]) :
    Paired closed [] s [] s.advance := by
  obtain ⟨t, ts, hrest, ht⟩ := State.exists_cons_of_seesIdentifier hsees
  exact token hrest (Token.not_bracket_of_isIdentifier ht) hn

theorem still (hn : s.errors = #[]) : Paired closed [] s [] s := ⟨hn, fun _ => .done⟩

/-- **Brackets nest on one way and on the next.**  If the first one may have run into the end of the text,
either so may both, or a closing bracket is awaited behind it. -/
theorem trans {first : Bool} {m : State} {later : List Stretch} (h : Paired first [] s found m)
    (h' : Paired closed awaited m later n)
    (hfirst : first = true ∨ closed = false ∨ awaited ≠ []) :
    Paired closed awaited s (found ++ later) n := by
  refine ⟨h.silent, fun hend => ?_⟩
  have hbehind := h'.nests hend
  refine (h.nests (hfirst.imp_right fun hopen => ?_)).trans hbehind
  rcases hopen with hopen | hawaited
  · rw [hopen] at hend
    have hpos := List.length_pos_iff.2 (hend.resolve_left Bool.false_ne_true)
    exact List.length_pos_iff.1 (Nat.lt_of_lt_of_le hpos hbehind.length_le)
  · exact hbehind.ne_nil hawaited

/-- What does not run into the end of the text may be taken for what does. -/
theorem loosen (h : Paired true awaited s found n) : Paired closed awaited s found n :=
  ⟨h.silent, fun _ => h.nests (.inl rfl)⟩

end Paired

/-- The second of two parsers tells its stretches behind those of the first one. -/
theorem stretches_bind {p : Parser β} {f : β → Parser α} [Passing p] [∀ b, Passing (f b)]
    {setting : Setting} {m : State} {b : β} (h : p setting s = .ok b m) :
    stretches (p >>= f) setting s = stretches p setting s ++ stretches (f b) setting m := by
  show stretches p setting s ++ _ = _
  rw [h]

namespace PairsAt

/-- **One parser after another.** -/
theorem after {p : Parser β} {f : β → Parser α} [Moves p] [Passing p] [∀ b, Passing (f b)]
    (first : Bool) (hp : PairsAt scan first [] s p)
    (hfirst : first = true ∨ closed = false ∨ awaited ≠ [])
    (h : ∀ {b m}, p (scan.setting false) s = .ok b m → PairsAt scan closed awaited m (f b)) :
    PairsAt scan closed awaited s (p >>= f) := by
  intro hs a n hok hn
  obtain ⟨b, m, hb, hf⟩ := bind_eq_ok.1 hok
  have hlater := h hb (hs.goes (Moves.of_ok hb)) hf hn
  rw [stretches_bind hb]
  exact (hp hs hb hlater.silent).trans hlater hfirst

/-- Something is read that does not run into the end of the text. -/
theorem pass {p : Parser β} {f : β → Parser α} [Moves p] [Passing p] [∀ b, Passing (f b)]
    [hp : Neat scan p] (h : ∀ b, Pairs scan closed awaited (f b)) :
    PairsAt scan closed awaited s (p >>= f) :=
  after true (hp.pairs s) (.inl rfl) fun {b m} _ => h b m

/-- Something is read here. -/
theorem takeAt {p : Parser β} {f : β → Parser α} [Moves p] [Passing p] [∀ b, Passing (f b)]
    (hp : PairsAt scan closed [] s p) (h : ∀ b, Pairs scan closed awaited (f b)) :
    PairsAt scan closed awaited s (p >>= f) := by
  refine after closed hp ?_ fun {b m} _ => h b m
  cases closed with
  | true => exact .inl rfl
  | false => exact .inr (.inl rfl)

/-- Something is read. -/
theorem take {p : Parser β} {f : β → Parser α} [Moves p] [Passing p] [∀ b, Passing (f b)]
    (hp : Pairs scan closed [] p) (h : ∀ b, Pairs scan closed awaited (f b)) :
    PairsAt scan closed awaited s (p >>= f) := takeAt (hp s) h

/-- Something is read that may be missing. -/
theorem takeOption {p : Parser (Option β)} {f : Option β → Parser α} [Moves p] [Passing p]
    [hnone : Passing (f none)] [hsome : ∀ b, Passing (f (some b))] (hp : Pairs scan closed [] p)
    (none : Pairs scan closed awaited (f none)) (some : ∀ b, Pairs scan closed awaited (f (some b))) :
    PairsAt scan closed awaited s (p >>= f) := by
  let := Passing.option hnone hsome
  refine take hp fun found => ?_
  cases found with
  | none => exact none
  | some b => exact some b

/-- Inside brackets something may be read that would run into the end of the text. -/
theorem takeInside {p : Parser β} {f : β → Parser α} [Moves p] [Passing p] [∀ b, Passing (f b)]
    {closer : String} (hp : Pairs scan false [] p)
    (h : ∀ b, Pairs scan closed (closer :: awaited) (f b)) :
    PairsAt scan closed (closer :: awaited) s (p >>= f) :=
  after false (hp s) (.inr (.inr (List.cons_ne_nil _ _))) fun {b m} _ => h b m

/-- Nothing is read. -/
theorem give {a : α} : PairsAt scan closed [] s (Pure.pure a) := by
  intro _ b n hok hn
  obtain ⟨rfl, rfl⟩ := pure_eq_ok.1 hok
  exact .still hn

/-- A node is made whose span is taken. -/
theorem finish {start : Position} {make : Span → α} :
    PairsAt scan closed [] s (do return make (← spanFrom start)) := give

theorem ite {c : Prop} [Decidable c] {p q : Parser α} [Passing p] [Passing q]
    (hp : c → PairsAt scan closed awaited s p) (hq : ¬ c → PairsAt scan closed awaited s q) :
    PairsAt scan closed awaited s (if c then p else q) := by
  intro hs a n hok hn
  show Paired closed awaited s (if c then stretches p _ s else stretches q _ s) n
  split at hok
  next hc =>
    rw [if_pos hc]
    exact hp hc hs hok hn
  next hc =>
    rw [if_neg hc]
    exact hq hc hs hok hn

theorem unexpected {expected : String} :
    PairsAt scan closed awaited s (Parser.unexpected expected : Parser α) := fun _ {_ _} => nofun

/-- What is reported is not silent. -/
theorem reportUnexpected {expected : String} {f : Unit → Parser α} [∀ u, Passing (f u)]
    [∀ u, Steady (f u)] :
    PairsAt scan closed awaited s (Parser.reportUnexpected expected >>= f) := by
  intro _ a n hok hn
  obtain ⟨u, m, hreport, hf⟩ := bind_eq_ok.1 hok
  exact absurd (Steady.leads hf hn).silent (reportUnexpected_loud hreport)

/-! ### Looking -/

theorem state {f : State → Parser α} [∀ s, Passing (f s)] (h : PairsAt scan closed awaited s (f s)) :
    PairsAt scan closed awaited s (Parser.state >>= f) := h

theorem sees {text : String} {f : Bool → Parser α} [∀ b, Passing (f b)]
    (h : PairsAt scan closed awaited s (f (s.sees text))) :
    PairsAt scan closed awaited s (Parser.sees text >>= f) := h

/-- In a full parse bodies are not passed over. -/
theorem isFull {p q : Parser α} [Passing p] [Passing q] (h : PairsAt scan closed awaited s q) :
    PairsAt scan closed awaited s (do if ← isDiet then p else q) := h

theorem here {f : Position → Parser α} [∀ start, Passing (f start)]
    (h : ∀ start, PairsAt scan closed awaited s (f start)) :
    PairsAt scan closed awaited s (Parser.here >>= f) := h _

theorem lookingPast {γ : Type} {p : Parser γ} {test : State → Bool} {f : Bool → Parser α}
    [∀ b, Passing (f b)] (h : ∀ b, PairsAt scan closed awaited s (f b)) :
    PairsAt scan closed awaited s (Parser.lookingPast p test >>= f) := by
  intro hs a n hok hn
  obtain ⟨b, m, hlook, hf⟩ := bind_eq_ok.1 hok
  rw [stretches_bind hlook]
  obtain rfl := still_of_lookingPast hlook
  exact h b hs hf hn

/-! ### Single tokens -/

/-- A token that is no bracket is passed. -/
theorem advance {f : Unit → Parser α} [∀ u, Passing (f u)]
    (htoken : s.advance.errors = #[] → Paired true [] s [] s.advance)
    (h : PairsAt scan closed awaited s.advance (f ())) :
    PairsAt scan closed awaited s (Parser.advance >>= f) := by
  refine after true (fun _ {_ _} hok hn => ?_) (.inl rfl) fun hok => ?_
  · cases hok
    exact htoken hn
  · cases hok
    exact h

/-- A keyword or operator that is ahead and is no bracket is passed. -/
theorem advanceWord {text : String} [PlainWord text] {f : Unit → Parser α} [∀ u, Passing (f u)]
    (hsees : s.sees text = true) (h : PairsAt scan closed awaited s.advance (f ())) :
    PairsAt scan closed awaited s (Parser.advance >>= f) := advance (.word hsees) h

/-- A name is passed. -/
theorem advanceName {f : Unit → Parser α} [∀ u, Passing (f u)] (hsees : s.seesIdentifier = true)
    (h : PairsAt scan closed awaited s.advance (f ())) :
    PairsAt scan closed awaited s (Parser.advance >>= f) := advance (.name hsees) h

/-- A name is read. -/
theorem name {f : String → Parser α} [∀ name, Passing (f name)]
    (h : ∀ name, PairsAt scan closed awaited s.advance (f name)) :
    PairsAt scan closed awaited s (identifier >>= f) := by
  refine after true (fun _ {_ _} hok hn => ?_) (.inl rfl) fun {name _} hok => ?_
  · obtain ⟨hsees, rfl⟩ := name_of_identifier hok
    exact .name hsees hn
  · obtain ⟨-, rfl⟩ := name_of_identifier hok
    exact h name

/-- A bracket is opened, and its closer is awaited. -/
theorem opening {opener closer : String} [BracketPair opener closer] {f : Span → Parser α}
    [∀ span, Passing (f span)] (h : ∀ span, Pairs scan closed (closer :: awaited) (f span)) :
    PairsAt scan closed awaited s (expect opener >>= f) := by
  intro hs a n hok hn
  obtain ⟨span, m, hexpect, hf⟩ := bind_eq_ok.1 hok
  have hlater := h span _ (hs.goes (Moves.of_ok hexpect)) hf hn
  rw [stretches_bind hexpect]
  obtain ⟨hsees, rfl⟩ := sees_of_expect hexpect
  exact hlater.opened hsees

/-- The bracket that is awaited is closed. -/
theorem closing {closer : String} [ClosingWord closer] {f : Span → Parser α}
    [∀ span, Passing (f span)] (h : ∀ span, Pairs scan closed awaited (f span)) :
    PairsAt scan closed (closer :: awaited) s (expect closer >>= f) := by
  intro hs a n hok hn
  obtain ⟨span, m, hexpect, hf⟩ := bind_eq_ok.1 hok
  have hlater := h span _ (hs.goes (Moves.of_ok hexpect)) hf hn
  rw [stretches_bind hexpect]
  obtain ⟨hsees, rfl⟩ := sees_of_expect hexpect
  exact hlater.shut hsees

/-- Where a word may be ahead that is no bracket. -/
theorem accept {text : String} [PlainWord text] {p q : Parser α} [Passing p] [Passing q]
    (hyes : PairsAt scan closed awaited s.advance p) (hno : PairsAt scan closed awaited s q) :
    PairsAt scan closed awaited s (do if ← Parser.accept text then p else q) := by
  intro hs a n hok hn
  obtain ⟨accepted, m, haccept, hf⟩ := bind_eq_ok.1 hok
  rw [stretches_bind haccept]
  cases accepted with
  | true =>
      obtain ⟨hsees, rfl⟩ := accept_true haccept
      exact advanceWord hsees (f := fun _ => p) hyes hs hf hn
  | false =>
      obtain ⟨-, rfl⟩ := accept_false haccept
      exact hno hs hf hn

/-- The bracket that is awaited may be closed. -/
theorem acceptClosing {closer : String} [ClosingWord closer] {p q : Parser α} [Passing p] [Passing q]
    (hyes : Pairs scan closed awaited p) (hno : PairsAt scan closed (closer :: awaited) s q) :
    PairsAt scan closed (closer :: awaited) s (do if ← Parser.accept closer then p else q) := by
  intro hs a n hok hn
  obtain ⟨accepted, m, haccept, hf⟩ := bind_eq_ok.1 hok
  have hm := hs.goes (Moves.of_ok haccept)
  rw [stretches_bind haccept]
  cases accepted with
  | true =>
      obtain ⟨hsees, rfl⟩ := accept_true haccept
      exact (hyes _ hm hf hn).shut hsees
  | false =>
      obtain ⟨-, rfl⟩ := accept_false haccept
      exact hno hs hf hn

/-- A bracket may be opened. -/
theorem acceptOpening {opener closer : String} [BracketPair opener closer] {p q : Parser α}
    [Passing p] [Passing q] (hyes : Pairs scan closed (closer :: awaited) p)
    (hno : PairsAt scan closed awaited s q) :
    PairsAt scan closed awaited s (do if ← Parser.accept opener then p else q) := by
  intro hs a n hok hn
  obtain ⟨accepted, m, haccept, hf⟩ := bind_eq_ok.1 hok
  have hm := hs.goes (Moves.of_ok haccept)
  rw [stretches_bind haccept]
  cases accepted with
  | true =>
      obtain ⟨hsees, rfl⟩ := accept_true haccept
      exact (hyes _ hm hf hn).opened hsees
  | false =>
      obtain ⟨-, rfl⟩ := accept_false haccept
      exact hno hs hf hn

end PairsAt

namespace Pairs

/-- What does not run into the end of the text may be taken for what does. -/
theorem loosen {p : Parser α} [Passing p] (hp : Pairs scan true awaited p) :
    Pairs scan closed awaited p := fun s hs _ _ hok hn => (hp s hs hok hn).loosen

theorem of_neat {p : Parser α} [Passing p] [h : Neat scan p] : Pairs scan closed [] p :=
  h.pairs.loosen

/-! ### Repetition -/

theorem behindTurn {later : Parser (List α)} [Passing later] (hlater : Pairs scan closed [] later)
    (value : Turn α) : Pairs scan closed [] (Parser.behindTurn later value) := by
  cases value with
  | stop => exact fun _ => .give
  | skip => exact hlater
  | take a =>
      intro s hs found n hok hn
      obtain ⟨others, m, hothers, hok⟩ := bind_eq_ok.1 hok
      obtain ⟨-, rfl⟩ := pure_eq_ok.1 hok
      exact hlater s hs hothers hn
  | final a => exact fun _ => .give

theorem collect {turn : Parser (Turn α)} [Moves turn] [Passing turn] (h : Pairs scan closed [] turn)
    (fuel : Nat) : Pairs scan closed [] (Parser.collect turn fuel) := by
  induction fuel with
  | zero => exact fun _ => .give
  | succ fuel ih => exact fun _ => .take h (behindTurn ih)

/-- **A repetition passes what its turns pass.** -/
theorem gather {turn : Parser (Turn α)} [Moves turn] [Passing turn] (h : Pairs scan closed [] turn) :
    Pairs scan closed [] (Parser.gather turn) := by
  intro s hs found n hok hn
  rw [gather_eq_collect] at hok
  exact collect h _ s hs hok hn

theorem behindMore {later : Parser Unit} [Passing later] (hlater : Pairs scan closed [] later)
    (more : Bool) : Pairs scan closed [] (if more then later else Pure.pure ()) := fun s =>
  .ite (fun _ => hlater s) fun _ => .give

theorem repeatLoop {turn : Parser Bool} [Moves turn] [Passing turn] (h : Pairs scan closed [] turn)
    (fuel : Nat) : Pairs scan closed [] (Parser.repeatLoop turn fuel) := by
  induction fuel with
  | zero => exact fun _ => .give
  | succ fuel ih =>
      exact fun _ => PairsAt.take
        (f := fun more => if more then Parser.repeatLoop turn fuel else Pure.pure ()) h (behindMore ih)

theorem repeatWhile {turn : Parser Bool} [Moves turn] [Passing turn]
    (h : Pairs scan closed [] turn) : Pairs scan closed [] (Parser.repeatWhile turn) :=
  fun s => repeatLoop h _ s

theorem whenAccepted {text : String} [PlainWord text] {p : Parser α} [Moves p] [Passing p]
    (hp : Pairs scan closed [] p) : Pairs scan closed [] (Parser.whenAccepted text p) := fun _ =>
  .accept (.take hp fun _ _ => .give) .give

theorem commaSeparated {item : Parser α} [Moves item] [Passing item]
    (hitem : Pairs scan closed [] item) : Pairs scan closed [] (Parser.commaSeparated item) := by
  refine fun _ => .take hitem fun first _ => .take (.gather fun _ => ?_) fun others _ => .give
  exact .takeOption (.whenAccepted hitem) (fun _ => .give) fun _ _ => .give

/-! ### Errors and levels of nesting -/

theorem orSkip {p : Parser α} [Passing p] (hp : Pairs scan closed [] p) :
    Pairs scan closed [] (Parser.orSkip p) := by
  intro s hs value n hok hn
  obtain ⟨a, rfl, ha⟩ := orSkip_eq_ok hok hn
  exact hp s hs ha hn

theorem orRecover {p : Parser α} [Passing p] (hp : Pairs scan closed [] p) :
    Pairs scan closed [] (Parser.orRecover p) := by
  intro s hs found n hok hn
  obtain ⟨a, rfl, ha⟩ := orRecover_eq_ok hok hn
  exact hp s hs ha hn

theorem orReport {p : Parser Unit} [Passing p] (hp : Pairs scan closed [] p) :
    Pairs scan closed [] (Parser.orReport p) := fun s hs _ _ hok hn =>
  hp s hs (orReport_eq_ok hok hn) hn

/-- A level of nesting changes nothing about brackets. -/
theorem guarded {p : Parser α} [Passing p] (hp : Pairs scan closed awaited p) :
    Pairs scan closed awaited (Parser.guarded p) := by
  intro s hs a n hok hn
  obtain ⟨hdepth, m, hm, rfl⟩ := guarded_eq_ok.1 hok
  have hpaired := hp { s with depth := s.depth + 1 } hs hm hn
  show Paired closed awaited s (if maxNesting < s.depth + 1 then [] else _) _
  rw [if_neg (Nat.not_lt.2 hdepth)]
  exact ⟨hpaired.silent, hpaired.nests⟩

theorem tooDeep : Pairs scan closed awaited (Parser.tooDeep : Parser α) := fun _ _ {_ _} => nofun

end Pairs

end

end JavaOutline
