/-
**The order of the tokens of a scan.**

Every piece of a text takes at least one character, and the next piece begins where it ends.  So the
tokens of a scan have characters and do not overlap, and a place among them is known by its byte
offset: by where the token ahead begins, and by where the token behind ends.

Main definitions:

* `Token.Ordered` — tokens that have characters and do not overlap;
* `Parser.State.Reaches` — a state lies ahead of another one;
* `Scan.stateAt` — the state in front of what begins at a byte offset.

Main results:

* `Scan.ordered_ofChars` — **the tokens of a scan are ordered**;
* `Parser.State.eq_stateAt_start`, `Parser.State.eq_stateAt_stop` — a state on the way through
  ordered tokens is known by the token ahead, and by the token behind.
-/

import JavaOutline.Outline.Parser

set_option autoImplicit false

namespace JavaOutline

open JavaOutline.Parser

/-! ### Pieces in order -/

/-- Pieces found one behind another, the last one first: each has characters, none begins before
the one in front of it ends, and all of them end before the place. -/
structure Piece.Stacked (found : List Piece) (place : Position) : Prop where
  nonempty : ∀ piece ∈ found, piece.span.start.offset < piece.span.stop.offset
  below : ∀ piece ∈ found, piece.span.stop.offset ≤ place.offset
  apart : found.Pairwise fun later earlier => earlier.span.stop.offset ≤ later.span.start.offset

/-- No pieces are found yet. -/
theorem Piece.stacked_nil (place : Position) : Piece.Stacked [] place where
  nonempty := by simp
  below := by simp
  apart := List.Pairwise.nil

/-- The piece at the head has characters. -/
theorem Piece.start_lt_stop_atHead (place : Position) (c : Char) (text : List Char) :
    place.offset < (Piece.atHead place c text).span.stop.offset := by
  have hc : 0 < c.utf8Size := Char.utf8Size_pos c
  simp only [Piece.atHead, Position.offset_pastAll, Text.byteLength_cons]
  omega

/-- One more piece at the place. -/
theorem Piece.Stacked.cons {found : List Piece} {place : Position} (h : Piece.Stacked found place)
    (c : Char) (text : List Char) :
    Piece.Stacked (Piece.atHead place c text :: found)
      (Piece.atHead place c text).span.stop where
  nonempty := by
    intro piece hpiece
    rcases List.mem_cons.1 hpiece with rfl | hold
    · exact Piece.start_lt_stop_atHead place c text
    · exact h.nonempty piece hold
  below := by
    intro piece hpiece
    rcases List.mem_cons.1 hpiece with rfl | hold
    · exact Nat.le_refl _
    · have hbelow := h.below piece hold
      have hgrows := Piece.start_lt_stop_atHead place c text
      omega
  apart := List.Pairwise.cons (fun piece hpiece => h.below piece hpiece) h.apart

/-- The pieces of a text are found one behind another. -/
theorem piecesLoop_stacked (fuel : Nat) {place : Position} (text : List Char) {found : List Piece}
    (h : Piece.Stacked found place) :
    Piece.Stacked (piecesLoop fuel place text found).1 (piecesLoop fuel place text found).2 := by
  induction fuel generalizing place text found with
  | zero => exact h
  | succ fuel ih =>
      cases text with
      | nil => exact h
      | cons c text => exact ih _ (h.cons c text)

/-! ### Tokens in order -/

/-- Tokens that have characters and do not overlap. -/
structure Token.Ordered (tokens : List Token) : Prop where
  nonempty : ∀ t ∈ tokens, t.span.start.offset < t.span.stop.offset
  apart : tokens.Pairwise fun earlier later => earlier.span.stop.offset ≤ later.span.start.offset

/-- A token stands where its piece does. -/
theorem Piece.span_of_token? {piece : Piece} {t : Token} (h : piece.token? = some t) :
    t.span = piece.span := by
  obtain ⟨kind, -, rfl⟩ := Option.map_eq_some_iff.1 h
  rfl

/-- **The tokens of a scan are ordered.** -/
theorem Scan.ordered_ofChars (place : Position) (text : List Char) :
    Token.Ordered (Scan.ofChars place text).tokens := by
  have hstacked := piecesLoop_stacked text.length text (Piece.stacked_nil place)
  constructor
  · intro t ht
    obtain ⟨piece, hpiece, htoken⟩ := List.mem_filterMap.1 ht
    rw [Piece.span_of_token? htoken]
    exact hstacked.nonempty piece (List.mem_reverse.1 hpiece)
  · refine List.Pairwise.filterMap Piece.token? ?_ (List.pairwise_reverse.2 hstacked.apart)
    intro earlier later hle t ht t' ht'
    rw [Piece.span_of_token? ht, Piece.span_of_token? ht']
    exact hle

/-- Tokens in front of others end before these begin. -/
theorem Token.Ordered.stop_le_start {front back : List Token} (h : Token.Ordered (front ++ back)) :
    ∀ t ∈ front, ∀ t' ∈ back, t.span.stop.offset ≤ t'.span.start.offset :=
  (List.pairwise_append.1 h.apart).2.2

/-- Among ordered tokens none ends behind the last one. -/
theorem Token.Ordered.stop_le_last {front back : List Token} (h : Token.Ordered (front ++ back))
    {t last : Token} (hlast : front.getLast? = some last) (ht : t ∈ front) :
    t.span.stop.offset ≤ last.span.stop.offset := by
  obtain ⟨before, rfl⟩ := List.getLast?_eq_some_iff.1 hlast
  rcases List.mem_append.1 ht with hbefore | hown
  · have hlt := h.nonempty last (by simp)
    rw [List.append_assoc] at h
    have hle := h.stop_le_start t hbefore last (by simp)
    omega
  · obtain rfl := List.mem_singleton.1 hown
    exact Nat.le_refl _

/-! ### Places among tokens -/

/-- A state lies ahead of another one: some tokens were passed and nothing else. -/
def Parser.State.Reaches (s n : State) : Prop :=
  ∃ passed, s.rest = passed ++ n.rest ∧ n.index = s.index + passed.length ∧
    n.last = passed.getLast?.or s.last

/-- The state in front of the first token that does not begin before a byte offset. -/
def Scan.stateAt (scan : Scan) (depth offset : Nat) : State where
  index := (scan.tokens.takeWhile (·.span.start.offset < offset)).length
  last := (scan.tokens.takeWhile (·.span.start.offset < offset)).getLast?
  rest := scan.tokens.dropWhile (·.span.start.offset < offset)
  depth := depth

/-- The state at the beginning of a scan. -/
def Scan.atStart (scan : Scan) : State := { rest := scan.tokens }

namespace Parser.State

/-- A state reaches itself. -/
theorem Reaches.refl (s : State) : s.Reaches s := ⟨[], by simp⟩

/-- What is reached from a reached state is reached. -/
theorem Reaches.trans {s m n : State} (h : s.Reaches m) (h' : m.Reaches n) : s.Reaches n := by
  obtain ⟨front, hrest, hindex, hlast⟩ := h
  obtain ⟨back, hrest', hindex', hlast'⟩ := h'
  refine ⟨front ++ back, ?_, ?_, ?_⟩
  · rw [hrest, hrest', List.append_assoc]
  · rw [hindex', hindex, List.length_append, Nat.add_assoc]
  · rw [hlast', hlast, List.getLast?_append, Option.or_assoc]

/-- One token further on. -/
theorem reaches_advance (s : State) : s.Reaches s.advance := by
  unfold advance
  split
  · exact Reaches.refl s
  · rename_i t ts hrest
    exact ⟨[t], by simp [hrest]⟩

/-- Some tokens further on. -/
theorem reaches_skip (n : Nat) (s : State) : s.Reaches (s.skip n) := by
  induction n generalizing s with
  | zero => exact Reaches.refl s
  | succ n ih => exact (reaches_advance s).trans (ih s.advance)

/-- What is ahead of a reached state was ahead before. -/
theorem Reaches.mem_rest {s n : State} (h : s.Reaches n) {t : Token} (ht : t ∈ n.rest) :
    t ∈ s.rest := by
  obtain ⟨passed, hrest, -, -⟩ := h
  rw [hrest]
  exact List.mem_append_right passed ht

/-- A state without errors is the one at an offset, if the tokens behind begin before the offset
and those ahead do not. -/
theorem eq_stateAt {scan : Scan} {s : State} {offset : Nat} {front : List Token}
    (htokens : scan.tokens = front ++ s.rest) (hindex : s.index = front.length)
    (hlast : s.last = front.getLast?) (hsilent : s.errors = #[])
    (hfront : ∀ t ∈ front, t.span.start.offset < offset)
    (hrest : ∀ t ∈ s.rest, offset ≤ t.span.start.offset) :
    s = scan.stateAt s.depth offset := by
  have hcut : s.rest.takeWhile (·.span.start.offset < offset) = [] ∧
      s.rest.dropWhile (·.span.start.offset < offset) = s.rest := by
    cases hs : s.rest with
    | nil => simp
    | cons t ts =>
        have hle : offset ≤ t.span.start.offset := hrest t (by simp [hs])
        simp [Nat.not_lt.2 hle]
  have htake : scan.tokens.takeWhile (·.span.start.offset < offset) = front := by
    rw [htokens, List.takeWhile_append_of_pos (by simpa using hfront), hcut.1, List.append_nil]
  have hdrop : scan.tokens.dropWhile (·.span.start.offset < offset) = s.rest := by
    rw [htokens, List.dropWhile_append_of_pos (by simpa using hfront), hcut.2]
  unfold Scan.stateAt
  rw [htake, hdrop, ← hindex, ← hlast, ← hsilent]

variable {scan : Scan} {s : State}

/-- **A state on the way is known by where the token ahead begins.** -/
theorem eq_stateAt_start (hordered : Token.Ordered scan.tokens) (hreach : scan.atStart.Reaches s)
    (hsilent : s.errors = #[]) {t : Token} {ts : List Token} (hrest : s.rest = t :: ts) :
    s = scan.stateAt s.depth t.span.start.offset := by
  obtain ⟨front, htokens, hindex, hlast⟩ := hreach
  have htokens : scan.tokens = front ++ s.rest := htokens
  rw [htokens, hrest] at hordered
  refine eq_stateAt htokens (by simpa [Scan.atStart] using hindex)
    (by simpa [Scan.atStart] using hlast) hsilent ?_ ?_
  · intro t' ht'
    have hlt := hordered.nonempty t' (List.mem_append_left _ ht')
    have hle := hordered.stop_le_start t' ht' t List.mem_cons_self
    omega
  · intro t' ht'
    rw [hrest] at ht'
    rcases List.mem_cons.1 ht' with rfl | hlater
    · exact Nat.le_refl _
    · have hlt := hordered.nonempty t (by simp)
      have hback : Token.Ordered ((front ++ [t]) ++ ts) := by simpa using hordered
      have hle := hback.stop_le_start t (by simp) t' hlater
      omega

/-- **A state on the way is known by where the token behind ends.** -/
theorem eq_stateAt_stop (hordered : Token.Ordered scan.tokens) (hreach : scan.atStart.Reaches s)
    (hsilent : s.errors = #[]) {t : Token} (hlast : s.last = some t) :
    s = scan.stateAt s.depth t.span.stop.offset := by
  obtain ⟨front, htokens, hindex, hlast'⟩ := hreach
  have htokens : scan.tokens = front ++ s.rest := htokens
  have hfront : front.getLast? = some t := by simpa [Scan.atStart, hlast] using hlast'.symm
  rw [htokens] at hordered
  refine eq_stateAt htokens (by simpa [Scan.atStart] using hindex) (hlast.trans hfront.symm)
    hsilent ?_ ?_
  · intro t' ht'
    have hlt := hordered.nonempty t' (List.mem_append_left _ ht')
    have hle := hordered.stop_le_last hfront ht'
    omega
  · intro t' ht'
    exact hordered.stop_le_start t (List.mem_of_getLast? hfront) t' ht'

end Parser.State

end JavaOutline
