/-
**Positions and spans of source text.**

A position is a byte offset together with the line and the column of the character that stands
there, both counted from one; a span runs from a position up to another.  Spans anchor tokens,
nodes of the outline and problems to the text they come from.

Main definitions:

* `Position`, `Position.start`, `Position.advance` — positions, the first one and the one behind a
  character;
* `Position.past` — the position behind a character of a source, where a carriage return ends a
  line only if no line feed follows;
* `Position.pastAll`, `Position.separatorsIn` — the position behind a text and the line separators
  inside it;
* `Span`, `Span.merge`, `Span.slice` — spans, the smallest span that covers two, and the text that
  a span covers.

Main results:

* `Position.pastAll_append` — walking over two texts is walking over one and then the other;
* `Position.offset_pastAll` — the offset grows by the number of bytes.
-/

import JavaOutline.Text.Bytes

set_option autoImplicit false

namespace JavaOutline

/-! ### Positions -/

/-- A place in a source text.

Lines and columns are counted without a bound here.  A count of 32 bits shows no difference: the limit on
the size of a source is at most 10^9 bytes however a build is configured, so there are fewer than 2^32
lines and columns. -/
structure Position where
  /-- The number of bytes in front of the place. -/
  offset : Nat := 0
  /-- The line, counted from one. -/
  line : Nat := 0
  /-- The column in characters, counted from one. -/
  column : Nat := 0
deriving DecidableEq, Repr, Inhabited

namespace Position

/-- The beginning of a text. -/
def start : Position := ⟨0, 1, 1⟩

/-- The position behind a character, where only a line feed ends a line. -/
def advance (p : Position) (c : Char) : Position :=
  if c = '\n' then ⟨p.offset + 1, p.line + 1, 1⟩
  else ⟨p.offset + c.utf8Size, p.line, p.column + 1⟩

/-- The position as it is shown to a reader: line and column. -/
def render (p : Position) : String :=
  toString p.line ++ ":" ++ toString p.column

/-- The order of positions: by offset, then by line, then by column. -/
def le (p q : Position) : Bool :=
  p.offset < q.offset ||
    (p.offset == q.offset && (p.line < q.line || (p.line == q.line && p.column ≤ q.column)))

/-! ### Walking over a source -/

/-- Whether a character, with the one behind it, ends a line: a line feed does, and a carriage
return that no line feed follows. -/
def endsLine (c : Char) (next : Option Char) : Bool :=
  c == '\n' || (c == '\r' && next != some '\n')

/-- The position behind a character of a source.  A carriage return in front of a line feed takes
one byte and no column. -/
def past (p : Position) (c : Char) (next : Option Char) : Position :=
  if endsLine c next then ⟨p.offset + 1, p.line + 1, 1⟩
  else if c = '\r' then ⟨p.offset + 1, p.line, p.column⟩
  else ⟨p.offset + c.utf8Size, p.line, p.column + 1⟩

/-- The position behind a text that `next` follows. -/
def pastAll (p : Position) : List Char → Option Char → Position
  | [], _ => p
  | c :: text, next => pastAll (p.past c (text.head?.or next)) text next

/-- The offsets of the line separators of a text that starts at a position and that `next`
follows. -/
def separatorsIn (p : Position) : List Char → Option Char → List Nat
  | [], _ => []
  | c :: text, next =>
      let following := text.head?.or next
      let later := separatorsIn (p.past c following) text next
      if endsLine c following then p.offset :: later else later

@[simp] theorem pastAll_nil (p : Position) (next : Option Char) : p.pastAll [] next = p := rfl

/-- Walking over two texts is walking over the first, which the second follows, and then over the
second. -/
theorem pastAll_append (p : Position) (front back : List Char) (next : Option Char) :
    p.pastAll (front ++ back) next = (p.pastAll front (back.head?.or next)).pastAll back next := by
  induction front generalizing p with
  | nil => rfl
  | cons c front ih =>
      have hhead : (front ++ back).head?.or next = front.head?.or (back.head?.or next) := by
        cases front <;> simp
      simp only [List.cons_append, pastAll, hhead, ih]

/-- The separators of two texts are those of the first, which the second follows, and then those
of the second. -/
theorem separatorsIn_append (p : Position) (front back : List Char) (next : Option Char) :
    p.separatorsIn (front ++ back) next =
      p.separatorsIn front (back.head?.or next) ++
        (p.pastAll front (back.head?.or next)).separatorsIn back next := by
  induction front generalizing p with
  | nil => rfl
  | cons c front ih =>
      have hhead : (front ++ back).head?.or next = front.head?.or (back.head?.or next) := by
        cases front <;> simp
      simp only [List.cons_append, separatorsIn, pastAll, hhead, ih]
      split <;> simp

/-- One character takes as many bytes as it has. -/
theorem offset_past (p : Position) (c : Char) (next : Option Char) :
    (p.past c next).offset = p.offset + c.utf8Size := by
  unfold past
  split
  · rename_i h
    have : c = '\n' ∨ c = '\r' := by
      simp only [endsLine, Bool.or_eq_true, Bool.and_eq_true, beq_iff_eq] at h
      exact h.imp id And.left
    rcases this with rfl | rfl <;> rfl
  · split
    · rename_i h
      subst h
      rfl
    · rfl

/-- The offset grows by the number of bytes of the text. -/
theorem offset_pastAll (p : Position) (text : List Char) (next : Option Char) :
    (p.pastAll text next).offset = p.offset + Text.byteLength text := by
  induction text generalizing p with
  | nil => simp
  | cons c text ih =>
      simp only [pastAll, ih, offset_past, Text.byteLength_cons]
      omega

end Position

/-! ### Spans -/

/-- The text from `start` up to `stop`.

That it does not stop in front of its start is checked where a span is made, but in debug builds only.
The check is no part of the model; the module `SoundSpans` shows that the spans of an outline have this
order. -/
structure Span where
  /-- Where the text begins. -/
  start : Position := {}
  /-- Where the text ends; the character that stands there is outside. -/
  stop : Position := {}
deriving DecidableEq, Repr, Inhabited

namespace Span

/-- The span of nodes that no text stands for. -/
def dummy : Span := {}

/-- The smallest span that covers two. -/
def merge (a b : Span) : Span where
  start := if a.start.offset ≤ b.start.offset then a.start else b.start
  stop := if b.stop.offset ≤ a.stop.offset then a.stop else b.stop

/-- The number of bytes covered. -/
def byteLength (s : Span) : Nat := s.stop.offset - s.start.offset

/-- Whether nothing is covered. -/
def isEmpty (s : Span) : Bool := s.byteLength == 0

/-- The text that the span covers, empty if the span does not fit the text. -/
def slice (s : Span) (text : String) : String :=
  match Text.slice? text.toList s.start.offset s.stop.offset with
  | some part => String.ofList part
  | none => ""

/-- The span as it is shown to a reader. -/
def render (s : Span) : String := s.start.render ++ "-" ++ s.stop.render

/-- Merging covers the first span. -/
theorem start_merge_le_left (a b : Span) : (a.merge b).start.offset ≤ a.start.offset := by
  simp only [merge]
  split <;> omega

/-- Merging covers the second span. -/
theorem le_stop_merge_right (a b : Span) : b.stop.offset ≤ (a.merge b).stop.offset := by
  simp only [merge]
  split <;> omega

end Span

end JavaOutline
