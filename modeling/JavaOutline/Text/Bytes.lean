/-
**Measuring and cutting texts by bytes.**

Offsets into a source count the bytes of its UTF-8 form, so a text is measured and cut in bytes
while it is read as a list of characters.  A clean cut is possible only between two characters; a
cut inside one leaves a remainder that begins with some of its bytes.

Main definitions:

* `Text.byteLength` — the number of bytes of a text;
* `Text.splitAtByte?` — the two parts of a text around a byte offset;
* `Text.slice?` — the part between two byte offsets;
* `Text.takeBytes` — the longest beginning that fits a number of bytes;
* `Text.Remainder`, `Text.dropBytes`, `Text.Remainder.drop` — what is left behind a number of bytes;
* `Text.between` — what is left between two byte offsets.

Main results:

* `Text.byteLength_append` — the measure is additive;
* `Text.splitAtByte?_byteLength` — a text can be cut behind any of its beginnings;
* `Text.byteLength_takeBytes_le` — the beginning taken fits;
* `Text.between_append` — the part of a text between two others is left whole.
-/

set_option autoImplicit false

namespace JavaOutline

namespace Text

/-! ### The measure -/

/-- The number of bytes of the UTF-8 form of the text. -/
def byteLength (text : List Char) : Nat :=
  text.foldl (fun total c => total + c.utf8Size) 0

theorem foldl_utf8Size (text : List Char) (n : Nat) :
    text.foldl (fun total c => total + c.utf8Size) n = n + byteLength text := by
  unfold byteLength
  induction text generalizing n with
  | nil => simp
  | cons c text ih =>
      rw [List.foldl_cons, List.foldl_cons, ih (n + c.utf8Size), ih (0 + c.utf8Size)]
      omega

@[simp] theorem byteLength_nil : byteLength [] = 0 := rfl

@[simp] theorem byteLength_cons (c : Char) (text : List Char) :
    byteLength (c :: text) = c.utf8Size + byteLength text := by
  rw [byteLength, List.foldl_cons, foldl_utf8Size]
  omega

/-- The measure is additive. -/
@[simp] theorem byteLength_append (front back : List Char) :
    byteLength (front ++ back) = byteLength front + byteLength back := by
  induction front with
  | nil => simp
  | cons c front ih => simp [ih]; omega

/-! ### Cutting -/

/-- The parts of the text before and from a byte offset, or `none` if the offset lies inside a
character or beyond the end. -/
def splitAtByte? : List Char → Nat → Option (List Char × List Char)
  | text, 0 => some ([], text)
  | [], _ + 1 => none
  | c :: text, n + 1 =>
      if c.utf8Size ≤ n + 1 then
        (splitAtByte? text (n + 1 - c.utf8Size)).map fun parts => (c :: parts.1, parts.2)
      else none

/-- The part of the text between two byte offsets, or `none` if they are out of order or one of
them does not lie between two characters. -/
def slice? (text : List Char) (start stop : Nat) : Option (List Char) :=
  if start ≤ stop then do
    let (_, tail) ← splitAtByte? text start
    let (part, _) ← splitAtByte? tail (stop - start)
    return part
  else none

/-- The longest beginning of the text that has at most so many bytes. -/
def takeBytes : Nat → List Char → List Char
  | _, [] => []
  | n, c :: text => if c.utf8Size ≤ n then c :: takeBytes (n - c.utf8Size) text else []

/-- What is left of a text behind a number of bytes: the end of a character that was cut, then
whole characters. -/
structure Remainder where
  /-- The number of bytes that are left of a character that was cut. -/
  cut : Nat
  /-- The characters behind them. -/
  text : List Char
deriving DecidableEq, Repr, Inhabited

/-- What is left of a text behind a number of bytes. -/
def dropBytes : Nat → List Char → Remainder
  | 0, text => ⟨0, text⟩
  | _ + 1, [] => ⟨0, []⟩
  | n + 1, c :: text =>
      if c.utf8Size ≤ n + 1 then dropBytes (n + 1 - c.utf8Size) text
      else ⟨c.utf8Size - (n + 1), text⟩

/-- What is left of a remainder behind a number of bytes. -/
def Remainder.drop (n : Nat) (r : Remainder) : Remainder :=
  if n ≤ r.cut then ⟨r.cut - n, r.text⟩ else dropBytes (n - r.cut) r.text

/-- What is left of a text from a byte offset on, up to another one. -/
def between (start stop : Nat) (text : List Char) : Remainder :=
  let r := dropBytes start text
  ⟨r.cut, takeBytes (stop - start - r.cut) r.text⟩

/-! ### Where cuts are possible -/

/-- A text can be cut behind any of its beginnings. -/
theorem splitAtByte?_byteLength (front back : List Char) :
    splitAtByte? (front ++ back) (byteLength front) = some (front, back) := by
  induction front with
  | nil => cases back <;> simp [splitAtByte?]
  | cons c front ih =>
      have hpos : 0 < c.utf8Size := Char.utf8Size_pos c
      obtain ⟨n, hn⟩ : ∃ n, c.utf8Size + byteLength front = n + 1 :=
        ⟨c.utf8Size + byteLength front - 1, by omega⟩
      have hle : c.utf8Size ≤ n + 1 := by omega
      have hrest : n + 1 - c.utf8Size = byteLength front := by omega
      simp [hn, splitAtByte?, hle, hrest, ih]

/-- The part of a text between two others is what their lengths cut out. -/
theorem slice?_append (front part back : List Char) :
    slice? (front ++ (part ++ back)) (byteLength front) (byteLength front + byteLength part) =
      some part := by
  simp [slice?, splitAtByte?_byteLength]

/-- The beginning that is taken fits. -/
theorem byteLength_takeBytes_le (n : Nat) (text : List Char) :
    byteLength (takeBytes n text) ≤ n := by
  induction text generalizing n with
  | nil => simp [takeBytes]
  | cons c text ih =>
      unfold takeBytes
      split
      · have := ih (n - c.utf8Size)
        simp only [byteLength_cons]
        omega
      · simp

/-- A beginning is taken whole by the number of its bytes. -/
theorem takeBytes_append (front back : List Char) :
    takeBytes (byteLength front) (front ++ back) = front := by
  induction front with
  | nil =>
      cases back with
      | nil => rfl
      | cons c back =>
          have := Char.utf8Size_pos c
          simp only [byteLength_nil, List.nil_append, takeBytes]
          rw [if_neg (by omega)]
  | cons c front ih =>
      simp only [byteLength_cons, List.cons_append, takeBytes]
      rw [if_pos (by omega), Nat.add_sub_cancel_left, ih]

/-- Behind the bytes of a beginning the rest of the text is left whole. -/
theorem dropBytes_append (front back : List Char) :
    dropBytes (byteLength front) (front ++ back) = ⟨0, back⟩ := by
  induction front with
  | nil => cases back <;> rfl
  | cons c front ih =>
      have hpos : 0 < c.utf8Size := Char.utf8Size_pos c
      obtain ⟨n, hn⟩ : ∃ n, c.utf8Size + byteLength front = n + 1 :=
        ⟨c.utf8Size + byteLength front - 1, by omega⟩
      have hrest : n + 1 - c.utf8Size = byteLength front := by omega
      rw [byteLength_cons, hn, List.cons_append, dropBytes, if_pos (by omega), hrest, ih]

/-- Behind the bytes of a beginning of a whole remainder the rest is left whole. -/
theorem Remainder.drop_append (front back : List Char) :
    Remainder.drop (byteLength front) ⟨0, front ++ back⟩ = ⟨0, back⟩ := by
  unfold Remainder.drop
  split
  · rename_i h
    cases front with
    | nil => rfl
    | cons c front =>
        have := Char.utf8Size_pos c
        simp only [byteLength_cons] at h
        omega
  · exact dropBytes_append front back

/-- Behind the bytes of its first character the rest of a text is left whole. -/
@[simp] theorem Remainder.drop_cons (c : Char) (text : List Char) :
    Remainder.drop c.utf8Size ⟨0, c :: text⟩ = ⟨0, text⟩ := by
  simpa using Remainder.drop_append [c] text

/-- The part of a text between two others is left whole. -/
theorem between_append (front part back : List Char) :
    between (byteLength front) (byteLength front + byteLength part) (front ++ (part ++ back)) =
      ⟨0, part⟩ := by
  simp [between, dropBytes_append, takeBytes_append]

end Text

end JavaOutline
