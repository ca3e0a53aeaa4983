/-
**Scanning a part of a source.**

A part of a source is scanned from a position up to a byte offset, and its places are those of the
whole source.  If the part begins between two characters this is the scan of its characters.  If it
begins inside one, the characters behind it are read but places are still counted from the given
offset, so every place lags behind the character read there.  What is copied or compared as a text
of the source is then taken at the place: the text of a token, the quotes around a text block, the
mark of a hexadecimal number and the operator.

Main definitions:

* `Lexeme.lagging` — the lexeme at the head, read with the text at its place;
* `Piece.lagging` — the piece that it takes;
* `Scan.ofRange` — the scan of a part of a source.

Main results:

* `Lexeme.lagging_whole` — **with no lag this is the lexeme at the head**;
* `Scan.ofRange_append` — **a part between two others is scanned by itself**.
-/

import JavaOutline.Token.Scan

set_option autoImplicit false

namespace JavaOutline

open Text (Remainder)

/-! ### Lexemes -/

namespace Lexeme

/-- The length of a text block behind its opening, and whether it is closed.  Quotes are looked for
at the place, `shown`, and characters are read from the text; `escaped` says that a backslash takes
the next one along. -/
def laggingBlockTail (escaped : Bool) (count : Nat) (shown : Remainder) :
    List Char → Nat × Bool
  | [] => if atTripleQuote shown.text then (count + 3, true) else (count, false)
  | c :: text =>
      if !escaped && atTripleQuote shown.text then (count + 3, true)
      else laggingBlockTail (!escaped && c == '\\') (count + 1) (shown.drop c.utf8Size) text

/-- The operator at a place where `c` is read. -/
def laggingOperator? (c : Char) (shown : List Char) : Option String :=
  if ">=".toList.isPrefixOf shown then some ">="
  else if c = '>' then some ">"
  else operators.find? fun op => op.toList.isPrefixOf shown

/-- The lexeme at the head of a text that begins with `c`, at a place where `shown` is left of the
source.  The characters read decide its sort, and the source at the place how far strings, numbers
and operators reach. -/
def lagging (shown : Remainder) (c : Char) (text : List Char) : Lexeme :=
  let lexeme := atHead c text
  match lexeme.kind with
  | .string _ =>
      let (extra, closed) :=
        if atTripleQuote shown.text then
          laggingBlockTail false 2 (shown.drop (Text.byteLength (c :: text.take 2)))
            (text.drop 2)
        else quotedTail '"' 0 text
      ⟨.string closed, extra⟩
  | .number => ⟨.number, numberTail (atHexMark shown.text) c 0 text⟩
  | .operator | .unknown =>
      match laggingOperator? c shown.text with
      | some op => ⟨.operator, op.length - 1⟩
      | none => ⟨.unknown, 0⟩
  | _ => lexeme

end Lexeme

/-! ### Pieces -/

/-- The piece that the lexeme at the head of `c :: text` takes, at a place where `shown` is left of
the source. -/
def Piece.lagging (place : Position) (shown : Remainder) (c : Char) (text : List Char) : Piece :=
  let lexeme := Lexeme.lagging shown c text
  let taken := c :: text.take lexeme.extra
  let next := (text.drop lexeme.extra).head?
  { kind := lexeme.kind
    text := taken
    span := ⟨place, place.pastAll taken next⟩
    separators := place.separatorsIn taken next }

/-- The piece with the text that the source shows at its place. -/
def Piece.showing (shown : Remainder) (p : Piece) : Piece :=
  { p with text := Text.takeBytes (Text.byteLength p.text) shown.text }

/-- The pieces of a text from a position on, as they are read and as the source shows them, in
reverse behind those found already, and the position at its end.  Every piece takes a character, so
`fuel` characters are enough of a bound. -/
def laggingPieces :
    Nat → Position → Remainder → List Char → List (Piece × Piece) → List (Piece × Piece) × Position
  | fuel + 1, p, shown, c :: text, found =>
      let piece := Piece.lagging p shown c text
      laggingPieces fuel piece.span.stop (shown.drop (Text.byteLength piece.text))
        (text.drop (piece.text.length - 1)) ((piece, piece.showing shown) :: found)
  | _, p, _, _, found => (found, p)

/-! ### Scans -/

namespace Scan

/-- The scan of what is left of a source whose places lag behind its characters: the errors are
those of the characters read, the tokens have the texts that the source shows. -/
def ofRemainder (p : Position) (part : Remainder) : Scan :=
  let (found, finish) := laggingPieces part.text.length p part part.text []
  let found := found.reverse
  { tokens := found.filterMap fun pair => pair.2.token?
    finish := finish
    separators := found.flatMap fun pair => pair.1.separators
    errors := found.filterMap fun pair => pair.1.error? }

/-- The scan of the part of a source from a position up to a byte offset. -/
def ofRange (source : List Char) (start : Position) (stop : Nat) : Scan :=
  let part := Text.between start.offset stop source
  if part.cut = 0 then ofChars start part.text else ofRemainder start part

/-- **A part between two others is scanned by itself**, from its position on. -/
theorem ofRange_append (front part back : List Char) (p : Position)
    (h : p.offset = Text.byteLength front) :
    ofRange (front ++ (part ++ back)) p (p.offset + Text.byteLength part) = ofChars p part := by
  simp [ofRange, h, Text.between_append]

end Scan

/-! ### Without a lag -/

namespace Lexeme

theorem laggingBlockTail_whole (count : Nat) (text : List Char) :
    laggingBlockTail false count ⟨0, text⟩ text = textBlockTail count text := by
  fun_induction textBlockTail count text with
  | case1 => rfl
  | case2 count c text h => simp [laggingBlockTail, h]
  | case3 count _ => simp [laggingBlockTail, atTripleQuote]
  | case4 count c text h ih => simp [laggingBlockTail, h, ih]
  | case5 count c text h hc ih =>
      have hplain : (c == '\\') = false := by simpa using hc
      simp [laggingBlockTail, h, hplain, ih]

theorem laggingOperator?_whole (c : Char) (text : List Char) :
    laggingOperator? c (c :: text) = operatorAt? (c :: text) := by
  have hmark : ">=".toList = ['>', '='] := rfl
  rw [laggingOperator?, hmark]
  by_cases hc : c = '>'
  · subst hc
    cases text with
    | nil => rfl
    | cons d text =>
        by_cases hd : d = '='
        · subst hd
          simp [List.isPrefixOf, operatorAt?]
        · simp [List.isPrefixOf, operatorAt?, hd, Ne.symm hd]
  · simp [List.isPrefixOf, operatorAt?, hc, Ne.symm hc]

/-- **With no lag this is the lexeme at the head.** -/
theorem lagging_whole (c : Char) (text : List Char) :
    lagging ⟨0, c :: text⟩ c text = atHead c text := by
  have hdrop : Remainder.drop (Text.byteLength (c :: text.take 2)) ⟨0, c :: text⟩ =
      ⟨0, text.drop 2⟩ := by
    have := Remainder.drop_append (c :: text.take 2) (text.drop 2)
    rwa [List.cons_append, List.take_append_drop] at this
  unfold lagging
  simp only [laggingOperator?_whole, hdrop, laggingBlockTail_whole]
  unfold atHead
  by_cases hblank : Text.isBlank c = true
  · simp only [if_pos hblank]
  simp only [if_neg hblank]
  by_cases hline : c = '/' ∧ text.head? = some '/'
  · simp only [if_pos hline]
  simp only [if_neg hline]
  by_cases hcomment : c = '/' ∧ text.head? = some '*'
  · simp only [if_pos hcomment]
  simp only [if_neg hcomment]
  by_cases hstring : c = '"'
  · by_cases hblock : atTripleQuote (c :: text) = true
    · simp only [if_pos hstring, if_pos hblock]
    · simp only [if_pos hstring, if_neg hblock]
  simp only [if_neg hstring]
  by_cases hcharacter : c = '\x27'
  · simp only [if_pos hcharacter]
  simp only [if_neg hcharacter]
  by_cases hnumber : (Text.isAsciiDigit c || (c == '.' && text.head?.any Text.isAsciiDigit)) = true
  · simp only [if_pos hnumber]
  simp only [if_neg hnumber]
  by_cases hword : isWordStart c = true
  · simp only [if_pos hword]
  simp only [if_neg hword]
  cases operatorAt? (c :: text) <;> rfl

end Lexeme

end JavaOutline
