/-
**Scanning a source.**

A source is cut into pieces, one lexeme each, which lie side by side and cover it.  The tokens, the
lexical errors and the line separators of the source are read off the pieces.  A lexical error
stops nothing: a literal that is not closed still is a token, and a character that belongs to no
lexeme is passed over.

Main definitions:

* `LexicalError` — what can be wrong with a lexeme;
* `Piece` — a lexeme with its text and its place;
* `pieces` — the pieces of a text from a position on;
* `Scan` — the tokens, separators and errors of a source, and where it ends;
* `Scan.ofChars`, `Scan.ofText` — the scan of a text from a position on, and of a whole source.

Main results:

* `text_pieces` — **the pieces cover the text**: put side by side they give it back.
-/

import JavaOutline.Token.Lexeme

set_option autoImplicit false

namespace JavaOutline

/-! ### Lexical errors -/

/-- What can be wrong with a lexeme. -/
inductive LexicalError where
  | invalidCharacter (character : Char) (span : Span)
  | unterminatedString (span : Span)
  | unterminatedCharacter (span : Span)
  | unterminatedComment (span : Span)
deriving DecidableEq, Repr, Inhabited

namespace LexicalError

/-- The text of the error. -/
def message : LexicalError → String
  | invalidCharacter c _ => "Invalid character '" ++ String.singleton c ++ "'"
  | unterminatedString _ => "Unterminated string literal"
  | unterminatedCharacter _ => "Unterminated character literal"
  | unterminatedComment _ => "Unterminated comment"

/-- Where the error is. -/
def span : LexicalError → Span
  | invalidCharacter _ s => s
  | unterminatedString s => s
  | unterminatedCharacter s => s
  | unterminatedComment s => s

end LexicalError

/-! ### Pieces -/

/-- A lexeme in its place. -/
structure Piece where
  /-- What sort of lexeme it is. -/
  kind : Lexeme.Kind
  /-- Its characters. -/
  text : List Char
  /-- Where it stands. -/
  span : Span
  /-- The line separators inside it. -/
  separators : List Nat
deriving DecidableEq, Repr, Inhabited

namespace Piece

/-- The sort of token that a word is. -/
def wordKind (word : String) : Token.Kind :=
  if literalWords.contains word then .literal
  else if keywords.contains word then .keyword
  else .identifier

/-- The sort of token that the piece is, if it is one. -/
def tokenKind? (p : Piece) : Option Token.Kind :=
  match p.kind with
  | .string _ | .character _ | .number => some .literal
  | .word => some (wordKind (String.ofList p.text))
  | .operator => some .operator
  | .blank | .lineComment | .blockComment _ | .unknown => none

/-- The token that the piece is. -/
def token? (p : Piece) : Option Token :=
  p.tokenKind?.map fun kind => ⟨kind, String.ofList p.text, p.span⟩

/-- What is wrong with the piece. -/
def error? (p : Piece) : Option LexicalError :=
  match p.kind with
  | .blockComment false => some (.unterminatedComment p.span)
  | .string false => some (.unterminatedString p.span)
  | .character false => some (.unterminatedCharacter p.span)
  | .unknown => p.text.head?.map fun c => .invalidCharacter c p.span
  | _ => none

/-- The piece that the lexeme at the head of `c :: text` takes. -/
def atHead (place : Position) (c : Char) (text : List Char) : Piece :=
  let lexeme := Lexeme.atHead c text
  let taken := c :: text.take lexeme.extra
  let next := (text.drop lexeme.extra).head?
  { kind := lexeme.kind
    text := taken
    span := ⟨place, place.pastAll taken next⟩
    separators := place.separatorsIn taken next }

end Piece

/-- The pieces of a text from a position on, in reverse behind those found already, and the
position at its end.  Every piece takes a character, so `fuel` characters are enough of a bound. -/
def piecesLoop : Nat → Position → List Char → List Piece → List Piece × Position
  | fuel + 1, p, c :: text, found =>
      let piece := Piece.atHead p c text
      piecesLoop fuel piece.span.stop (text.drop (piece.text.length - 1)) (piece :: found)
  | _, p, _, found => (found, p)

/-- The pieces of a text from a position on, and the position at its end. -/
def pieces (p : Position) (text : List Char) : List Piece × Position :=
  let (found, stop) := piecesLoop text.length p text []
  (found.reverse, stop)

/-! ### Scans -/

/-- What scanning a source finds. -/
structure Scan where
  /-- The tokens in order. -/
  tokens : List Token
  /-- Where the text ends. -/
  finish : Position
  /-- The offsets of the line separators. -/
  separators : List Nat
  /-- The lexical errors in order. -/
  errors : List LexicalError
deriving DecidableEq, Repr, Inhabited

namespace Scan

/-- The scan of a text that starts at a position. -/
def ofChars (p : Position) (text : List Char) : Scan :=
  let (found, finish) := pieces p text
  { tokens := found.filterMap Piece.token?
    finish := finish
    separators := found.flatMap Piece.separators
    errors := found.filterMap Piece.error? }

/-- The scan of a whole source. -/
def ofText (source : String) : Scan :=
  ofChars Position.start source.toList

end Scan

/-! ### The pieces cover the text -/

/-- The length of the text of a piece at the head. -/
theorem Piece.length_text_atHead (p : Position) (c : Char) (text : List Char) :
    (Piece.atHead p c text).text.length - 1 = min (Lexeme.atHead c text).extra text.length := by
  simp [Piece.atHead]

/-- The piece at the head and what is left of the text make up the text. -/
theorem Piece.text_atHead_append (p : Position) (c : Char) (text : List Char) :
    (Piece.atHead p c text).text ++ text.drop ((Piece.atHead p c text).text.length - 1) =
      c :: text := by
  rw [Piece.length_text_atHead]
  simp only [Piece.atHead, List.cons_append, List.cons.injEq, true_and]
  have hdrop : text.drop (min (Lexeme.atHead c text).extra text.length) =
      text.drop (Lexeme.atHead c text).extra := by
    rcases Nat.le_total (Lexeme.atHead c text).extra text.length with h | h
    · rw [Nat.min_eq_left h]
    · rw [Nat.min_eq_right h, List.drop_length, List.drop_eq_nil_of_le h]
  rw [hdrop, List.take_append_drop]

theorem flatMap_text_piecesLoop (fuel : Nat) (p : Position) (text : List Char)
    (found : List Piece) (h : text.length ≤ fuel) :
    (piecesLoop fuel p text found).1.reverse.flatMap Piece.text =
      found.reverse.flatMap Piece.text ++ text := by
  induction fuel generalizing p text found with
  | zero =>
      have : text = [] := List.length_eq_zero_iff.1 (by omega)
      subst this
      simp [piecesLoop]
  | succ fuel ih =>
      cases text with
      | nil => simp [piecesLoop]
      | cons c text =>
          have hlen : (text.drop ((Piece.atHead p c text).text.length - 1)).length ≤ fuel := by
            rw [List.length_drop]
            have : (c :: text).length = text.length + 1 := rfl
            omega
          rw [piecesLoop, ih _ _ _ hlen]
          simp [List.append_assoc, Piece.text_atHead_append]

/-- **The pieces cover the text**: put side by side they give it back. -/
theorem text_pieces (p : Position) (text : List Char) :
    (pieces p text).1.flatMap Piece.text = text := by
  have := flatMap_text_piecesLoop text.length p text [] (Nat.le_refl _)
  simpa [pieces] using this

end JavaOutline
