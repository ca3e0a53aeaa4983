/-
**The lexeme at the head of a text.**

A text is cut into lexemes: blanks, comments, literals, words, operators and characters that belong
to nothing.  Which lexeme stands at the head of a text, and how many characters it takes, depends
on the text alone and not on where it stands, so this module knows no positions.

Main definitions:

* `Lexeme.Kind` — the sorts of lexemes; comments and quoted literals say whether they are closed;
* `Lexeme` — a sort and the number of characters behind the first one;
* `Lexeme.atHead` — the lexeme at the head of a text;
* `Lexeme.commentTail`, `Lexeme.quotedTail`, `Lexeme.textBlockTail`, `Lexeme.numberTail`,
  `Lexeme.operatorAt?` — how far each sort reaches.
-/

import JavaOutline.Text.Blank
import JavaOutline.Text.Letter
import JavaOutline.Token

set_option autoImplicit false

namespace JavaOutline

/-- The sorts of lexemes. -/
inductive Lexeme.Kind where
  /-- One blank. -/
  | blank
  /-- A comment up to the end of the line. -/
  | lineComment
  /-- A bracketed comment. -/
  | blockComment (closed : Bool)
  /-- A string or a text block. -/
  | string (closed : Bool)
  /-- A character literal. -/
  | character (closed : Bool)
  /-- A number. -/
  | number
  /-- An identifier, a keyword or a literal word. -/
  | word
  /-- An operator or separator. -/
  | operator
  /-- A character that begins no lexeme. -/
  | unknown
deriving DecidableEq, Repr, Inhabited

/-- A lexeme at the head of a text. -/
structure Lexeme where
  /-- What sort of lexeme it is. -/
  kind : Lexeme.Kind
  /-- How many characters it takes behind its first one. -/
  extra : Nat
deriving DecidableEq, Repr, Inhabited

namespace Lexeme

/-! ### Comments -/

/-- The length of a comment behind its opening, and whether it is closed. -/
def commentTail (count : Nat) : List Char → Nat × Bool
  | [] => (count, false)
  | '*' :: '/' :: _ => (count + 2, true)
  | _ :: text => commentTail (count + 1) text

/-! ### Quoted literals -/

/-- A character that a quoted literal cannot run across. -/
def isLineEnd (c : Char) : Bool := c == '\n' || c == '\r'

/-- The length of a literal behind its opening quote, and whether the quote is closed on the same
line.  A backslash takes the character behind it along. -/
def quotedTail (quote : Char) (count : Nat) : List Char → Nat × Bool
  | [] => (count, false)
  | [c] =>
      if c = quote then (count + 1, true)
      else if isLineEnd c then (count, false)
      else (count + 1, false)
  | c :: d :: text =>
      if c = quote then (count + 1, true)
      else if isLineEnd c then (count, false)
      else if c = '\\' then
        if isLineEnd d then (count + 1, false) else quotedTail quote (count + 2) text
      else quotedTail quote (count + 1) (d :: text)

/-- Whether three double quotes stand at the head. -/
def atTripleQuote : List Char → Bool
  | '"' :: '"' :: '"' :: _ => true
  | _ => false

/-- The length of a text block behind its opening, and whether it is closed.  A backslash takes
the character behind it along, whatever it is. -/
def textBlockTail (count : Nat) : List Char → Nat × Bool
  | [] => (count, false)
  | c :: text =>
      if atTripleQuote (c :: text) then (count + 3, true)
      else if c = '\\' then
        match text with
        | [] => (count + 1, false)
        | _ :: text => textBlockTail (count + 2) text
      else textBlockTail (count + 1) text

/-! ### Numbers -/

/-- Whether a sign continues a number behind `previous`: it belongs to an exponent.  The letter `e`
is a digit of a hexadecimal number, so there only `p` begins an exponent. -/
def isExponentSign (hex : Bool) (previous c : Char) : Bool :=
  (c == '+' || c == '-') &&
    (previous == 'p' || previous == 'P' || (!hex && (previous == 'e' || previous == 'E')))

/-- The length of a number behind `previous`.  Two points in a row end it. -/
def numberTail (hex : Bool) (previous : Char) (count : Nat) : List Char → Nat
  | [] => count
  | c :: text =>
      if Text.isAsciiAlphanumeric c || c == '_' || c == '.' || isExponentSign hex previous c then
        if c == '.' && text.head? == some '.' then count
        else numberTail hex c (count + 1) text
      else count

/-- Whether the mark of a hexadecimal number stands at the head. -/
def atHexMark : List Char → Bool
  | '0' :: c :: _ => c == 'x' || c == 'X'
  | _ => false

/-! ### Words and operators -/

/-- A character that a word may begin with. -/
def isWordStart (c : Char) : Bool := Text.isAlphabetic c || c == '_' || c == '$'

/-- A character that a word may go on with. -/
def isWordPart (c : Char) : Bool := Text.isAlphanumeric c || c == '_' || c == '$'

/-- The operator at the head of a text.  A closing angle bracket stands alone unless it is `>=`, so
that nested type arguments close one at a time. -/
def operatorAt? : List Char → Option String
  | '>' :: '=' :: _ => some ">="
  | '>' :: _ => some ">"
  | text => operators.find? fun op => op.toList.isPrefixOf text

/-! ### The lexeme at the head -/

/-- The lexeme at the head of a text that begins with `c`. -/
def atHead (c : Char) (text : List Char) : Lexeme :=
  if Text.isBlank c then ⟨.blank, 0⟩
  else if c = '/' ∧ text.head? = some '/' then
    ⟨.lineComment, (text.takeWhile fun d => !isLineEnd d).length⟩
  else if c = '/' ∧ text.head? = some '*' then
    let (extra, closed) := commentTail 1 text.tail
    ⟨.blockComment closed, extra⟩
  else if c = '"' then
    if atTripleQuote (c :: text) then
      let (extra, closed) := textBlockTail 2 (text.drop 2)
      ⟨.string closed, extra⟩
    else
      let (extra, closed) := quotedTail '"' 0 text
      ⟨.string closed, extra⟩
  else if c = '\x27' then
    let (extra, closed) := quotedTail '\x27' 0 text
    ⟨.character closed, extra⟩
  else if Text.isAsciiDigit c || (c == '.' && text.head?.any Text.isAsciiDigit) then
    ⟨.number, numberTail (atHexMark (c :: text)) c 0 text⟩
  else if isWordStart c then ⟨.word, (text.takeWhile isWordPart).length⟩
  else
    match operatorAt? (c :: text) with
    | some op => ⟨.operator, op.length - 1⟩
    | none => ⟨.unknown, 0⟩

end Lexeme

end JavaOutline
