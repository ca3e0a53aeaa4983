/-
**Reading TOML documents.**

A document is read line by line: headers begin tables, and the other lines give keys their values.
Values may be nested in brackets and braces up to a limit.

Main definitions:

* `Toml.Reader` — reading from the front of a text;
* `Toml.basicString`, `Toml.literalString` and their forms over several lines — quoted texts;
* `Toml.valueAt` — values, up to a level of nesting;
* `Toml.ofText?` — the table that a document writes.
-/

import JavaOutline.Toml.Scalar

set_option autoImplicit false

namespace JavaOutline

namespace Toml

/-- Reads something from the front of a text, or fails. -/
abbrev Reader (α : Type) : Type := StateT (List Char) Option α

namespace Reader

/-- The characters that are left. -/
def rest : Reader (List Char) := get

/-- Reads a character if it is the given one. -/
def accept (c : Char) : Reader Bool := fun text =>
  match text with
  | d :: tail => some (if d = c then (true, tail) else (false, text))
  | [] => some (false, text)

/-- Reads the given character. -/
def expect (c : Char) : Reader Unit := do
  if ← accept c then return () else failure

/-- Reads characters of a class. -/
def takeWhile (p : Char → Bool) : Reader (List Char) := fun text =>
  some (text.takeWhile p, text.dropWhile p)

/-- Reads by a function on texts. -/
def through {α : Type} (f : List Char → Option (α × List Char)) : Reader α := f

end Reader

open Reader

/-! ### Blanks, line ends and comments -/

/-- Blanks inside a line. -/
def isSpace (c : Char) : Bool := c == ' ' || c == '\t'

/-- Passes over blanks inside a line. -/
def spaces : Reader Unit := discard (takeWhile isSpace)

/-- Control characters other than the tabulator, which stand nowhere. -/
def isControl (c : Char) : Bool := (c.toNat < 32 && c != '\t') || c.toNat == 127

/-- What stands behind a line end at the front of a text. -/
def behindLineEnd? : List Char → Option (List Char)
  | '\n' :: rest => some rest
  | '\r' :: '\n' :: rest => some rest
  | _ => none

/-- Passes over a comment, if there is one. -/
def comment : Reader Unit := do
  if ← accept '#' then discard (takeWhile fun c => !isControl c)

/-- Passes over the end of a line, or ends at the end of the text. -/
def lineEnd : Reader Unit := fun text =>
  match text with
  | [] => some ((), [])
  | text => (behindLineEnd? text).map ((), ·)

/-- Passes over what may stand behind a value or a header. -/
def trailing : Reader Unit := do
  spaces
  comment
  lineEnd

/-- Passes over blanks, comments and line ends between the items of an array, of which there are at
most as many as characters. -/
def gap : Nat → Reader Unit
  | 0 => return ()
  | n + 1 => do
      spaces
      comment
      match behindLineEnd? (← rest) with
      | some behind => do
          set behind
          gap n
      | none => return ()

/-! ### Quoted texts -/

/-- The character with a number in hexadecimal digits. -/
def scalarValue? (digits : List Char) : Option Char := do
  let value ← digits.foldl
    (fun found c => do
      let value ← found
      let d ← digitValue? c
      return 16 * value + d)
    (some 0)
  if h : value.isValidChar then some (Char.ofNatAux value h) else none

/-- The character for a letter behind a backslash. -/
def escaped? (c : Char) : Option Char :=
  match c with
  | 'b' => some '\x08'
  | 't' => some '\t'
  | 'n' => some '\n'
  | 'f' => some '\x0c'
  | 'r' => some '\r'
  | '"' => some '"'
  | '\\' => some '\\'
  | _ => none

/-- An escape behind its backslash. -/
def escape? : List Char → Option (Char × List Char)
  | 'u' :: a :: b :: c :: d :: rest => (scalarValue? [a, b, c, d]).map (·, rest)
  | 'U' :: a :: b :: c :: d :: e :: f :: g :: h :: rest =>
      (scalarValue? [a, b, c, d, e, f, g, h]).map (·, rest)
  | c :: rest => (escaped? c).map (·, rest)
  | [] => none

/-- A text up to its closing quote, with escapes; at most as many turns as characters. -/
def basicString : Nat → List Char → Option (List Char × List Char)
  | 0, _ => none
  | n + 1, text =>
      match text with
      | [] => none
      | '"' :: rest => some ([], rest)
      | '\\' :: rest => do
          let (c, rest) ← escape? rest
          let (found, rest) ← basicString n rest
          return (c :: found, rest)
      | c :: rest =>
          if isControl c then none
          else (basicString n rest).map fun found => (c :: found.1, found.2)

/-- A text up to its closing apostrophe, without escapes. -/
def literalString : List Char → Option (List Char × List Char)
  | [] => none
  | c :: rest =>
      if c = '\x27' then some ([], rest)
      else if isControl c then none
      else (literalString rest).map fun found => (c :: found.1, found.2)

/-- The text behind blanks and line ends. -/
def behindBlankLines : List Char → List Char
  | '\r' :: '\n' :: rest => behindBlankLines rest
  | c :: rest => if isSpace c || c == '\n' then behindBlankLines rest else c :: rest
  | [] => []

/-- What stands behind a backslash at the end of a line: blanks and line ends are passed over, with
at least one line end. -/
def behindContinuation? (text : List Char) : Option (List Char) :=
  (behindLineEnd? (text.dropWhile isSpace)).map behindBlankLines

/-- The quotes inside a text over several lines that end it: how many of up to five belong to the
text, and what stands behind. -/
def closing? (quote : Char) (text : List Char) : Option (List Char × List Char) :=
  let count := min 5 (text.takeWhile (· == quote)).length
  if 3 ≤ count then some (List.replicate (count - 3) quote, text.drop count) else none

/-- A text over several lines with escapes; at most as many turns as characters. -/
def longBasicString : Nat → List Char → Option (List Char × List Char)
  | 0, _ => none
  | n + 1, text =>
      match closing? '"' text with
      | some found => some found
      | none =>
          match text with
          | [] => none
          | '\\' :: rest =>
              match behindContinuation? rest with
              | some rest => longBasicString n rest
              | none => do
                  let (c, rest) ← escape? rest
                  let (found, rest) ← longBasicString n rest
                  return (c :: found, rest)
          | c :: rest =>
              match behindLineEnd? text with
              | some behind => (longBasicString n behind).map fun found => ('\n' :: found.1, found.2)
              | none =>
                  if isControl c then none
                  else (longBasicString n rest).map fun found => (c :: found.1, found.2)

/-- A text over several lines without escapes; at most as many turns as characters. -/
def longLiteralString : Nat → List Char → Option (List Char × List Char)
  | 0, _ => none
  | n + 1, text =>
      match closing? '\x27' text with
      | some found => some found
      | none =>
          match text with
          | [] => none
          | c :: rest =>
              match behindLineEnd? text with
              | some behind =>
                  (longLiteralString n behind).map fun found => ('\n' :: found.1, found.2)
              | none =>
                  if isControl c then none
                  else (longLiteralString n rest).map fun found => (c :: found.1, found.2)

/-- A text without the line end in front of it. -/
def withoutLineEnd (text : List Char) : List Char := (behindLineEnd? text).getD text

/-- Reads a quoted text. -/
def quoted : Reader String := do
  let text ← rest
  let fuel := text.length + 1
  let chars ← through fun
    | '"' :: '"' :: '"' :: rest => longBasicString fuel (withoutLineEnd rest)
    | '\x27' :: '\x27' :: '\x27' :: rest => longLiteralString fuel (withoutLineEnd rest)
    | '"' :: rest => basicString fuel rest
    | '\x27' :: rest => literalString rest
    | _ => none
  return String.ofList chars

/-! ### Keys -/

/-- The deepest nesting, and the most parts of a key. -/
def nestingLimit : Nat := 80

/-- The characters of keys without quotes. -/
def isBareKey (c : Char) : Bool := c.isAlphanum || c == '_' || c == '-'

/-- Reads a part of a key. -/
def keyPart : Reader String := do
  match ← rest with
  | '"' :: tail => do
      let chars ← through fun _ => basicString (tail.length + 1) tail
      return String.ofList chars
  | '\x27' :: tail => do
      let chars ← through fun _ => literalString tail
      return String.ofList chars
  | _ => do
      let chars ← takeWhile isBareKey
      if chars.isEmpty then failure else return String.ofList chars

/-- Reads the parts of a key, and gives the last part by itself. -/
def keyParts : Nat → Reader (List String × String)
  | 0 => failure
  | n + 1 => do
      spaces
      let part ← keyPart
      spaces
      if ← accept '.' then
        let (path, last) ← keyParts n
        return (part :: path, last)
      else return ([], part)

/-- Reads a key with fewer parts than the limit. -/
def key : Reader (List String × String) := keyParts (nestingLimit - 1)

/-! ### Values -/

/-- The characters of words. -/
def isWordPart (c : Char) : Bool :=
  c.isAlphanum || c == '+' || c == '-' || c == '.' || c == '_' || c == ':'

/-- Reads a word.  A time may stand behind a date and a blank. -/
def scalar : Reader Toml := do
  let word ← takeWhile isWordPart
  if isDate word then
    match ← rest with
    | ' ' :: tail =>
        if isClock (tail.takeWhile isWordPart) then set (tail.dropWhile isWordPart)
        return .date
    | _ => return .date
  else
    match scalar? word with
    | some value => return value
    | none => failure

/-- Reads the items of an array up to its bracket, at most as many as characters. -/
def items (value : Reader Toml) : Nat → Reader (List Toml)
  | 0 => failure
  | n + 1 => do
      gap (← rest).length
      if ← accept ']' then return []
      let first ← value
      gap (← rest).length
      if ← accept ',' then
        let others ← items value n
        return first :: others
      else do
        expect ']'
        return [first]

/-- Reads a key with its value. -/
def pair (value : Reader Toml) : Reader ((List String × String) × Toml) := do
  let path ← key
  expect '='
  spaces
  let found ← value
  return (path, found)

/-- Reads the pairs between braces, at most as many as characters. -/
def pairs (value : Reader Toml) (entries : Entries) : Nat → Reader Entries
  | 0 => failure
  | n + 1 => do
      let ((path, last), found) ← pair value
      spaces
      match assign path last found .headed entries with
      | none => failure
      | some entries =>
          if ← accept ',' then pairs value entries n
          else do
            expect '\x7d'
            return entries

/-- Reads a value with at most so many levels of brackets and braces. -/
def valueAt : Nat → Reader Toml
  | 0 => do
      match ← rest with
      | '[' :: _ => failure
      | '\x7b' :: _ => failure
      | '"' :: _ => return .string (← quoted)
      | '\x27' :: _ => return .string (← quoted)
      | _ => scalar
  | n + 1 => do
      match ← rest with
      | '[' :: tail => do
          set tail
          return .array (← items (valueAt n) (tail.length + 1))
      | '\x7b' :: tail => do
          set tail
          spaces
          if ← accept '\x7d' then return .table .inline []
          else return .table .inline (← pairs (valueAt n) [] (tail.length + 1))
      | '"' :: _ => return .string (← quoted)
      | '\x27' :: _ => return .string (← quoted)
      | _ => scalar

/-- Reads a value. -/
def value : Reader Toml := valueAt (nestingLimit - 1)

/-! ### Documents -/

/-- What was read of a document. -/
structure Draft where
  root : Entries := []
  /-- The keys that lead to the table of the last header. -/
  here : List String := []

/-- Reads a header. -/
def header (draft : Draft) : Reader Draft := do
  expect '['
  let repeated ← accept '['
  let (path, last) ← key
  expect ']'
  if repeated then expect ']'
  trailing
  match if repeated then openItem path last draft.root else openTable path last draft.root with
  | some root => return { root, here := path ++ [last] }
  | none => failure

/-- Reads a line that gives a key its value. -/
def assignment (draft : Draft) : Reader Draft := do
  let ((path, last), found) ← pair value
  trailing
  match descend false (assign path last found) draft.here .headed draft.root with
  | some root => return { draft with root }
  | none => failure

/-- Reads lines, at most as many as characters. -/
def lines : Nat → Draft → Reader Draft
  | 0, _ => failure
  | n + 1, draft => do
      spaces
      match ← rest with
      | [] => return draft
      | '[' :: _ => lines n (← header draft)
      | '#' :: _ => do
          comment
          lineEnd
          lines n draft
      | text =>
          match behindLineEnd? text with
          | some behind => do
              set behind
              lines n draft
          | none => lines n (← assignment draft)

/-- The mark that may stand in front of a text. -/
def byteOrderMark : Char := '\uFEFF'

/-- The table that a document writes, or `none` if it is malformed. -/
def ofText? (text : String) : Option Entries :=
  let chars :=
    match text.toList with
    | c :: rest => if c = byteOrderMark then rest else c :: rest
    | [] => []
  ((lines (chars.length + 1) {}).run chars).map fun found => found.1.root

end Toml

end JavaOutline
