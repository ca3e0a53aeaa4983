/-
**Writing JSON.**

Structured log lines, exported trees and listings of outlines are JSON texts, either on one line or
indented by two blanks for each level.

Main definitions:

* `JsonValue`, `JsonField` — JSON values;
* `JsonValue.optional`, `JsonValue.texts`, `JsonValue.numbers` — values for what may be missing and
  for lists;
* `JsonValue.quote` — a text between quotes;
* `JsonValue.compact`, `JsonValue.pretty` — the two layouts.
-/

set_option autoImplicit false

namespace JavaOutline

mutual

/-- A JSON value. -/
inductive JsonValue where
  | null
  | bool (value : Bool)
  | number (value : Nat)
  | text (value : String)
  | array (items : List JsonValue)
  | object (fields : List JsonField)

/-- A field of an object. -/
structure JsonField where
  key : String
  value : JsonValue

end

namespace JsonValue

/-! ### Values -/

/-- The value for something that may be missing. -/
def optional {α : Type} (value : α → JsonValue) : Option α → JsonValue
  | none => null
  | some a => value a

/-- Texts in order. -/
def texts (items : List String) : JsonValue := array (items.map text)

/-- Numbers in order. -/
def numbers (items : List Nat) : JsonValue := array (items.map number)

/-! ### Texts -/

/-- The hexadecimal digit for a number below sixteen. -/
def hexDigit (n : Nat) : Char :=
  if n < 10 then Char.ofNat (n + '0'.toNat) else Char.ofNat (n - 10 + 'a'.toNat)

/-- A character inside quotes.  Quotes, backslashes and control characters are escaped. -/
def escape (c : Char) : List Char :=
  if c = '"' then ['\\', '"']
  else if c = '\\' then ['\\', '\\']
  else if c = '\x08' then ['\\', 'b']
  else if c = '\x0c' then ['\\', 'f']
  else if c = '\n' then ['\\', 'n']
  else if c = '\r' then ['\\', 'r']
  else if c = '\t' then ['\\', 't']
  else if c.toNat < 32 then
    ['\\', 'u', '0', '0', hexDigit (c.toNat / 16), hexDigit (c.toNat % 16)]
  else [c]

/-- A text between quotes. -/
def quote (text : String) : String :=
  String.ofList ('"' :: text.toList.flatMap escape ++ ['"'])

/-! ### One line -/

mutual

/-- The value on one line. -/
def compact : JsonValue → String
  | null => "null"
  | bool value => if value then "true" else "false"
  | number value => toString value
  | text value => quote value
  | array items => "[" ++ ",".intercalate (compactItems items) ++ "]"
  | object fields => "\x7b" ++ ",".intercalate (compactFields fields) ++ "\x7d"

/-- The items of an array, each on one line. -/
def compactItems : List JsonValue → List String
  | [] => []
  | item :: items => compact item :: compactItems items

/-- The fields of an object, each on one line. -/
def compactFields : List JsonField → List String
  | [] => []
  | ⟨key, value⟩ :: fields => (quote key ++ ":" ++ compact value) :: compactFields fields

end

/-! ### Indented -/

/-- The line break in front of something at a level. -/
def lineBreak (level : Nat) : String := "\n" ++ String.ofList (List.replicate (2 * level) ' ')

/-- Things between two brackets, each on lines of its own. -/
def bracket (opening closing : String) (level : Nat) (parts : List String) : String :=
  match parts with
  | [] => opening ++ closing
  | parts =>
      opening ++ lineBreak (level + 1) ++ ("," ++ lineBreak (level + 1)).intercalate parts ++
        lineBreak level ++ closing

mutual

/-- The value with its parts on lines of their own, at a level of indentation. -/
def prettyAt (level : Nat) : JsonValue → String
  | null => "null"
  | bool value => if value then "true" else "false"
  | number value => toString value
  | text value => quote value
  | array items => bracket "[" "]" level (prettyItems (level + 1) items)
  | object fields => bracket "\x7b" "\x7d" level (prettyFields (level + 1) fields)

/-- The items of an array at a level of indentation. -/
def prettyItems (level : Nat) : List JsonValue → List String
  | [] => []
  | item :: items => prettyAt level item :: prettyItems level items

/-- The fields of an object at a level of indentation. -/
def prettyFields (level : Nat) : List JsonField → List String
  | [] => []
  | ⟨key, value⟩ :: fields =>
      (quote key ++ ": " ++ prettyAt level value) :: prettyFields level fields

end

/-- The value with its parts on lines of their own. -/
def pretty (value : JsonValue) : String := prettyAt 0 value

end JsonValue

end JavaOutline
