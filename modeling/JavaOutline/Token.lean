/-
**Tokens.**

A token is a word, a literal or an operator of the source, with the text it was written with and
the span it covers.  White space and comments are no tokens, and the end of the text is none
either: a token list simply ends.

Main definitions:

* `Token.Kind`, `Token` — tokens;
* `Token.is` — the token is this keyword or operator;
* `Token.isIdentifier`, `Token.isTypeStart`, `Token.isKeyword` — the classes that the outline
  grammar asks for;
* `Token.opens`, `Token.closes` — brackets;
* `Token.join` — the texts of tokens, with one blank where the source has a gap.
-/

import JavaOutline.Span

set_option autoImplicit false

namespace JavaOutline

/-! ### The vocabulary of the language -/

/-- The reserved words. -/
def keywords : List String :=
  ["abstract", "assert", "boolean", "break", "byte", "case", "catch", "char", "class", "const",
   "continue", "default", "do", "double", "else", "enum", "extends", "final", "finally", "float",
   "for", "goto", "if", "implements", "import", "instanceof", "int", "interface", "long",
   "native", "new", "package", "private", "protected", "public", "return", "short", "static",
   "strictfp", "super", "switch", "synchronized", "this", "throw", "throws", "transient", "try",
   "void", "volatile", "while"]

/-- The words that are literals. -/
def literalWords : List String := ["true", "false", "null"]

/-- The keywords that name a type, `void` included. -/
def primitiveTypes : List String :=
  ["boolean", "byte", "char", "short", "int", "long", "float", "double", "void"]

/-- The operators and separators.  An operator stands in front of every operator that begins it,
so the first one that fits is the longest. -/
def operators : List String :=
  [">>>=", "<<=", "...", "->", "::", "==", "<=", ">=", "!=", "&&", "||", "++", "--", "+=", "-=",
   "*=", "/=", "&=", "|=", "^=", "%=", "<<", "(", ")", "\x7b", "\x7d", "[", "]", ";", ",", ".",
   "@", "=", ">", "<", "!", "~", "?", ":", "+", "-", "*", "/", "&", "|", "^", "%"]

/-! ### Tokens -/

/-- What sort of token it is. -/
inductive Token.Kind where
  | identifier
  | keyword
  | literal
  | operator
deriving DecidableEq, Repr, Inhabited

/-- A significant piece of the source. -/
structure Token where
  /-- What sort of token it is. -/
  kind : Token.Kind
  /-- The text as it was written. -/
  text : String
  /-- Where it was written. -/
  span : Span
deriving DecidableEq, Repr, Inhabited

namespace Token

/-- The token is the keyword or operator `text`. -/
def is (t : Token) (text : String) : Bool :=
  (t.kind == .operator || t.kind == .keyword) && t.text == text

/-- The token is one of these keywords and operators. -/
def isAny (t : Token) (texts : List String) : Bool :=
  texts.any t.is

/-- The token is an identifier. -/
def isIdentifier (t : Token) : Bool := t.kind == .identifier

/-- The token is a keyword. -/
def isKeyword (t : Token) : Bool := t.kind == .keyword

/-- The token is an identifier with this text. -/
def isName (t : Token) (name : String) : Bool := t.isIdentifier && t.text == name

/-- A type may begin with the token: an identifier or a primitive type. -/
def isTypeStart (t : Token) : Bool :=
  t.isIdentifier || (t.isKeyword && primitiveTypes.contains t.text)

/-- An opening bracket; angle brackets are none. -/
def opens (t : Token) : Bool := t.isAny ["(", "[", "\x7b"]

/-- A closing bracket; angle brackets are none. -/
def closes (t : Token) : Bool := t.isAny [")", "]", "\x7d"]

/-- The texts of the tokens behind a token that ends at byte `stop`. -/
def joinFrom (stop : Nat) : List Token → String
  | [] => ""
  | t :: ts =>
      (if stop < t.span.start.offset then " " else "") ++ t.text ++ joinFrom t.span.stop.offset ts

/-- The texts of the tokens, with one blank between two tokens that do not touch. -/
def join : List Token → String
  | [] => ""
  | t :: ts => t.text ++ joinFrom t.span.stop.offset ts

@[simp] theorem join_nil : join [] = "" := rfl

@[simp] theorem join_singleton (t : Token) : join [t] = t.text := by
  simp [join, joinFrom]

/-- A token that is some keyword or operator has that text. -/
theorem text_of_is {t : Token} {text : String} (h : t.is text = true) : t.text = text := by
  simp only [is, Bool.and_eq_true, beq_iff_eq] at h
  exact h.2

end Token

end JavaOutline
