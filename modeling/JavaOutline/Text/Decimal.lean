/-
**Reading decimal numbers.**

Numbers on the command line and in the environment are written with ASCII digits, after an optional
plus sign, and must fit a fixed number of bits.

Main definitions:

* `Text.digits?` — the value of a non-empty text of digits;
* `Text.natBelow?` — a number below a bound, with or without a plus sign;
* `Text.word32?`, `Text.word64?` — the two bounds in use.

Main results:

* `Text.natBelow?_lt` — what is read stays below the bound.
-/

set_option autoImplicit false

namespace JavaOutline

namespace Text

/-- The value of an ASCII digit. -/
def digit? (c : Char) : Option Nat :=
  if '0' ≤ c ∧ c ≤ '9' then some (c.toNat - '0'.toNat) else none

/-- The value of a text of ASCII digits, behind digits that are worth `value` already. -/
def digitsFrom? (value : Nat) : List Char → Option Nat
  | [] => some value
  | c :: text =>
      match digit? c with
      | some d => digitsFrom? (10 * value + d) text
      | none => none

/-- The value of a non-empty text of ASCII digits. -/
def digits? : List Char → Option Nat
  | [] => none
  | text => digitsFrom? 0 text

/-- The number that a text writes, with or without a plus sign in front, if it is below `bound`. -/
def natBelow? (bound : Nat) (text : String) : Option Nat :=
  let body :=
    match text.toList with
    | '+' :: rest => rest
    | rest => rest
  (digits? body).filter (· < bound)

/-- A number of at most 32 bits. -/
def word32? (text : String) : Option Nat :=
  natBelow? 4294967296 text

/-- A number of at most 64 bits. -/
def word64? (text : String) : Option Nat :=
  natBelow? 18446744073709551616 text

/-- What is read stays below the bound. -/
theorem natBelow?_lt {bound n : Nat} {text : String} (h : natBelow? bound text = some n) :
    n < bound := by
  have := (Option.filter_eq_some_iff.1 h).2
  simpa using this

end Text

end JavaOutline
