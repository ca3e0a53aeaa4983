/-
**Numbers, truth values and dates of TOML.**

A value that is neither quoted nor bracketed is a word.  What sort of value it is can be seen from
its characters alone.

Main definitions:

* `Toml.integer?` — integers of 64 bits in four bases;
* `Toml.isFloat` — decimal fractions within the range of binary64;
* `Toml.isDateTime`, `Toml.isTime` — dates and times of the calendar;
* `Toml.scalar?` — the value of a word.
-/

import JavaOutline.Text.Decimal
import JavaOutline.Toml

set_option autoImplicit false

namespace JavaOutline

namespace Toml

/-! ### Digits -/

/-- The value of a digit in bases up to sixteen. -/
def digitValue? (c : Char) : Option Nat :=
  if '0' ≤ c ∧ c ≤ '9' then some (c.toNat - '0'.toNat)
  else if 'a' ≤ c ∧ c ≤ 'f' then some (c.toNat - 'a'.toNat + 10)
  else if 'A' ≤ c ∧ c ≤ 'F' then some (c.toNat - 'A'.toNat + 10)
  else none

/-- The value of digits in a base.  There is at least one, and an underscore may stand between
two. -/
def number? (base : Nat) (digits : List Char) : Option Nat :=
  if (digits.splitOn '_').any List.isEmpty then none
  else
    (digits.filter (· != '_')).foldl
      (fun found c => do
        let value ← found
        let d ← (digitValue? c).filter (· < base)
        return base * value + d)
      (some 0)

/-- Decimal digits without a zero in front of others. -/
def decimal? (digits : List Char) : Option Nat :=
  match digits with
  | '0' :: _ :: _ => none
  | digits => number? 10 digits

/-- A sign in front of other characters: whether it is a minus, and the others. -/
def splitSign : List Char → Bool × List Char
  | '+' :: rest => (false, rest)
  | '-' :: rest => (true, rest)
  | rest => (false, rest)

/-! ### Integers -/

/-- The first number above those that integers reach. -/
def integerBound : Nat := 9223372036854775808

/-- An integer of 64 bits. -/
def integer? (word : List Char) : Option Int :=
  match word with
  | '0' :: 'x' :: digits => ((number? 16 digits).filter (· < integerBound)).map Int.ofNat
  | '0' :: 'o' :: digits => ((number? 8 digits).filter (· < integerBound)).map Int.ofNat
  | '0' :: 'b' :: digits => ((number? 2 digits).filter (· < integerBound)).map Int.ofNat
  | word =>
      let (negative, digits) := splitSign word
      match decimal? digits with
      | none => none
      | some value =>
          if negative then
            if value ≤ integerBound then some (-(value : Int)) else none
          else if value < integerBound then some value else none

/-! ### Fractions -/

/-- Whether `mantissa · 10 ^ exponent` is too large for binary64, where the largest number that is
not is half a unit below the limit. -/
def overflows (mantissa : Nat) (exponent : Int) : Bool :=
  let limit := Nat.pow 2 1024 - Nat.pow 2 970
  let digits := (Nat.toDigits 10 mantissa).length
  if mantissa = 0 then false
  else if (digits : Int) + exponent ≤ 308 then false
  else if 310 ≤ (digits : Int) + exponent then true
  else if 0 ≤ exponent then limit ≤ mantissa * Nat.pow 10 exponent.toNat
  else limit * Nat.pow 10 (-exponent).toNat ≤ mantissa

/-- The exponent behind its mark. -/
def exponent? (word : List Char) : Option Int :=
  let (negative, digits) := splitSign word
  (number? 10 digits).map fun value => if negative then -(value : Int) else value

/-- Whether characters without a sign are a decimal fraction that is not too large.  They have a
point with digits behind it, an exponent, or both. -/
def isFraction (negative : Bool) (word : List Char) : Bool :=
  let isMark (c : Char) : Bool := c == 'e' || c == 'E'
  let mantissa := word.takeWhile (!isMark ·)
  let exponent : Option (Option Int) :=
    match word.dropWhile (!isMark ·) with
    | [] => some none
    | _ :: tail => (exponent? tail).map some
  match exponent, mantissa.splitOn '.' with
  | some (some power), [whole] =>
      match decimal? whole with
      | some value => negative || !overflows value power
      | none => false
  | some power, [whole, part] =>
      match decimal? whole, number? 10 part, number? 10 (whole ++ part) with
      | some _, some _, some value =>
          let places := (part.filter (· != '_')).length
          negative || !overflows value (power.getD 0 - places)
      | _, _, _ => false
  | _, _ => false

/-- Whether a word is a decimal fraction, or one of the words for what is none. -/
def isFloat (word : List Char) : Bool :=
  let (negative, body) := splitSign word
  body == "inf".toList || body == "nan".toList || isFraction negative body

/-! ### Dates -/

/-- The value of a fixed number of decimal digits at the front, and what stands behind them. -/
def fixed? : Nat → Nat → List Char → Option (Nat × List Char)
  | 0, value, rest => some (value, rest)
  | n + 1, value, c :: rest =>
      match Text.digit? c with
      | some d => fixed? n (10 * value + d) rest
      | none => none
  | _ + 1, _, [] => none

/-- The number of days of a month. -/
def daysIn (year month : Nat) : Nat :=
  if month = 2 then
    if year % 4 = 0 ∧ (year % 100 ≠ 0 ∨ year % 400 = 0) then 29 else 28
  else if month = 4 ∨ month = 6 ∨ month = 9 ∨ month = 11 then 30
  else 31

/-- What stands behind a date of the calendar. -/
def date? (word : List Char) : Option (List Char) := do
  let (year, rest) ← fixed? 4 0 word
  let rest ← (match rest with | '-' :: rest => some rest | _ => none)
  let (month, rest) ← fixed? 2 0 rest
  let rest ← (match rest with | '-' :: rest => some rest | _ => none)
  let (day, rest) ← fixed? 2 0 rest
  if 1 ≤ month ∧ month ≤ 12 ∧ 1 ≤ day ∧ day ≤ daysIn year month then some rest else none

/-- What stands behind the fraction of a second, if there is one. -/
def secondFraction? : List Char → Option (List Char)
  | '.' :: rest =>
      match rest with
      | c :: _ =>
          if (Text.digit? c).isSome then some (rest.dropWhile fun c => (Text.digit? c).isSome)
          else none
      | [] => none
  | rest => some rest

/-- What stands behind an hour and a minute. -/
def hourMinute? (word : List Char) : Option (List Char) := do
  let (hour, rest) ← fixed? 2 0 word
  let rest ← (match rest with | ':' :: rest => some rest | _ => none)
  let (minute, rest) ← fixed? 2 0 rest
  if hour ≤ 23 ∧ minute ≤ 59 then some rest else none

/-- What stands behind a time of the day; a minute may have a leap second. -/
def time? (word : List Char) : Option (List Char) := do
  let rest ← hourMinute? word
  let rest ← (match rest with | ':' :: rest => some rest | _ => none)
  let (second, rest) ← fixed? 2 0 rest
  if second ≤ 60 then secondFraction? rest else none

/-- Whether characters are the distance to universal time, which may be missing. -/
def isOffset : List Char → Bool
  | [] => true
  | ['Z'] => true
  | ['z'] => true
  | '+' :: rest => hourMinute? rest == some []
  | '-' :: rest => hourMinute? rest == some []
  | _ => false

/-- Whether a word is a date. -/
def isDate (word : List Char) : Bool := date? word == some []

/-- Whether a word is a time with or without its distance to universal time. -/
def isClock (word : List Char) : Bool :=
  match time? word with
  | some rest => isOffset rest
  | none => false

/-- Whether a word is a date, a date and a time, or a time. -/
def isDateTime (word : List Char) : Bool :=
  time? word == some [] ||
    match date? word with
    | some [] => true
    | some ('T' :: rest) => isClock rest
    | some ('t' :: rest) => isClock rest
    | _ => false

/-! ### Words -/

/-- The value of a word. -/
def scalar? (word : List Char) : Option Toml :=
  if word = "true".toList then some (.boolean true)
  else if word = "false".toList then some (.boolean false)
  else if isDateTime word then some .date
  else if isFloat word then some .float
  else (integer? word).map Toml.integer

end Toml

end JavaOutline
