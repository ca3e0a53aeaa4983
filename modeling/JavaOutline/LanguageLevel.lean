/-
**Language levels.**

The level of the language that the sources are written in, as it is named on the command line and
as it is passed on.

Main definitions:

* `LanguageLevel` — the levels;
* `LanguageLevel.ofOption?` — the level that a value names;
* `LanguageLevel.tag` — the name under which a level is passed on.
-/

import JavaOutline.Text.Blank

set_option autoImplicit false

namespace JavaOutline

/-- A level of the language. -/
inductive LanguageLevel where
  | jdk1
  | jdk2
  | jdk3
  | jdk4
  | jdk5
  | jdk6
  | jdk7
  | jdk8
  | unknown
deriving DecidableEq, Repr, Inhabited

namespace LanguageLevel

/-- The level that a value names, with blanks around it or not. -/
def ofOption? (value : String) : Option LanguageLevel :=
  let word := Text.trim value
  if ["1.1", "1"].contains word then some jdk1
  else if ["1.2", "2"].contains word then some jdk2
  else if ["1.3", "3"].contains word then some jdk3
  else if ["1.4", "4"].contains word then some jdk4
  else if ["1.5", "5", "5.0"].contains word then some jdk5
  else if ["1.6", "6", "6.0"].contains word then some jdk6
  else if ["1.7", "7", "7.0"].contains word then some jdk7
  else if ["1.8", "8", "8.0"].contains word then some jdk8
  else none

/-- The name under which the level is passed on. -/
def tag : LanguageLevel → String
  | jdk1 => "JDK1_1"
  | jdk2 => "JDK1_2"
  | jdk3 => "JDK1_3"
  | jdk4 => "JDK1_4"
  | jdk5 => "JDK1_5"
  | jdk6 => "JDK1_6"
  | jdk7 => "JDK1_7"
  | jdk8 => "JDK1_8"
  | unknown => "???"

/-- The level of sources for which none is named. -/
def standard : LanguageLevel := jdk8

end LanguageLevel

end JavaOutline
