/-
**Errors of a configuration.**

What can be wrong with a command line or with preferences.  Each of these errors ends a run before
any source is read.

Main definitions:

* `ConfigError` — the errors;
* `ConfigError.message`, `ConfigError.code` — their texts and codes.
-/

import JavaOutline.Code

set_option autoImplicit false

namespace JavaOutline

/-- What can be wrong with a command line or with preferences. -/
inductive ConfigError where
  /-- The level of a verbosity flag is no number. -/
  | invalidVerbosity (flag value : String)
  /-- Nothing stands behind an option that takes a value. -/
  | missingValue (option : String)
  /-- An argument is neither an option nor a source. -/
  | unknownOption (option : String)
  /-- The sources are not in UTF-8. -/
  | unsupportedEncoding (encoding : String)
  /-- An option does not take this value. -/
  | invalidValue (option value : String)
  /-- The preferences could not be loaded. -/
  | preferences (message : String)
deriving DecidableEq, Repr, Inhabited

namespace ConfigError

/-- The text of the error. -/
def message : ConfigError → String
  | invalidVerbosity flag value =>
      "Invalid verbosity flag '" ++ flag ++ "': '" ++ value ++ "' is not a non-negative integer"
  | missingValue option => "Option '" ++ option ++ "' requires a value"
  | unknownOption option => "Unrecognized option '" ++ option ++ "'"
  | unsupportedEncoding encoding =>
      "Unsupported encoding '" ++ encoding ++ "', sources must be UTF-8"
  | invalidValue option value => "Invalid value '" ++ value ++ "' for option '" ++ option ++ "'"
  | preferences message => "Runtime preferences could not be loaded: " ++ message

/-- The code of the error. -/
def code : ConfigError → Code
  | invalidVerbosity _ _ => .invalidVerbosity
  | missingValue _ => .missingOptionValue
  | unknownOption _ => .unknownOption
  | unsupportedEncoding _ => .unsupportedEncoding
  | invalidValue _ _ => .invalidOptionValue
  | preferences _ => .invalidPreferences

end ConfigError

end JavaOutline
