/-
**Front ends.**

What a batch needs from a front end: it reads the command line, parses sources into units, enters
their types, completes the batch with the sources that units refer to, and checks units.

Main definitions:

* `FrontEnd` — front ends with a state of their own.
-/

import JavaOutline.Log.Record
import JavaOutline.Options
import JavaOutline.Registry
import JavaOutline.SourceFile

set_option autoImplicit false

namespace JavaOutline

/-- A front end with a state. -/
structure FrontEnd (φ : Type) where
  /-- Reads the command line, and names the sources of the batch in order. -/
  configure : List String → φ → Logged (Except ConfigError (List SourceFile) × φ)
  /-- The options in force. -/
  options : φ → Options
  /-- Puts other options in force. -/
  setOptions : Options → φ → φ
  /-- Parses a source; on a diet the bodies are left for `process`. -/
  parse : SourceFile → UnitReport → Bool → φ → Logged (CompilationUnit × φ)
  /-- Enters the types of a unit. -/
  bind : CompilationUnit → φ → Logged (CompilationUnit × φ)
  /-- Resolves what the units of a batch refer to, and adds units as they are found. -/
  complete : Registry → φ → Logged (Registry × φ)
  /-- Parses the bodies of a unit at a place in the batch, and checks the unit. -/
  process : CompilationUnit → Nat → φ → Logged (CompilationUnit × φ)
  /-- The number of errors that belong to no parsed unit. -/
  globalErrors : φ → Nat

end JavaOutline
