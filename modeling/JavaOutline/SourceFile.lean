/-
**Sources of a batch.**

A source is read at most once: what reading gave, a text or an error, is kept until it is dropped.
A source that is larger than a limit is not read.

Main definitions:

* `SourceReadError` — why a source cannot be read;
* `SourceFile` — a source, read or not;
* `SourceFile.load`, `SourceFile.contents` — reading it.

Main results:

* `SourceFile.load_load` — a source is read at most once;
* `SourceFile.contents_load` — reading ahead with the same limit changes no answer.
-/

import JavaOutline.CompilationUnit
import JavaOutline.FileTree

set_option autoImplicit false

namespace JavaOutline

/-- The size of the largest source that is read when nothing is said. -/
def standardSizeLimit : Nat := 20971520

/-- Why a source cannot be read. -/
inductive SourceReadError where
  | unreadable (path : String) (error : FileError)
  | tooLarge (path : String) (size limit : Nat)
deriving DecidableEq, Repr, Inhabited

namespace SourceReadError

/-- The text of the error. -/
def message : SourceReadError → String
  | unreadable path error => "Cannot read source '" ++ path ++ "': " ++ error.message
  | tooLarge path size limit =>
      "Source '" ++ path ++ "' is " ++ toString size ++ " bytes (limit " ++ toString limit ++ ")"

/-- The code of the error. -/
def code : SourceReadError → Code
  | unreadable _ _ => .sourceReadFailure
  | tooLarge _ _ _ => .sourceTooLarge

end SourceReadError

/-- The text of the source at a path, which must not be larger than a limit. -/
def FileTree.readSource (tree : FileTree) (path : String) (limit : Nat) :
    Except SourceReadError String :=
  match tree.size path with
  | .error e => .error (.unreadable path e)
  | .ok size =>
      if limit < size then .error (.tooLarge path size limit)
      else
        match tree.read path with
        | .ok text => .ok text
        | .error e => .error (.unreadable path e)

/-- A source of a batch. -/
structure SourceFile where
  /-- The name as it was given, which is also the path. -/
  file : String
  origin : SourceOrigin
  /-- What reading gave, if the source was read. -/
  loaded : Option (Except SourceReadError String) := none

namespace SourceFile

/-- A source whose text is known. -/
def ofText (file text : String) (origin : SourceOrigin) : SourceFile where
  file := file
  origin := origin
  loaded := some (.ok text)

/-- Whether the source was read. -/
def isLoaded (source : SourceFile) : Bool := source.loaded.isSome

/-- Whether the source was read and gave a text. -/
def isReadable (source : SourceFile) : Bool :=
  match source.loaded with
  | some (.ok _) => true
  | _ => false

/-- What reading gives, now or before. -/
def contents (tree : FileTree) (limit : Nat) (source : SourceFile) :
    Except SourceReadError String :=
  source.loaded.getD (tree.readSource source.file limit)

/-- The source after it was read, now or before. -/
def load (tree : FileTree) (limit : Nat) (source : SourceFile) : SourceFile :=
  { source with loaded := some (source.contents tree limit) }

/-- The source without what was read. -/
def release (source : SourceFile) : SourceFile := { source with loaded := none }

/-- A source is read at most once. -/
theorem load_load (tree : FileTree) (limit other : Nat) (source : SourceFile) :
    (source.load tree limit).load tree other = source.load tree limit := rfl

/-- Reading ahead with the same limit changes no answer. -/
theorem contents_load (tree : FileTree) (limit : Nat) (source : SourceFile) :
    (source.load tree limit).contents tree limit = source.contents tree limit := rfl

end SourceFile

end JavaOutline
