/-
**Files and directories.**

The part of a file system that a run can see: files with their bytes and directories, under their
names from the root.  Relative paths start at the working directory.  A path leads through
directories only, so that nothing stands below a file.

Main definitions:

* `FileError` — why something cannot be read or written;
* `FileTree`, `FileTree.resolve` — the tree, and what a path leads to;
* `FileTree.read`, `FileTree.size`, `FileTree.texts`, `FileTree.isFile`, `FileTree.isDirectory` —
  reading it;
* `FileTree.put`, `FileTree.remove` — changing what stands under names;
* `FileTree.writable`, `FileTree.write`, `FileTree.store`, `FileTree.delete` — changing what a path
  leads to.
-/

import JavaOutline.Path

set_option autoImplicit false

namespace JavaOutline

/-! ### Errors -/

/-- Why something cannot be read or written. -/
inductive FileError where
  | notFound
  | notDirectory
  | isDirectory
  /-- The bytes are not the UTF-8 form of a text. -/
  | notText
deriving DecidableEq, Repr, Inhabited

/-- The text of the error. -/
def FileError.message : FileError → String
  | .notFound => "No such file or directory (os error 2)"
  | .notDirectory => "Not a directory (os error 20)"
  | .isDirectory => "Is a directory (os error 21)"
  | .notText => "stream did not contain valid UTF-8"

/-! ### Trees -/

/-- What stands under a name. -/
inductive FileEntry where
  | file (bytes : ByteArray)
  | directory
deriving Inhabited

/-- The number of bytes that a directory takes up. -/
def directorySize : Nat := 4096

/-- Files and directories under their names from the root. -/
structure FileTree where
  /-- The names that lead from the root to the working directory. -/
  workingDirectory : List String := []
  /-- What stands where. -/
  entries : List (List String × FileEntry) := []
deriving Inhabited

namespace FileTree

/-- What stands under names from the root. -/
def entry? (tree : FileTree) (names : List String) : Option FileEntry :=
  if names.isEmpty then some .directory else tree.entries.lookup names

/-- Follows the rest of a path from a place that was reached.  Going on takes a directory. -/
def walk (tree : FileTree) (reached : List String) : List String → Except FileError (List String)
  | [] => .ok reached
  | segment :: rest =>
      match tree.entry? reached with
      | none => .error .notFound
      | some (.file _) => .error .notDirectory
      | some .directory =>
          if segment == "" || segment == "." then tree.walk reached rest
          else if segment == ".." then tree.walk reached.dropLast rest
          else tree.walk (reached ++ [segment]) rest

/-- Where a path starts. -/
def origin (tree : FileTree) (path : String) : List String :=
  if Path.isAbsolute path then [] else tree.workingDirectory

/-- The place that a path names.  The empty path names none. -/
def place (tree : FileTree) (path : String) : Except FileError (List String) :=
  if path.isEmpty then .error .notFound else tree.walk (tree.origin path) (Path.segments path)

/-- What a path leads to. -/
def resolve (tree : FileTree) (path : String) : Except FileError FileEntry :=
  match tree.place path with
  | .error e => .error e
  | .ok names =>
      match tree.entry? names with
      | some entry => .ok entry
      | none => .error .notFound

/-! ### Reading -/

/-- Whether a path leads to a file. -/
def isFile (tree : FileTree) (path : String) : Bool :=
  match tree.resolve path with
  | .ok (.file _) => true
  | _ => false

/-- Whether a path leads to a directory. -/
def isDirectory (tree : FileTree) (path : String) : Bool :=
  match tree.resolve path with
  | .ok .directory => true
  | _ => false

/-- The number of bytes of what a path leads to. -/
def size (tree : FileTree) (path : String) : Except FileError Nat :=
  (tree.resolve path).map fun
    | .file bytes => bytes.size
    | .directory => directorySize

/-- The text of the file that a path leads to. -/
def read (tree : FileTree) (path : String) : Except FileError String :=
  match tree.resolve path with
  | .error e => .error e
  | .ok .directory => .error .isDirectory
  | .ok (.file bytes) =>
      match String.fromUTF8? bytes with
      | some text => .ok text
      | none => .error .notText

/-- The texts of all files. -/
def texts (tree : FileTree) : List String :=
  tree.entries.filterMap fun
    | (_, .file bytes) => String.fromUTF8? bytes
    | (_, .directory) => none

/-! ### Changing -/

/-- Puts an entry under names from the root. -/
def put (tree : FileTree) (names : List String) (entry : FileEntry) : FileTree :=
  { tree with entries := (names, entry) :: tree.entries.filter (·.1 != names) }

/-- The tree without what stands under names from the root. -/
def remove (tree : FileTree) (names : List String) : FileTree :=
  { tree with entries := tree.entries.filter (·.1 != names) }

/-- Whether a path ends with a separator. -/
def endsAsDirectory (path : String) : Bool := path.toList.getLast? == some '/'

/-- The texts between the separators of a path from its end on, without those behind the last
name. -/
def lastSegments (path : String) : List String :=
  (Path.segments path).reverse.dropWhile (·.isEmpty)

/-- The place where a file can be written.  The path up to its last name leads to a directory; the
last name is a name of its own, behind which no separator asks for a directory. -/
def writable (tree : FileTree) (path : String) : Except FileError (List String) :=
  match lastSegments path with
  | [] => if path.isEmpty then .error .notFound else .error .isDirectory
  | last :: above =>
      match tree.walk (tree.origin path) (above.reverse ++ ["."]) with
      | .error e => .error e
      | .ok reached =>
          if last == "." || last == ".." || endsAsDirectory path then .error .isDirectory
          else
            match tree.entry? (reached ++ [last]) with
            | some .directory => .error .isDirectory
            | some (.file _) | none => .ok (reached ++ [last])

/-- Writes a text to a file. -/
def write (tree : FileTree) (path text : String) : Except FileError FileTree :=
  (tree.writable path).map fun names => tree.put names (.file text.toUTF8)

/-- The tree with the directories that components of a path lead through.  A file ends the way. -/
def makeWay (tree : FileTree) (reached : List String) : List Path.Component → FileTree
  | [] => tree
  | .root :: rest => tree.makeWay reached rest
  | .current :: rest => tree.makeWay reached rest
  | .parent :: rest => tree.makeWay reached.dropLast rest
  | .name text :: rest =>
      let next := reached ++ [text]
      match tree.entry? next with
      | some (.file _) => tree
      | some .directory => tree.makeWay next rest
      | none => (tree.put next .directory).makeWay next rest

/-- The tree with the directory that a path names and those above it.  A path that ends in a point
names one that is there already, so only those above it are made. -/
def makeDirectory (tree : FileTree) (path : String) : FileTree :=
  let way := Path.components path
  let last := (lastSegments path).head?
  tree.makeWay (tree.origin path) (if last == some "." then way.dropLast else way)

/-- The tree with bytes in a file and with the directories above it.  A path where no file can be
written keeps what it leads to. -/
def store (tree : FileTree) (path : String) (bytes : ByteArray) : FileTree :=
  let tree := tree.makeWay (tree.origin path) (Path.components path).dropLast
  match tree.writable path with
  | .ok names => tree.put names (.file bytes)
  | .error _ => tree

/-- The tree without the file that a path leads to, if it leads to one. -/
def delete (tree : FileTree) (path : String) : FileTree :=
  match tree.place path with
  | .ok names => if tree.isFile path then tree.remove names else tree
  | .error _ => tree

end FileTree

end JavaOutline
