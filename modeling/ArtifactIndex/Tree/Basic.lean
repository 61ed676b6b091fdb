/-
**Projects as trees of files.**

A `Tree` is all that is known of a project: what its files hold and how its directories list. Paths
are relative to the project, with `/` between their parts. The rules of the library ask a tree and
nothing else, so they work alike on files in memory and on a disk.

* `ReadError.message`: why a file has no text;
* `Tree.childDirectories`, `Tree.childFiles`: the two halves of a directory's listing.
-/

import ArtifactIndex.Ordered
import ArtifactIndex.Path

namespace ArtifactIndex

/-- Why a file has no text. -/
inductive ReadError where
  /-- No file has this path. -/
  | notFound (path : String)
  /-- The path could not be followed. -/
  | readFailed (path reason : String)
  /-- The file is larger than a file may be. -/
  | tooLarge (path : String) (size limit : Nat)
  /-- The file's bytes are no UTF-8. -/
  | notUtf8 (path : String)
deriving Repr, DecidableEq

/-- The wording of an error. -/
def ReadError.message : ReadError → String
  | .notFound path => path ++ ": no such file"
  | .readFailed path reason => path ++ ": read failed: " ++ reason
  | .tooLarge path size limit =>
    path ++ ": " ++ toString size ++ " bytes exceeds limit of " ++ toString limit
  | .notUtf8 path => path ++ ": not valid UTF-8"

/-- The error is about the file's size. -/
def ReadError.isTooLarge : ReadError → Bool
  | .tooLarge _ _ _ => true
  | _ => false

/-- An entry of a directory. -/
structure DirectoryEntry where
  name : String
  path : String
  isDirectory : Bool
deriving Repr, DecidableEq

/-- Entries in ascending order of their names, those of one name as they come. -/
def DirectoryEntry.inOrder (entries : List DirectoryEntry) : List DirectoryEntry :=
  sortBy (fun left right => !(right.name < left.name)) entries

/-- A project's files. -/
structure Tree where
  /-- The text of a file. -/
  read : String → Except ReadError String
  /-- The path is that of a file. -/
  isFile : String → Bool
  /-- The path is that of a directory. -/
  isDirectory : String → Bool
  /-- The entries of a directory in order of their names; none when there is no such directory. -/
  children : String → List DirectoryEntry
  /-- The files at any depth below a directory, in ascending order. -/
  filesBelow : String → List String
  /-- The project's own files, in ascending order: those that no rule excludes. -/
  ownFiles : List String

namespace Tree

/-- The directories in a directory. -/
def childDirectories (tree : Tree) (directory : String) : List DirectoryEntry :=
  (tree.children directory).filter (·.isDirectory)

/-- The files in a directory. -/
def childFiles (tree : Tree) (directory : String) : List DirectoryEntry :=
  (tree.children directory).filter (!·.isDirectory)

end Tree

/-- The directory that holds modules. -/
def modulesDirectory : String := "Modules"

/-- The directories that hold no files of a project's own, unless others are named. -/
def defaultExcludedDirectories : List String :=
  ["vendor", "node_modules", "storage", ".git", ".idea"]

/-- A file stands in no directory of the given names. -/
def standsOutside (names : List String) (path : String) : Bool :=
  !((segments '/' path).dropLast.any names.contains)

end ArtifactIndex
