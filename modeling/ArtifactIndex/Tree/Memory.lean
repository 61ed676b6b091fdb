/-
**Projects in memory.**

A project given as a table of texts by path. A directory is there as long as a file stands below it,
so one path can be that of a file and of a directory.

* `MemoryFiles.toTree`: the files as a project.
-/

import ArtifactIndex.Text.Dict
import ArtifactIndex.Tree.Basic

namespace ArtifactIndex

/-- Texts by path. -/
structure MemoryFiles where
  texts : Dict String
deriving Repr, DecidableEq

namespace MemoryFiles

/-- No files at all. -/
def empty : MemoryFiles := ⟨.empty⟩

/-- The files with one of them written. -/
def write (files : MemoryFiles) (path text : String) : MemoryFiles :=
  ⟨files.texts.insert (trimmedStartOf '/' path) text⟩

/-- The files without one of them. -/
def remove (files : MemoryFiles) (path : String) : MemoryFiles :=
  ⟨⟨files.texts.entries.filter (·.1 != trimmedStartOf '/' path)⟩⟩

/-- What the paths below a directory start with. -/
def beginningOf (directory : String) : String :=
  let bare := trimmedOf '/' directory
  if bare.isEmpty || bare == "." then "" else bare ++ "/"

/-- The paths below a directory, without the directory. -/
def innerPaths (files : MemoryFiles) (directory : String) : List String :=
  files.texts.keys.filterMap (afterStart? (beginningOf directory))

/-- The names of the directories in a directory. -/
def directoryNames (files : MemoryFiles) (directory : String) : List String :=
  ((files.innerPaths directory).filterMap fun inner => (splitFirst? '/' inner).map Prod.fst).eraseDups

/-- The names of the files in a directory. -/
def fileNames (files : MemoryFiles) (directory : String) : List String :=
  (files.innerPaths directory).filter (!hasChar '/' ·)

/-- The entries of a directory; a directory comes before a file of its name. -/
def children (files : MemoryFiles) (directory : String) : List DirectoryEntry :=
  let beginning := beginningOf directory
  let entry := fun isDirectory name => ({ name, path := beginning ++ name, isDirectory } : DirectoryEntry)
  DirectoryEntry.inOrder
    ((files.directoryNames directory).map (entry true) ++ (files.fileNames directory).map (entry false))

/-- The files as a project. -/
def toTree (files : MemoryFiles) : Tree where
  read path :=
    match files.texts.get? (trimmedStartOf '/' path) with
    | some text => .ok text
    | none => .error (.notFound path)
  isFile path := files.texts.contains (trimmedStartOf '/' path)
  isDirectory path := files.texts.keys.any (startsWith (beginningOf path))
  children := files.children
  filesBelow directory := files.texts.keys.filter (startsWith (beginningOf directory))
  ownFiles := files.texts.keys.filter (standsOutside defaultExcludedDirectories)

end MemoryFiles

end ArtifactIndex
