/-
**Paths inside a project.**

A project names its files by paths with `/` between the parts. This module reads the parts of a
path, joins a directory and a name, and takes file names and extensions apart.
-/

import ArtifactIndex.Text.Basic

namespace ArtifactIndex

namespace Path

/-- One step of a path. -/
inductive Component where
  /-- The leading `/` of an absolute path. -/
  | root
  /-- A `.` at the very start of a relative path. -/
  | here
  /-- A directory or file name, `..` included. -/
  | entry (name : String)
deriving Repr, DecidableEq

/-- The steps of a path: repeated slashes and inner `.` parts are no steps. -/
def components (path : String) : List Component :=
  let pieces := segments '/' path
  let entries := (pieces.filter fun piece => piece != "" && piece != ".").map Component.entry
  match pieces with
  | "" :: _ :: _ => .root :: entries
  | "." :: _ => .here :: entries
  | _ => entries

/-- The names among the steps. -/
def entryNames (steps : List Component) : List String :=
  steps.filterMap fun
    | .entry name => some name
    | _ => none

/-- The path written with single slashes, `.` when it has no names. -/
def ofComponents (steps : List Component) : String :=
  match entryNames steps with
  | [] => "."
  | names => joinWith "/" names

/-- The relative form of a path: no leading, repeated or trailing slash and no `.` parts. -/
def normalize (path : String) : String :=
  ofComponents (components path)

/-- The relative form of a path below a root; `none` when the path does not start with the root's
steps. -/
def below? (root path : String) : Option String :=
  ((components root).isPrefixOf? (components path)).map ofComponents

/-- A path that does not start with a root's steps. -/
structure OutsideRoot where
  root : String
  path : String
deriving Repr, DecidableEq

/-- What is wrong in words. -/
def OutsideRoot.message (error : OutsideRoot) : String :=
  "strip prefix " ++ error.root ++ " from " ++ error.path ++ ": prefix not found"

/-- The relative form of a path below a root, or why it has none. -/
def relativeTo (root path : String) : Except OutsideRoot String :=
  match below? root path with
  | some inner => .ok inner
  | none => .error ⟨root, path⟩

/-- A directory and a name with one slash between them. -/
def join (directory name : String) : String :=
  let directory := trimmedEndOf '/' directory
  let name := trimmedStartOf '/' name
  if directory.isEmpty || directory == "." then name
  else if name.isEmpty then directory
  else directory ++ "/" ++ name

/-- The part behind the last slash. -/
def fileName (path : String) : String :=
  match splitLast? '/' path with
  | some (_, name) => name
  | none => path

/-- The part of the file name behind its last dot, in lower case; a name that starts with its only
dot has none. -/
def extension? (path : String) : Option String :=
  match splitLast? '.' (fileName path) with
  | some (stem, ending) => if stem.isEmpty || ending.isEmpty then none else some (lowered ending)
  | none => none

end Path

/-- How a file takes part in the search for references. -/
inductive FileCategory where
  /-- A program, searched by its syntax tree. -/
  | php
  /-- A template, searched by its code fragments and by text patterns. -/
  | blade
  /-- A client script or component, searched by text patterns only. -/
  | script
deriving Repr, DecidableEq

/-- The ending of template files. -/
def templateEnding : String := ".blade.php"

/-- The extensions of client scripts. -/
def scriptExtensions : List String := ["js", "jsx", "ts", "tsx", "mjs", "vue"]

/-- The category of a file, by its ending. -/
def FileCategory.of? (path : String) : Option FileCategory :=
  if endsWith templateEnding (Path.fileName path) then some .blade
  else
    match Path.extension? path with
    | none => none
    | some ending =>
      if ending == "php" then some .php
      else if scriptExtensions.contains ending then some .script
      else none

end ArtifactIndex
