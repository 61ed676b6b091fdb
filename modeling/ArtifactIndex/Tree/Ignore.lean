/-
**Ignore rules.**

A directory can hold files that name what does not belong to the project: one glob to a line, a
leading `!` to keep what an earlier line ignores, a trailing slash for directories only. A glob without
a slash applies at any depth below the directory. The last line that describes a path decides.

Of the rules around a path those of the nearest directory decide. Rules come from three files, and one
that decides by the first keeps the others from being asked.

* `IgnoreRule.ofLine?`: the rule on a line;
* `IgnoreLevel.verdict?`: what all rules around a path say.
-/

import ArtifactIndex.Tree.Glob

namespace ArtifactIndex

/-- What a rule says of a path. -/
inductive Verdict where
  | ignored
  | kept
deriving Repr, DecidableEq

/-- A rule about paths below a directory. -/
structure IgnoreRule where
  glob : Glob
  verdict : Verdict
  /-- The rule is about directories only. -/
  directoriesOnly : Bool
deriving Repr, DecidableEq

namespace IgnoreRule

/-- The line without blanks at its end, unless the last one is escaped. -/
def withoutEndBlanks (line : String) : String :=
  if endsWith "\\ " line then line else String.ofList (dropEndWhile isBlank line.toList)

/-- What the signs at the start of a line say: the verdict, whether the glob starts at the directory
itself, and the rest of the line. -/
def readSigns (line : String) : Verdict × Bool × String :=
  if startsWith "\\!" line || startsWith "\\#" line then
    (.ignored, false, String.ofList (line.toList.drop 1))
  else
    let (verdict, line) :=
      match afterStart? "!" line with
      | some rest => (Verdict.kept, rest)
      | none => (.ignored, line)
    match afterStart? "/" line with
    | some rest => (verdict, true, rest)
    | none => (verdict, false, line)

/-- Whether a line ends with a slash, and the line without it; a backslash before the slash goes
with it. -/
def readEnd (line : String) : Bool × String :=
  match beforeEnd? "/" line with
  | some rest => (true, (beforeEnd? "\\" rest).getD rest)
  | none => (false, line)

/-- The glob that a line means. Without a slash in it, it applies at any depth; with everything below
a directory it does not mean the directory itself. -/
def globText (anchored : Bool) (line : String) : String :=
  let placed := if anchored || hasChar '/' line || line == "**" then line else "**/" ++ line
  if endsWith "/**" placed then placed ++ "/*" else placed

/-- The rule on a line; comments, empty lines and globs that cannot be read give none. -/
def ofLine? (line : String) : Option IgnoreRule :=
  if startsWith "#" line then none
  else
    let line := withoutEndBlanks line
    if line.isEmpty then none
    else
      let (verdict, anchored, body) := readSigns line
      let (directoriesOnly, body) := readEnd body
      (Glob.parse? (globText anchored body)).map fun glob => { glob, verdict, directoriesOnly }

/-- The rule is about the path. -/
def concerns (rule : IgnoreRule) (path : String) (isDirectory : Bool) : Bool :=
  (!rule.directoriesOnly || isDirectory) && rule.glob.describes path

/-- The texts of lines given as bytes, up to the first that is no UTF-8. -/
def decodeLines : List (List UInt8) → List String
  | [] => []
  | line :: rest =>
    match String.fromUTF8? line.toByteArray with
    | some text => text :: decodeLines rest
    | none => []

/-- A line without the return that stands before its end. -/
def withoutReturn (line : List UInt8) : List UInt8 :=
  if line.getLast? == some 13 then line.dropLast else line

/-- The lines of a file; a mark of the byte order before the first one does not count. -/
def linesOf (bytes : ByteArray) : List String :=
  let pieces := bytes.toList.splitOn 10
  let lines := decodeLines (pieces.dropLast.map withoutReturn ++ pieces.getLast?.toList)
  match lines with
  | [] => []
  | first :: rest => trimmedStartOf (Char.ofNat 0xFEFF) first :: rest

/-- The rules in a file. -/
def ofFile (bytes : ByteArray) : List IgnoreRule :=
  (linesOf bytes).filterMap ofLine?

/-- What rules of one file say of a path: the last one that concerns it decides. -/
def verdictOf? (rules : List IgnoreRule) (path : String) (isDirectory : Bool) : Option Verdict :=
  (rules.reverse.find? (·.concerns path isDirectory)).map (·.verdict)

end IgnoreRule

/-- The files in which a directory's rules stand. -/
inductive IgnoreSource where
  /-- Rules for any tool. -/
  | general
  /-- Rules under version control. -/
  | shared
  /-- Rules of one copy of a repository. -/
  | personal
deriving Repr, DecidableEq

/-- The sources, those that decide first at the front. -/
def IgnoreSource.all : List IgnoreSource := [.general, .shared, .personal]

/-- The file of a source, as a path from its directory. -/
def IgnoreSource.path : IgnoreSource → List String
  | .general => [".ignore"]
  | .shared => [".gitignore"]
  | .personal => [".git", "info", "exclude"]

/-- The rules of a directory around the place in question. -/
structure IgnoreLevel where
  rules : IgnoreSource → List IgnoreRule
  /-- The way from the directory to the place, with a slash behind each name. -/
  inner : String

namespace IgnoreLevel

/-- The level seen from a directory below the place. -/
def enter (level : IgnoreLevel) (name : String) : IgnoreLevel :=
  { level with inner := level.inner ++ name ++ "/" }

/-- What the rules of all directories around a place, the nearest first, say of an entry there. -/
def verdict? (levels : List IgnoreLevel) (name : String) (isDirectory : Bool) : Option Verdict :=
  IgnoreSource.all.findSome? fun source =>
    levels.findSome? fun level =>
      IgnoreRule.verdictOf? (level.rules source) (level.inner ++ name) isDirectory

/-- The entry is left out. -/
def ignores (levels : List IgnoreLevel) (name : String) (isDirectory : Bool) : Bool :=
  verdict? levels name isDirectory == some .ignored

end IgnoreLevel

end ArtifactIndex
