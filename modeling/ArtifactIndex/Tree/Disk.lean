/-
**Projects on a disk.**

The content of a project's directory, as files of bytes and directories of named entries. Paths are
followed step by step: `.` stays, `..` goes up, and a name goes down.

* `DiskEntry.resolve`: what a path leads to, or why it leads nowhere;
* `DiskEntry.toTree`: the directory as a project, with files found under the given options.
-/

import ArtifactIndex.Options
import ArtifactIndex.Tree.Ignore

namespace ArtifactIndex

/-- What a name on a disk stands for. -/
inductive DiskEntry where
  | file (bytes : ByteArray)
  | directory (entries : List (String × DiskEntry))
deriving Inhabited

/-- Why a path leads nowhere. -/
inductive PathFault where
  | notFound
  | notDirectory
  | nameTooLong
  | zeroByte
deriving Repr, DecidableEq

/-- The system's wording of a fault. -/
def PathFault.reason : PathFault → String
  | .notFound => "No such file or directory (os error 2)"
  | .notDirectory => "Not a directory (os error 20)"
  | .nameTooLong => "File name too long (os error 36)"
  | .zeroByte => "file name contained an unexpected NUL byte"

namespace DiskEntry

/-! ### Content -/

/-- A directory without entries. -/
def empty : DiskEntry := .directory []

/-- The entries of a directory; a file has none. -/
def entries : DiskEntry → List (String × DiskEntry)
  | .file _ => []
  | .directory entries => entries

/-- The entry is a directory. -/
def isDirectory : DiskEntry → Bool
  | .file _ => false
  | .directory _ => true

/-- The entry under a row of names. -/
def at? (entry : DiskEntry) : List String → Option DiskEntry
  | [] => some entry
  | name :: rest =>
    match entry.entries.lookup name with
    | some inner => inner.at? rest
    | none => none

/-- The entries with one name set. -/
def setEntry (name : String) (entry : DiskEntry) : List (String × DiskEntry) → List (String × DiskEntry)
  | [] => [(name, entry)]
  | (other, old) :: rest =>
    if other = name then (name, entry) :: rest else (other, old) :: setEntry name entry rest

/-- The entry with another one under a row of names; directories on the way are made. -/
def put (new : DiskEntry) : List String → DiskEntry → DiskEntry
  | [], _ => new
  | name :: rest, entry =>
    let inner := (entry.entries.lookup name).getD empty
    .directory (setEntry name (put new rest inner) entry.entries)

/-- The entry without the file under a row of names; directories stay. -/
def removeFile : List String → DiskEntry → DiskEntry
  | [], entry => entry
  | [name], entry =>
    match entry with
    | .file bytes => .file bytes
    | .directory entries =>
      .directory (entries.filter fun inner => inner.1 != name || inner.2.isDirectory)
  | name :: rest, entry =>
    match entry.entries.lookup name with
    | some inner => .directory (setEntry name (removeFile rest inner) entry.entries)
    | none => entry

/-- The names on a path that is written plainly. -/
def namesOf (path : String) : List String :=
  (nonemptySegments '/' path).filter (· != ".")

/-- The directory with a file written. -/
def write (entry : DiskEntry) (path : String) (bytes : ByteArray) : DiskEntry :=
  put (.file bytes) (namesOf path) entry

/-- The directory with a directory made, unless it is there. -/
def makeDirectory (entry : DiskEntry) (path : String) : DiskEntry :=
  match entry.at? (namesOf path) with
  | some _ => entry
  | none => put empty (namesOf path) entry

/-- The directory without a file. -/
def remove (entry : DiskEntry) (path : String) : DiskEntry :=
  removeFile (namesOf path) entry

/-! ### Paths -/

/-- Names longer than this, in bytes, do not occur. -/
def longestName : Nat := 255

/-- Why there is no entry with a name. -/
def faultOf (name : String) : PathFault :=
  if byteLength name > longestName then .nameTooLong else .notFound

/-- Follows the steps of a path. The place reached is a row of names, last one first, or `none` outside
the project, where nothing is known. -/
def follow (root : DiskEntry) (place : Option (List String)) :
    List String → Except PathFault (Option (List String))
  | [] => .ok place
  | step :: rest =>
    match place with
    | none =>
      if step == "" || step == "." || step == ".." then follow root none rest else .error .notFound
    | some names =>
      match root.at? names.reverse with
      | none => .error .notFound
      | some (.file _) => .error .notDirectory
      | some (.directory entries) =>
        if (entries.lookup step).isSome then follow root (some (step :: names)) rest
        else if step == "" || step == "." then follow root (some names) rest
        else if step == ".." then
          follow root (if names.isEmpty then none else some names.tail) rest
        else .error (faultOf step)

/-- The names on the way to what a path leads to; `none` outside the project. A zero byte is reported
before anything else. -/
def locate (root : DiskEntry) (path : String) : Except PathFault (Option (List String)) :=
  match root.follow (some []) (segments '/' path) with
  | .ok place => .ok (place.map List.reverse)
  | .error fault => .error (if hasChar (Char.ofNat 0) path then .zeroByte else fault)

/-- What a path inside the project leads to. -/
def resolve (root : DiskEntry) (path : String) : Except PathFault DiskEntry :=
  match root.locate (trimmedStartOf '/' path) with
  | .error fault => .error fault
  | .ok none => .ok empty
  | .ok (some names) =>
    match root.at? names with
    | some entry => .ok entry
    | none => .error .notFound

/-- The entries of the directory that a path leads to. -/
def listing? (root : DiskEntry) (path : String) : Option (List (String × DiskEntry)) :=
  match root.resolve path with
  | .ok (.directory entries) => some entries
  | _ => none

/-! ### Files below a directory -/

mutual

/-- The files at or below an entry with the given way to it. -/
def filesAt (lead name : String) : DiskEntry → List String
  | .file _ => [lead ++ name]
  | .directory entries => if name == ".git" then [] else filesAmong (lead ++ name ++ "/") entries

/-- The files at or below some entries with the given way to them; nothing is taken from directories
of version control. -/
def filesAmong (lead : String) : List (String × DiskEntry) → List String
  | [] => []
  | (name, entry) :: rest => filesAt lead name entry ++ filesAmong lead rest

end

/-- The rules that a directory holds. -/
def rulesOf (entries : List (String × DiskEntry)) (source : IgnoreSource) : List IgnoreRule :=
  match at? (.directory entries) source.path with
  | some (.file bytes) => IgnoreRule.ofFile bytes
  | _ => []

mutual

/-- The files at or below an entry that neither the rules around it nor the excluded names leave
out. -/
def ownFilesAt (excluded : List String) (levels : List IgnoreLevel) (lead name : String) :
    DiskEntry → List String
  | .file _ => if IgnoreLevel.ignores levels name false then [] else [lead ++ name]
  | .directory entries =>
    if excluded.contains name || IgnoreLevel.ignores levels name true then []
    else
      ownFilesAmong excluded (⟨rulesOf entries, ""⟩ :: levels.map (·.enter name))
        (lead ++ name ++ "/") entries

/-- The same for some entries of a directory. -/
def ownFilesAmong (excluded : List String) (levels : List IgnoreLevel) (lead : String) :
    List (String × DiskEntry) → List String
  | [] => []
  | (name, entry) :: rest =>
    ownFilesAt excluded levels lead name entry ++ ownFilesAmong excluded levels lead rest

end

/-- The files below the directory that a path leads to. -/
def filesBelow (root : DiskEntry) (path : String) : List String :=
  match root.listing? path with
  | none => []
  | some entries =>
    ascending ((filesAmong "" entries).map fun inner =>
      Path.normalize (trimmedStartOf '/' path ++ "/" ++ inner))

/-- The project's own files under the given options, inside directories with rules of their own. -/
def ownFiles (root : DiskEntry) (outer : List IgnoreLevel) (options : Options) : List String :=
  if options.noIgnore then (root.filesBelow "").filter (standsOutside options.excludedDirectories)
  else
    ascending (ownFilesAmong options.excludedDirectories (⟨rulesOf root.entries, ""⟩ :: outer) ""
      root.entries)

/-- The entry under a row of names, and the rules of the directories around it, the nearest first. -/
def descend? (outer : List IgnoreLevel) : List String → DiskEntry → Option (DiskEntry × List IgnoreLevel)
  | [], entry => some (entry, outer)
  | name :: rest, entry =>
    match entry.entries.lookup name with
    | none => none
    | some inner =>
      descend? ((⟨rulesOf entry.entries, ""⟩ :: outer).map fun level => level.enter name) rest inner

/-! ### The project -/

/-- The text of the file that a path leads to. -/
def readText (root : DiskEntry) (limit : Nat) (path : String) : Except ReadError String :=
  match root.resolve path with
  | .error .notFound => .error (.notFound path)
  | .error fault => .error (.readFailed path fault.reason)
  | .ok (.directory _) => .error (.notFound path)
  | .ok (.file bytes) =>
    if bytes.size > limit then .error (.tooLarge path bytes.size limit)
    else
      match String.fromUTF8? bytes with
      | some text => .ok text
      | none => .error (.notUtf8 path)

/-- A directory on disk as a project, inside directories with rules of their own. -/
def toTree (root : DiskEntry) (outer : List IgnoreLevel) (options : Options) : Tree where
  read := root.readText options.maxFileBytes
  isFile path :=
    match root.resolve path with
    | .ok (.file _) => true
    | _ => false
  isDirectory path := (root.listing? path).isSome
  children path :=
    DirectoryEntry.inOrder (((root.listing? path).getD []).map fun entry =>
      { name := entry.1, path := Path.join path entry.1, isDirectory := entry.2.isDirectory })
  filesBelow := root.filesBelow
  ownFiles := root.ownFiles outer options

end DiskEntry

end ArtifactIndex
