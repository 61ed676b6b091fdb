/-
**Snapshots of a project.**

A snapshot is the content of a directory, and possibly an environment, written as JSON: files by path,
each as a text or, under the name `hex`, as the digits of its bytes. A path that ends with a slash is a
directory without files.
-/

import ArtifactIndex.Json.Reader
import ArtifactIndex.Tree.Disk

namespace ArtifactIndex

/-- A project's directory and the environment it is looked at in. -/
structure Snapshot where
  disk : DiskEntry
  environment : List (String × String)

namespace Snapshot

/-- The bytes that hexadecimal digits write; a digit without a partner is left out. -/
def hexBytes : List Char → List UInt8
  | high :: low :: rest =>
    UInt8.ofNat ((Json.hexDigit? high).getD 0 * 16 + (Json.hexDigit? low).getD 0) :: hexBytes rest
  | _ => []

/-- The content of a file. -/
def bytesOf : Json → ByteArray
  | .string text => text.toByteArray
  | content =>
    match content.member? "hex" with
    | some (.string digits) => (hexBytes digits.toList).toByteArray
    | _ => ByteArray.empty

/-- The directory with one path of a snapshot in it. -/
def addPath (disk : DiskEntry) (entry : String × Json) : DiskEntry :=
  if endsWith "/" entry.1 then disk.makeDirectory entry.1 else disk.write entry.1 (bytesOf entry.2)

/-- The members of an object. -/
def membersOf : Option Json → List (String × Json)
  | some (.object members) => members
  | _ => []

/-- The directory with the given files. -/
def diskOf (files : List (String × Json)) : DiskEntry :=
  files.foldl addPath .empty

/-- The snapshot that a value writes. -/
def ofJson (value : Json) : Snapshot :=
  { disk := diskOf (membersOf (value.member? "files"))
    environment := (membersOf (value.member? "env")).filterMap fun entry =>
      match entry.2 with
      | .string text => some (entry.1, text)
      | _ => none }

end Snapshot

end ArtifactIndex
