/-
**Counts of a scan.**

Every pass over a project's files counts the files it looks at and those it could not read. A file
that is too large is left out without being counted as an error.
-/

import ArtifactIndex.Tree.Basic

namespace ArtifactIndex

/-- What a pass over files counts. -/
structure ScanCounts where
  /-- The files that were looked at. -/
  files : Nat := 0
  /-- The files that could not be used. -/
  errors : Nat := 0
  /-- The files whose earlier results were kept. -/
  reused : Nat := 0
deriving Repr, DecidableEq

namespace ScanCounts

/-- The counts of two passes together. -/
def add (left right : ScanCounts) : ScanCounts :=
  ⟨left.files + right.files, left.errors + right.errors, left.reused + right.reused⟩

/-- The counts of all passes together. -/
def sum (counts : List ScanCounts) : ScanCounts :=
  counts.foldl add {}

end ScanCounts

/-- The text of a file, if it can be read, and what is counted for it. -/
def Tree.scan (tree : Tree) (path : String) : Option String × ScanCounts :=
  match tree.read path with
  | .ok text => (some text, { files := 1 })
  | .error error => (none, { files := 1, errors := if error.isTooLarge then 0 else 1 })

/-- What a scan gets from a file is its text. -/
theorem Tree.read_of_scan {tree : Tree} {path text : String} {counts : ScanCounts}
    (scanned : tree.scan path = (some text, counts)) : tree.read path = .ok text := by
  unfold Tree.scan at scanned
  split at scanned
  · next found =>
    cases scanned
    exact found
  · cases scanned

end ArtifactIndex
