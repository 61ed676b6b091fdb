/-
**Line numbers of byte offsets.**

`LineTable.ofText` records where each line of a text starts; `LineTable.lineOf` looks an offset up
in that table. Lines are counted from zero, and every offset behind the text belongs to the last
line.
-/

import ArtifactIndex.Text.Basic

namespace ArtifactIndex

/-- The starts of the lines of a text, as byte offsets in ascending order. -/
structure LineTable where
  /-- The offset of each line's first byte; the first line starts at zero. -/
  starts : List Nat
deriving Repr, DecidableEq

namespace LineTable

/-- The offsets just behind the newlines of a byte list whose first byte has the given offset. -/
def startsFrom (offset : Nat) : List UInt8 → List Nat
  | [] => []
  | byte :: rest =>
    if byte == 10 then (offset + 1) :: startsFrom (offset + 1) rest else startsFrom (offset + 1) rest

/-- The table of a text: its first line starts at zero, each further one behind a newline. -/
def ofText (text : String) : LineTable :=
  ⟨0 :: startsFrom 0 text.toByteArray.toList⟩

/-- The line holding an offset: the last one that starts at or before it. -/
def lineOf (table : LineTable) (offset : Nat) : Nat :=
  (table.starts.takeWhile (· ≤ offset)).length - 1

/-- The number of lines, a last empty one included. -/
def lineCount (table : LineTable) : Nat :=
  table.starts.length

end LineTable

end ArtifactIndex
