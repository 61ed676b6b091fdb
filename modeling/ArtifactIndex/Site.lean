/-
**Sites of declarations and references.**

A site is a range of bytes in a file together with the line it starts on. An `Origin` is what is
needed to turn ranges of a file into sites.
-/

import ArtifactIndex.Text.Lines

namespace ArtifactIndex

/-- A place in a project where an artifact is declared or referred to. -/
structure Site where
  file : String
  /-- The line, counted from zero. -/
  line : Nat
  /-- The offset of the first byte. -/
  start : Nat
  /-- The offset behind the last byte. -/
  stop : Nat
  /-- Which of several routes declared by one call is meant. -/
  expansion : Option String := none
deriving Repr, DecidableEq

/-- A whole file as a site. -/
def Site.ofFile (file : String) : Site := { file, line := 0, start := 0, stop := 0 }

/-- The file that ranges stand in, and the starts of its lines. -/
structure Origin where
  file : String
  lines : LineTable
deriving Repr, DecidableEq

namespace Origin

/-- The origin of ranges in a file's text. -/
def ofText (file text : String) : Origin := ⟨file, LineTable.ofText text⟩

/-- A range as a site. -/
def site (origin : Origin) (span : Span) : Site :=
  { file := origin.file, line := origin.lines.lineOf span.start, start := span.start, stop := span.stop }

end Origin

end ArtifactIndex
