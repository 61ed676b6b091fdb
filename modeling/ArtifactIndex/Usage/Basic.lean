/-
**Usages.**

A usage is a place where a project's code refers to an artifact. A table keeps the usages of each key;
they are listed in order of their files and positions.

* `Usage.order`: the order in which usages are listed;
* `UsageTable.get`: the usages of a key.
-/

import ArtifactIndex.Kind
import ArtifactIndex.Ordered
import ArtifactIndex.Site

namespace ArtifactIndex

/-- How a usage refers to its artifact. -/
inductive UsageKind where
  | name
  | path
  | action
  | url
deriving Repr, DecidableEq

namespace UsageKind

/-- The written form. -/
def text : UsageKind → String
  | .name => "NAME_REFERENCE"
  | .path => "PATH_REFERENCE"
  | .action => "ACTION_REFERENCE"
  | .url => "URL_REFERENCE"

/-- The place in the order of usages. -/
def rank : UsageKind → Nat
  | .name => 0
  | .path => 1
  | .action => 2
  | .url => 3

end UsageKind

/-- A place that refers to an artifact. -/
structure Usage where
  file : String
  /-- The line, counted from zero. -/
  line : Nat
  site : Site
  usageKind : UsageKind
deriving Repr, DecidableEq

/-- The order of sites: by file, then by position, one without an expansion before one with it. -/
def Site.order (left right : Site) : Ordering :=
  (compare left.file right.file).then <|
    (compare left.line right.line).then <|
      (compare left.start right.start).then <|
        (compare left.stop right.stop).then <|
          match left.expansion, right.expansion with
          | none, none => .eq
          | none, some _ => .lt
          | some _, none => .gt
          | some first, some second => compare first second

namespace Usage

/-- The order of usages: by file and line, then by site, then by the way of reference. -/
def order (left right : Usage) : Ordering :=
  (compare left.file right.file).then <|
    (compare left.line right.line).then <|
      (left.site.order right.site).then (compare left.usageKind.rank right.usageKind.rank)

/-- Usages in their order. -/
def inOrder (usages : List Usage) : List Usage :=
  sortBy (fun left right => (left.order right).isLE) usages

end Usage

/-- A usage with the artifact it refers to. -/
structure UsageRecord where
  kind : Kind
  key : String
  usage : Usage
deriving Repr, DecidableEq

/-- Usages in the order in which they were found. -/
structure UsageTable where
  records : List UsageRecord
deriving Repr, DecidableEq

namespace UsageTable

/-- No usages. -/
def empty : UsageTable := ⟨[]⟩

/-- The usages of a key, in their order. -/
def get (table : UsageTable) (kind : Kind) (key : String) : List Usage :=
  Usage.inOrder
    ((table.records.filter fun record => record.kind == kind && record.key == key).map (·.usage))

/-- The number of usages of all keys. -/
def total (table : UsageTable) : Nat := table.records.length

end UsageTable

end ArtifactIndex
