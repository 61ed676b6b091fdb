/-
**Names of views.**

A template at `users/index.blade.php` below a root of views has the name `users.index`. References
spell names in several ways; `View.spellings` lists the forms under which a name is looked up.
-/

import ArtifactIndex.Path

namespace ArtifactIndex

namespace View

/-- The dot name of a template, from its path below a root of views. -/
def nameOfPath (relative : String) : String :=
  let stem := ((beforeEnd? templateEnding relative).orElse fun _ => beforeEnd? ".php" relative).getD
    relative
  joinWith "." (nonemptySegments '/' stem)

/-- The forms under which a view is looked up: as written, slashes as dots, dots as slashes, and
without either ending; empty and repeated forms are left out. -/
def spellings (name : String) : List String :=
  distinctNonempty
    [name, exchange '/' '.' name, exchange '.' '/' name, (beforeEnd? templateEnding name).getD name,
      (beforeEnd? ".php" name).getD name]

end View

end ArtifactIndex
