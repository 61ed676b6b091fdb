/-
**Route paths, names and domains.**

A route's path and name are composed from the parts that its enclosing groups give and the part of
its own. Paths are joined by slashes, names by dots; empty parts vanish.

* `normalizePath`: one leading slash, none repeated, none at the end;
* `joinPrefix`, `fullPath`: an outer path part before an inner one;
* `joinNames`, `fullName?`: the same for names, where a route without a name of its own stays
  unnamed;
* `normalizeDomain`: a domain without scheme and closing slashes.
-/

import ArtifactIndex.Text.Basic

namespace ArtifactIndex

namespace Route

/-- The path with exactly one leading slash, no repeated slash and, unless it is `/`, no slash at
its end. -/
def normalizePath (raw : String) : String :=
  match nonemptySegments '/' raw with
  | [] => "/"
  | parts => "/" ++ joinWith "/" parts

/-- An outer path part before an inner one, with one slash between them and none around. -/
def joinPrefix (outer inner : String) : String :=
  let outer := trimmedOf '/' outer
  let inner := trimmedOf '/' inner
  if outer.isEmpty then inner
  else if inner.isEmpty then outer
  else outer ++ "/" ++ inner

/-- A route's own path behind the inherited one. -/
def fullPath (own inherited : String) : String :=
  normalizePath ("/" ++ joinPrefix inherited own)

/-- Two names joined by dots; empty dot segments vanish. -/
def joinNames (outer inner : String) : String :=
  joinWith "." (nonemptySegments '.' outer ++ nonemptySegments '.' inner)

/-- A route's own name behind the inherited one; without an own name there is none. -/
def fullName? (own : Option String) (inherited : String) : Option String :=
  match own with
  | none => none
  | some own =>
    let joined := joinNames inherited own
    if joined.isEmpty then none else some joined

/-- A domain without surrounding blanks, scheme and closing slashes. -/
def normalizeDomain (raw : String) : String :=
  let bare := trimmed raw
  let address := ((afterStart? "https://" bare).orElse fun _ => afterStart? "http://" bare).getD bare
  trimmedEndOf '/' address

end Route

end ArtifactIndex
