/-
**The routes of a project.**

A table holds the declared routes in the order in which they were found. A name or a path declared
twice belongs to the later route. References find routes by name, by path or by action.

* `RouteTable.resolve?`: by name, or else by path;
* `RouteTable.resolvePath?`: by path, with a query or fragment left out;
* `RouteTable.resolveAction?`: by action, qualified or not.
-/

import ArtifactIndex.Ordered
import ArtifactIndex.Route.Basic
import ArtifactIndex.Route.Naming

namespace ArtifactIndex

/-- Routes in the order in which they were found. -/
structure RouteTable where
  routes : List Route
deriving Repr, DecidableEq

/-- A route that a reference means. -/
structure RouteMatch where
  /-- The key under which the reference counts. -/
  key : String
  /-- The key is a name. -/
  byName : Bool
  route : Route
deriving Repr, DecidableEq

/-- The part of an address before its query or fragment. A question mark inside braces belongs to an
optional parameter; `depth` counts the braces that are open. -/
def Route.withoutQuery (depth : Nat) : List Char → List Char
  | [] => []
  | c :: rest =>
    if c = '{' then c :: withoutQuery (depth + 1) rest
    else if c = '}' then c :: withoutQuery (depth - 1) rest
    else if depth = 0 ∧ (c = '?' ∨ c = '#') then []
    else c :: withoutQuery depth rest

namespace RouteTable

/-- No routes. -/
def empty : RouteTable := ⟨[]⟩

/-- The last route with a name. -/
def named? (table : RouteTable) (name : String) : Option Route :=
  table.routes.reverse.find? (·.name == some name)

/-- The last route with a path. -/
def atPath? (table : RouteTable) (path : String) : Option Route :=
  if path.isEmpty then none else table.routes.reverse.find? (·.path == path)

/-- The names in ascending order, each once. -/
def names (table : RouteTable) : List String :=
  ascendingDistinct (table.routes.filterMap (·.name))

/-- The paths in ascending order, each once. -/
def paths (table : RouteTable) : List String :=
  ascendingDistinct ((table.routes.map (·.path)).filter (!·.isEmpty))

/-- The names, then the paths. -/
def keys (table : RouteTable) : List String := table.names ++ table.paths

/-- The route at an address inside the project. -/
def resolvePath? (table : RouteTable) (text : String) : Option RouteMatch :=
  let bare := trimmed text
  if bare.isEmpty || occursIn "://" bare then none
  else
    let path := Route.normalizePath (String.ofList (Route.withoutQuery 0 bare.toList))
    (table.atPath? path).map fun route => { key := path, byName := false, route }

/-- The route with a name, or else at an address. -/
def resolve? (table : RouteTable) (text : String) : Option RouteMatch :=
  match table.named? text with
  | some route => some { key := text, byName := true, route }
  | none => table.resolvePath? text

/-- The first route whose action is exactly this one. -/
def withAction? (table : RouteTable) (action : String) : Option Route :=
  table.routes.find? fun route =>
    route.controller == some action && action != Route.closureAction

/-- The first route whose action is this one behind some namespace. -/
def withQualifiedAction? (table : RouteTable) (action : String) : Option Route :=
  table.routes.find? fun route => route.controller.any (endsWith ("\\" ++ action))

/-- The route with an action. -/
def resolveAction? (table : RouteTable) (text : String) : Option RouteMatch :=
  let action := trimmedStartOf '\\' (trimmed text)
  if action.isEmpty then none
  else
    ((table.withAction? action).orElse fun _ => table.withQualifiedAction? action).map fun route =>
      { key := route.key, byName := route.name.isSome, route }

/-- The route under a key. -/
def get? (table : RouteTable) (key : String) : Option Route :=
  (table.resolve? key).map (·.route)

/-- The site at which a key's route is declared. -/
def declarations (table : RouteTable) (key : String) : List Site :=
  ((table.get? key).map (·.declaration)).toList

end RouteTable

end ArtifactIndex
