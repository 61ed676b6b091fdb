/-
**What groups give to the routes inside them.**

A group may set a path prefix, a name prefix, middleware, a domain, a namespace and a controller. A
`Scope` is what all groups around a declaration give together; `Scope.descend` adds one more group,
and `Scope.declare` makes a route from a scope and what its declaration says itself.
-/

import ArtifactIndex.Route.Basic
import ArtifactIndex.Route.Naming

namespace ArtifactIndex

namespace Route

/-- What the groups around a declaration give together. -/
structure Scope where
  pathPrefix : String := ""
  namePrefix : String := ""
  middleware : List String := []
  domain : Option String := none
  namespaceName : Option String := none
  controller : Option String := none
deriving Repr, DecidableEq

/-- What one group gives. -/
structure GroupAttributes where
  pathPrefix : Option String := none
  name : Option String := none
  middleware : List String := []
  domain : Option String := none
  namespaceName : Option String := none
  controller : Option String := none
deriving Repr, DecidableEq

/-- What a declaration says about its route beyond method, path and action. -/
structure OwnAttributes where
  name : Option String := none
  middleware : List String := []
  withoutMiddleware : List String := []
  domain : Option String := none
  constraints : Dict String := .empty
  only : Option (List String) := none
  except : List String := []
  names : Dict String := .empty
  namesPrefix : Option String := none
deriving Repr, DecidableEq

/-- The entries with further ones that are not among them yet. -/
def appendNew (known : List String) (further : List String) : List String :=
  further.foldl (fun entries entry => if entries.contains entry then entries else entries ++ [entry])
    known

/-- An inner namespace below an outer one; backslashes around it do not count. -/
def joinNamespace (outer : Option String) (inner : String) : String :=
  let inner := trimmedOf '\\' inner
  match outer with
  | some outer => if inner.isEmpty then outer else outer ++ "\\" ++ inner
  | none => inner

namespace Scope

/-- The scope inside one more group. -/
def descend (scope : Scope) (group : GroupAttributes) : Scope :=
  { pathPrefix :=
      match group.pathPrefix with
      | some inner => joinPrefix scope.pathPrefix inner
      | none => scope.pathPrefix
    namePrefix :=
      match group.name with
      | some inner => joinNames scope.namePrefix inner
      | none => scope.namePrefix
    middleware := appendNew scope.middleware group.middleware
    domain := (group.domain.map normalizeDomain).orElse fun _ => scope.domain
    namespaceName :=
      match group.namespaceName with
      | some inner => some (joinNamespace scope.namespaceName inner)
      | none => scope.namespaceName
    controller := group.controller.orElse fun _ => scope.controller }

/-- A controller written as text, inside the scope's namespace unless it starts with a
backslash. -/
def qualify (scope : Scope) (controller : String) : String :=
  match scope.namespaceName with
  | some outer =>
    if startsWith "\\" controller || outer.isEmpty then controller else outer ++ "\\" ++ controller
  | none => controller

/-- The middleware entries of a route with their sources: those of the groups, then its own, without
the ones it refuses and each once. -/
def middlewareOf (scope : Scope) (own : OwnAttributes) : List (String × MiddlewareSource) :=
  let given := scope.middleware.map (·, MiddlewareSource.group) ++
    own.middleware.map (·, MiddlewareSource.route)
  let wanted := given.filter fun entry => !own.withoutMiddleware.contains entry.1
  wanted.foldl (fun entries entry =>
    if (entries.map Prod.fst).contains entry.1 then entries else entries ++ [entry]) []

/-- The route of a declaration inside the scope. -/
def declare (scope : Scope) (method rawPath : String) (ownName controller : Option String)
    (own : OwnAttributes) (declaration : Site) : Route :=
  let path := fullPath rawPath scope.pathPrefix
  let middleware := scope.middlewareOf own
  let domain := own.domain.orElse fun _ => scope.domain
  { name := fullName? ownName scope.namePrefix
    method
    path
    controller
    middleware := middleware.map Prod.fst
    middlewareSources := middleware.map fun entry =>
      let (name, parameters) := splitMiddleware entry.1
      { name, parameters, source := entry.2 }
    domain
    domainParameters := (domain.map ArtifactIndex.domainParameters).getD []
    parameters := pathParameters path own.constraints
    constraints := own.constraints
    groupPrefix := scope.pathPrefix
    namespaceName := scope.namespaceName
    declaration }

end Scope

end Route

end ArtifactIndex
