/-
**Routes.**

A route as it results from a declaration and the groups around it, and the parts into which its
action is split for display.
-/

import ArtifactIndex.Site
import ArtifactIndex.Route.Parameter

namespace ArtifactIndex

/-- Where a route's middleware entry comes from. -/
inductive MiddlewareSource where
  /-- The declaration itself. -/
  | route
  /-- A group around it. -/
  | group
deriving Repr, DecidableEq

/-- The source's written form. -/
def MiddlewareSource.text : MiddlewareSource → String
  | .route => "ROUTE"
  | .group => "GROUP"

/-- A middleware entry taken apart. -/
structure Middleware where
  name : String
  parameters : List String
  source : MiddlewareSource
deriving Repr, DecidableEq

/-- A declared route. -/
structure Route where
  name : Option String
  method : String
  path : String
  /-- The action: a class, a class and a method joined by `@`, or `Closure`. -/
  controller : Option String
  /-- The middleware entries, each once, those of groups first. -/
  middleware : List String
  /-- The same entries taken apart. -/
  middlewareSources : List Middleware
  domain : Option String
  domainParameters : List DomainParameter
  parameters : List PathParameter
  constraints : Dict String
  groupPrefix : String
  namespaceName : Option String
  declaration : Site
deriving Repr, DecidableEq

/-- The action of a route, taken apart. -/
structure Action where
  controller : Option String
  method : Option String
  namespaceName : Option String
  isClosure : Bool
deriving Repr, DecidableEq

namespace Route

/-- The action of a route that is a function without a name. -/
def closureAction : String := "Closure"

/-- The key under which a route is listed: its name, or else its path. -/
def key (route : Route) : String := route.name.getD route.path

/-- The parts of a route's action. A class without a method is called as a function; a namespace in
the class's own name counts before that of the groups. -/
def action (route : Route) : Action :=
  match route.controller with
  | none => ⟨none, none, route.namespaceName, false⟩
  | some controller =>
    if controller == closureAction then ⟨none, none, route.namespaceName, true⟩
    else
      let (className, method) := (splitFirst? '@' controller).getD (controller, "__invoke")
      let own := (splitLast? '\\' (trimmedStartOf '\\' className)).map Prod.fst
      ⟨some className, some method, own.orElse fun _ => route.namespaceName, false⟩

end Route

end ArtifactIndex
