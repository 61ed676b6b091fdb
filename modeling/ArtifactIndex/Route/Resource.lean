/-
**Resource routes.**

One call can declare the routes of a whole resource, one for each of a fixed list of actions. The
name `photos.comments` stands for the paths below `/photos/{photo}/comments`.
-/

import ArtifactIndex.Text.Basic

namespace ArtifactIndex

namespace Route

/-- One action of a resource. -/
structure ResourceAction where
  name : String
  method : String
  /-- The action concerns one member, whose parameter follows the resource's path. -/
  onMember : Bool
  /-- What ends the path. -/
  ending : String
deriving Repr, DecidableEq

/-- The calls that declare resources. -/
inductive ResourceKind where
  | resource
  | apiResource
  | singleton
  | apiSingleton
deriving Repr, DecidableEq

/-- The kind of resource that a call of this name declares. -/
def ResourceKind.ofName? (name : String) : Option ResourceKind :=
  match name with
  | "resource" => some .resource
  | "apiResource" => some .apiResource
  | "singleton" => some .singleton
  | "apiSingleton" => some .apiSingleton
  | _ => none

/-- The actions of a resource with members. -/
def memberActions : List ResourceAction :=
  [⟨"index", "GET", false, ""⟩, ⟨"create", "GET", false, "/create"⟩, ⟨"store", "POST", false, ""⟩,
    ⟨"show", "GET", true, ""⟩, ⟨"edit", "GET", true, "/edit"⟩, ⟨"update", "PUT|PATCH", true, ""⟩,
    ⟨"destroy", "DELETE", true, ""⟩]

/-- The actions of a resource that is its only member. -/
def singletonActions : List ResourceAction :=
  [⟨"show", "GET", false, ""⟩, ⟨"edit", "GET", false, "/edit"⟩, ⟨"update", "PUT|PATCH", false, ""⟩]

/-- The actions of each kind; those for programs have no forms. -/
def ResourceKind.actions : ResourceKind → List ResourceAction
  | .resource => memberActions
  | .apiResource => memberActions.filter fun action => action.name != "create" && action.name != "edit"
  | .singleton => singletonActions
  | .apiSingleton => singletonActions.filter fun action => action.name != "edit"

/-- The singular of a plural name, with underscores for hyphens. -/
def singular (plural : String) : String :=
  let word := exchange '-' '_' plural
  match beforeEnd? "ies" word with
  | some stem => stem ++ "y"
  | none =>
    if endsWith "sses" word || endsWith "xes" word || endsWith "ches" word then
      (beforeEnd? "es" word).getD word
    else
      match beforeEnd? "s" word with
      | some stem => if endsWith "s" stem then word else stem
      | none => word

/-- The parameter for a member of a resource, in braces. -/
def memberParameter (segment : String) : String :=
  "\x7b" ++ singular segment ++ "\x7d"

/-- The path of a resource: all segments but the last are followed by a parameter. -/
def resourcePath : List String → String
  | [] => ""
  | [last] => "/" ++ last
  | segment :: rest => "/" ++ segment ++ "/" ++ memberParameter segment ++ resourcePath rest

/-- The path of an action of a resource. -/
def actionPath (resource : String) (action : ResourceAction) : String :=
  let parts := nonemptySegments '.' resource
  let member := if action.onMember then "/" ++ memberParameter (parts.getLastD resource) else ""
  resourcePath parts ++ member ++ action.ending

/-- The name of a resource from which its routes' names are made. -/
def resourceName (resource : String) : String := joinWith "." (nonemptySegments '.' resource)

end Route

end ArtifactIndex
