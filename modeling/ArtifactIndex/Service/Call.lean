/-
**Calls of the service.**

A client calls a method by name with parameters as JSON. `Call.read` turns both into a `Call`, or says
what is wrong with them.
-/

import ArtifactIndex.Json.Shape
import ArtifactIndex.Kind

namespace ArtifactIndex

/-- A method with its parameters. -/
inductive Call where
  | help
  | reindex (background : Bool)
  | stats
  | list (kind : Kind)
  | declaration (kind : Kind) (key : String)
  | usages (kind : Kind) (key : String)
  | lookup (kind : Kind) (key : String)
  | routeDefinition (key : String)
  | classify (file : String) (position : Nat)
  | complete (file : String) (position : Nat)
deriving Repr, DecidableEq

/-- What is wrong with a call. -/
inductive CallError where
  | unknownMethod (name : String)
  | invalidParams (method : String) (error : ShapeError)
  | unknownKind (text : String)

/-- The names of the methods. -/
def methodNames : List String :=
  ["help", "reindex", "stats", "list", "declaration", "usages", "lookup", "route_definition", "classify",
    "complete"]

/-- What is wrong in words. -/
def CallError.message : CallError → String
  | .unknownMethod name =>
    "unknown method " ++ Quoted.quote name ++ " (try \"help\"; methods: " ++ joinWith ", " methodNames ++
      ")"
  | .invalidParams method error => "invalid params for " ++ method ++ ": " ++ error.message
  | .unknownKind text =>
    "unknown kind " ++ Quoted.quote text ++ " (expected one of: " ++
      joinWith ", " (Kind.all.map Kind.text) ++ ")"

namespace Call

/-- A field that holds a text. -/
def textField (name : String) (aliases : List String) : Field := ⟨name, aliases, .text, none⟩

/-- A kind alone. -/
def kindShape : Shape := ⟨"KindParams", [textField "kind" []]⟩

/-- A kind and a key. -/
def keyShape : Shape := ⟨"KeyParams", [textField "kind" [], textField "key" ["name"]]⟩

/-- A route. -/
def routeShape : Shape := ⟨"RouteParams", [textField "key" ["name", "path"]]⟩

/-- A position in a file. -/
def positionShape : Shape :=
  ⟨"PositionParams", [textField "file" ["path"], ⟨"offset", ["byte_offset"], .index, none⟩]⟩

/-- How to scan. -/
def reindexShape : Shape := ⟨"ReindexParams", [⟨"background", [], .flag, some (.bool false)⟩]⟩

/-- The values of a method's parameters. -/
def readParams (method : String) (shape : Shape) (params : Json) : Except CallError (List Json) :=
  match shape.read params with
  | .ok values => .ok values
  | .error error => .error (.invalidParams method error)

/-- The kind that a text names. -/
def readKind (text : String) : Except CallError Kind :=
  match Kind.ofText? text with
  | some kind => .ok kind
  | none => .error (.unknownKind text)

/-- A text value. -/
def textOf (value : Option Json) : String :=
  match value with
  | some (.string text) => text
  | _ => ""

/-- A number value. -/
def indexOf (value : Option Json) : Nat :=
  match value with
  | some (.int number) => number.toNat
  | _ => 0

/-- A call about a key of a kind. -/
def readKeyed (method : String) (params : Json) (call : Kind → String → Call) : Except CallError Call := do
  let values ← readParams method keyShape params
  let kind ← readKind (textOf values[0]?)
  return call kind (textOf values[1]?)

/-- A call about a position in a file. -/
def readPositioned (method : String) (params : Json) (call : String → Nat → Call) :
    Except CallError Call := do
  let values ← readParams method positionShape params
  return call (textOf values[0]?) (indexOf values[1]?)

/-- A call for a scan; without parameters it is not one in the background. -/
def readReindex (params : Json) : Except CallError Call :=
  match params with
  | .null => .ok (.reindex false)
  | params => do
    match ← readParams "reindex" reindexShape params with
    | [.bool background] => return .reindex background
    | _ => return .reindex false

/-- The call of a method with parameters. -/
def read (method : String) (params : Json) : Except CallError Call :=
  match method with
  | "help" => .ok .help
  | "reindex" => readReindex params
  | "stats" => .ok .stats
  | "list" => do
    let values ← readParams method kindShape params
    return .list (← readKind (textOf values[0]?))
  | "declaration" => readKeyed method params .declaration
  | "usages" => readKeyed method params .usages
  | "lookup" => readKeyed method params .lookup
  | "route_definition" => do
    let values ← readParams method routeShape params
    return .routeDefinition (textOf values[0]?)
  | "classify" => readPositioned method params .classify
  | "complete" => readPositioned method params .complete
  | _ => .error (.unknownMethod method)

end Call

end ArtifactIndex
