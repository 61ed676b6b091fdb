/-
**Requests and responses.**

A request is a line of JSON with a method, its parameters and an identifier, which comes back with the
response. `Request.parse` reads it; what is wrong with a line is reported with its position.

* `Request.parse`: the request on a line;
* `Service.respondToLine`: the response to a line.
-/

import ArtifactIndex.Json.Skip
import ArtifactIndex.Options
import ArtifactIndex.Service.Answer

namespace ArtifactIndex

/-- A request to the service. -/
structure Request where
  id : Json
  method : String
  params : Json

namespace Request

open Json (Cursor Outcome Fault)

/-- The shape of a request in the words of an error message. -/
def title : String := "struct RpcRequest"

/-- A fault about the shape of what stands at a place. -/
def shapeFault (cursor : Cursor) (error : ShapeError) : Fault := cursor.fault (.shape error.message)

/-- The fault of a value that is of another type than expected. A number, word or string is read before
it is reported. -/
def wrongType (expected : String) (cursor : Cursor) : Fault :=
  match cursor.rest with
  | '[' :: _ => shapeFault cursor (.wrongType (.array []) expected)
  | '{' :: _ => shapeFault cursor (.wrongType (.object []) expected)
  | _ =>
    match Json.readScalar cursor with
    | .ok (value, behind) => shapeFault behind (.wrongType value expected)
    | .error fault => fault

/-- A value that has to be a string. -/
def readText (cursor : Cursor) : Outcome String :=
  let cursor := cursor.skipGaps
  match cursor.rest with
  | [] => .error (cursor.peekFault .endInValue)
  | c :: _ => if c = '"' then Json.readString cursor else .error (wrongType "a string" cursor)

/-- A value of any shape inside a request. -/
def readAny (cursor : Cursor) : Outcome Json :=
  Json.readValue (Json.fuelFor cursor) (Json.depthLimit - 1) cursor

/-- The fields of a request found so far. -/
structure Draft where
  id : Option Json := none
  method : Option String := none
  params : Option Json := none

/-- The request, if its method is there. -/
def Draft.finish? (draft : Draft) : Option Request :=
  draft.method.map fun method =>
    { id := draft.id.getD .null, method, params := draft.params.getD .null }

/-- Reads the value of a member, behind its name, into the draft. -/
def readMember (draft : Draft) (name : String) (cursor : Cursor) :
    Except Fault (Draft × Cursor) :=
  let duplicate := .error (shapeFault cursor.skipGaps (.duplicateField name))
  match name with
  | "id" =>
    if draft.id.isSome then duplicate
    else do
      let (_, cursor) ← Json.readColon cursor
      let (value, cursor) ← readAny cursor
      return ({ draft with id := some value }, cursor)
  | "method" =>
    if draft.method.isSome then duplicate
    else do
      let (_, cursor) ← Json.readColon cursor
      let (value, cursor) ← readText cursor
      return ({ draft with method := some value }, cursor)
  | "params" =>
    if draft.params.isSome then duplicate
    else do
      let (_, cursor) ← Json.readColon cursor
      let (value, cursor) ← readAny cursor
      return ({ draft with params := some value }, cursor)
  | _ => do
    let (_, cursor) ← Json.readColon cursor
    let cursor ← Json.skipValue (Json.fuelFor cursor) cursor
    return (draft, cursor)

/-- Reads the members of a request up to its closing brace. One unit of fuel is spent for each
member. -/
def readMembers : Nat → Draft → Bool → Cursor → Outcome Request
  | 0, _, _, cursor => .error (cursor.fault .endInObject)
  | fuel + 1, draft, first, cursor =>
    match Json.nextMember first cursor with
    | .error fault => .error fault
    | .ok (false, cursor) =>
      match draft.finish? with
      | some request => .ok (request, cursor.next)
      | none => .error (shapeFault cursor.next (.missingField "method"))
    | .ok (true, cursor) =>
      match Json.readString cursor with
      | .error fault => .error fault
      | .ok (name, cursor) =>
        match readMember draft name cursor with
        | .error fault => .error fault
        | .ok (draft, cursor) => readMembers fuel draft false cursor

/-- The end of a request that is written as an array. -/
def readArrayEnd (cursor : Cursor) : Except Fault Cursor :=
  let cursor := cursor.skipGaps
  match cursor.rest with
  | [] => .error (cursor.peekFault .endInList)
  | ']' :: _ => .ok cursor.next
  | ',' :: _ =>
    let behind := cursor.next.skipGaps
    .error (behind.peekFault (if behind.rest.head? == some ']' then .trailingComma else .trailingCharacters))
  | _ => .error (cursor.peekFault .trailingCharacters)

/-- Reads the elements of a request that is written as an array: the identifier, the method and the
parameters, of which the last may be left out. -/
def readElements (cursor : Cursor) : Except Fault (Request × Cursor) :=
  let tooShort := fun cursor : Cursor =>
    Except.error (shapeFault cursor.next (.wrongLength 1 (title ++ " with 3 elements")))
  match Json.nextElement true cursor with
  | .error fault => .error fault
  | .ok (false, cursor) => tooShort cursor
  | .ok (true, cursor) => do
    let (id, cursor) ← readAny cursor
    match ← Json.nextElement false cursor with
    | (false, cursor) => tooShort cursor
    | (true, cursor) =>
      let (method, cursor) ← readText cursor
      match ← Json.nextElement false cursor with
      | (false, cursor) => return ({ id, method, params := .null }, ← readArrayEnd cursor)
      | (true, cursor) =>
        let (params, cursor) ← readAny cursor
        return ({ id, method, params }, ← readArrayEnd cursor)

/-- The request that a line holds. -/
def parse (line : String) : Except Fault Request := do
  let cursor := (Cursor.ofText line).skipGaps
  let (request, cursor) ←
    match cursor.rest with
    | [] => .error (cursor.peekFault .endInValue)
    | '[' :: _ => readElements cursor.next
    | '{' :: _ => readMembers (Json.fuelFor cursor) {} true cursor.next
    | _ => .error (wrongType title cursor)
  Json.readEnd cursor
  return request

end Request

/-- A response to a request. -/
structure Response where
  id : Json
  /-- The result, or what went wrong. -/
  outcome : Except String Json

/-- The response as a line of JSON, the identifier first. -/
def Response.line (response : Response) : String :=
  let (name, value) :=
    match response.outcome with
    | .ok result => ("result", result)
    | .error message => ("error", Json.object [("message", .string message)])
  (Json.object [("id", response.id), (name, value)]).compact

namespace Service

/-- The response to a request, and the service behind it. -/
def respond (service : Service) (tree : Tree) (request : Request) : Service × Response :=
  let (service, outcome) := service.handle tree request.method request.params
  (service, { id := request.id, outcome := outcome.mapError ServiceError.message })

/-- The response to a line, and the service behind it. -/
def respondToLine (service : Service) (tree : Tree) (line : String) : Service × Response :=
  match Request.parse line with
  | .ok request => service.respond tree request
  | .error fault =>
    (service, { id := .null, outcome := .error ("invalid request: " ++ fault.describe line) })

/-- The responses to lines, one after another; blank lines have none. The worker empties its queue
before each line. -/
def respondToLines (service : Service) (tree : Tree) : List String → List Response
  | [] => []
  | line :: rest =>
    if allBlank line then service.respondToLines tree rest
    else
      let (service, response) := (service.work tree).respondToLine tree line
      response :: service.respondToLines tree rest

/-- An identifier given as a text: the value that it writes, or else the text itself. -/
def readId (text : String) : Json :=
  match Json.parse text with
  | .ok value => value
  | .error _ => .string text

/-- The response to a single request given in texts, on a project that was never scanned. The fault is
that of the parameters. -/
def respondOnce (tree : Tree) (options : Options) (method params id : String) : Except String Response :=
  match Json.parse params with
  | .error fault => .error ("parse params JSON: " ++ fault.describe params)
  | .ok params =>
    .ok ((Service.start options.strictJson false).respond tree { id := readId id, method, params }).2

end Service

end ArtifactIndex
