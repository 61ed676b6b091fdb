/-
**Answers of the service.**

A service holds an index and answers calls about it. With a worker, scans run through the worker's
queue; without one they run at once. Every call but those for help and for a scan scans the project
first if that was never done.

A scan that no one waits for is only put into the queue. The worker turns to it at some later time, and
other calls can be answered until then.

* `Service.answer`: the answer to a call, and the service behind it;
* `Service.work`: the service behind the work of its worker.
-/

import ArtifactIndex.Encoding
import ArtifactIndex.Service.Call
import ArtifactIndex.Worker

namespace ArtifactIndex

/-- A method for the table of methods. -/
structure MethodNote where
  name : String
  summary : String
  params : List String

/-- The table of methods. -/
def methodNotes : List MethodNote :=
  [⟨"help", "Show RPC help and the method table.", []⟩,
    ⟨"reindex", "Rescan routes, translations, views, assets and usages.", ["background (bool)"]⟩,
    ⟨"stats", "Counts from the last completed refresh.", []⟩,
    ⟨"list", "Every key of one artifact kind, sorted.", ["kind (route|translation|view|asset)"]⟩,
    ⟨"declaration", "Declaration sites of a key.", ["kind", "key"]⟩,
    ⟨"usages", "Usage sites of a key.", ["kind", "key"]⟩,
    ⟨"lookup", "The indexed record for a key, or null.", ["kind", "key"]⟩,
    ⟨"route_definition", "Full route definition: action parts, middleware sources, constraints.",
      ["key (route name or path)"]⟩,
    ⟨"classify", "Artifact kind, key, declarations and usage count of the literal at a position.",
      ["file", "offset"]⟩,
    ⟨"complete", "Completion candidates for the literal at a position.", ["file", "offset"]⟩]

/-- An example of a call. -/
def exampleCall (method : String) (params : List (String × Json)) : Json :=
  .record [("method", .string method), ("params", .record params)]

/-- The help of the service. -/
def helpJson : Json :=
  .record
    [("summary", .string ("laridx indexes Laravel routes, translations, views and assets and " ++
        "serves JSONL RPC over stdin/stdout.")),
      ("kinds", Json.strings (Kind.all.map Kind.text)),
      ("methods", Json.ofList
        (fun note : MethodNote =>
          .record [("name", .string note.name), ("summary", .string note.summary),
            ("key_params", Json.strings note.params)])
        methodNotes),
      ("names", Json.strings methodNames),
      ("examples", .array
        [exampleCall "list" [("kind", .string "route")],
          exampleCall "usages" [("kind", .string "route"), ("key", .string "users.index")],
          exampleCall "classify"
            [("file", .string "resources/views/welcome.blade.php"), ("offset", .nat 120)]])]

/-- A service on the index of a project. -/
structure Service where
  index : Index
  /-- Scans run through a worker. -/
  hasWorker : Bool
  /-- The scans in the worker's queue; no one waits for them. -/
  queued : Nat := 0

/-- Why a call is not answered. -/
inductive ServiceError where
  | badCall (error : CallError)
  /-- The file of a position has no text. -/
  | unreadable (file : String) (error : ReadError)
  /-- The worker has stopped. -/
  | workerStopped

/-- The reason in words. A path that could not be followed gives its reason once more, at the end. -/
def ServiceError.message : ServiceError → String
  | .badCall error => error.message
  | .unreadable file error =>
    "read " ++ file ++ ": " ++ error.message ++
      match error with
      | .readFailed _ reason => ": " ++ reason
      | _ => ""
  | .workerStopped => "refresh worker stopped before replying"

namespace Service

/-- A service before any scan. -/
def start (strictJson hasWorker : Bool) : Service := { index := Index.empty strictJson, hasWorker }

/-- A refresh as a worker makes it: the index behind it, and its counts. -/
def refreshWith (tree : Tree) (index : Index) : Index × Stats :=
  let refreshed := index.refresh tree
  (refreshed, refreshed.stats)

/-- The worker of the service, with what is in its queue. -/
def worker (service : Service) : Worker Index Stats :=
  { Worker.start service.index with queue := List.replicate service.queued (.refresh none) }

/-- The service with the index and the queue that its worker leaves. -/
def behind (service : Service) (worker : Worker Index Stats) : Service :=
  { service with index := worker.state, queued := worker.queue.length }

/-- The service with one more scan in the queue. -/
def request (service : Service) : Service := { service with queued := service.queued + 1 }

/-- The service behind the work of its worker on all that is in the queue. -/
def work (service : Service) (tree : Tree) : Service :=
  service.behind (service.worker.settle (refreshWith tree))

/-- A scan, and its counts. One in a worker's queue covers those that were put there before. -/
def scan (service : Service) (tree : Tree) : Service × Except ServiceError Stats :=
  if service.hasWorker then
    let worker := (service.worker.enqueue (.refresh (some 0))).settle (refreshWith tree)
    (service.behind worker,
      match worker.replyTo? 0 with
      | some stats => .ok stats
      | none => .error .workerStopped)
  else
    let index := service.index.refresh tree
    ({ service with index }, .ok index.stats)

/-- The answer from a scanned index; calls for help and for a scan have their own. -/
def query (index : Index) (tree : Tree) : Call → Except ServiceError Json
  | .help => .ok helpJson
  | .reindex _ => .ok index.stats.toJson
  | .stats => .ok index.stats.toJson
  | .list kind => .ok (Json.strings (index.keys kind))
  | .declaration kind key => .ok (Json.ofList Site.toJson (index.declarations tree kind key))
  | .usages kind key => .ok (Json.ofList Usage.toJson (index.usages kind key))
  | .lookup kind key => .ok (index.lookup kind key)
  | .routeDefinition key => .ok (Json.ofOption Route.definitionJson (index.artifacts.routes.get? key))
  | .classify file position =>
    match index.classifyAt tree file position with
    | .ok found => .ok (Json.ofOption Classification.toJson found)
    | .error error => .error (.unreadable file error)
  | .complete file position =>
    match index.completeAt tree file position with
    | .ok found => .ok (Json.ofList Completion.toJson found)
    | .error error => .error (.unreadable file error)

/-- The answer to a call, and the service behind it. -/
def answer (service : Service) (tree : Tree) (call : Call) : Service × Except ServiceError Json :=
  match call with
  | .help => (service, .ok helpJson)
  | .reindex background =>
    if background && service.hasWorker then
      (service.request, .ok (.record [("queued", .bool true)]))
    else
      let (service, stats) := service.scan tree
      (service, stats.map Stats.toJson)
  | call =>
    let index := service.index.ensureScanned tree
    ({ service with index }, query index tree call)

/-- The answer to a method with parameters, and the service behind it. -/
def handle (service : Service) (tree : Tree) (method : String) (params : Json) :
    Service × Except ServiceError Json :=
  match Call.read method params with
  | .error error => (service, .error (.badCall error))
  | .ok call => service.answer tree call

end Service

end ArtifactIndex
