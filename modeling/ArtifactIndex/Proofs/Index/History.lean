/-
**The index does not remember its history.**

A session is a project whose files change, with a service on it that refreshes its index and answers
calls in between. A refresh reuses the routes of every file whose digest it has seen before, so it is
not clear that the files of an earlier time leave no trace. Scans that no one waits for stay in the queue
of the service's worker until it turns to them, and calls are answered until then.

* `Index.refresh_eq_fresh`: a refresh whose reused routes were read from contents that the digest
  tells apart gives exactly the index of a first refresh;
* `Service.work_eq`, `Service.scan_eq`: what the worker makes of its queue is one refresh;
* `Session.run_forgetful`: after any history the index is the one that a single refresh of the tree of the
  last scan gives;
* `Session.answer_eq_fresh`: so every answer that is taken from the index is that of a brand-new index.

Contents with equal digests are equal by assumption, and only for the contents that occur
(`TellsApart`).
-/

import ArtifactIndex.Proofs.Worker.Settling
import ArtifactIndex.Service.Answer
import ArtifactIndex.Tree.Memory
import Mathlib.Data.List.Nodup

namespace ArtifactIndex

/-- **The digest has no collision** among the given contents. -/
def TellsApart (occurs : String → Prop) : Prop :=
  ∀ left right, occurs left → occurs right → Digest.ofText left = Digest.ofText right → left = right

/-- The contents of a project's files. -/
def Tree.Holds (tree : Tree) (text : String) : Prop := ∃ path, tree.read path = .ok text

/-! ### The cache of route files -/

/-- What a full parse of a file gives. -/
def ParsedRoutes.ofSource (file source : String) : ParsedRoutes :=
  ⟨Digest.ofText source, Route.routesOf file source⟩

/-- Every entry of the cache is what a full parse of some content gives. -/
def RouteCache.ReadFrom (occurs : String → Prop) (cache : RouteCache) : Prop :=
  ∀ file parsed, cache.get? file = some parsed →
    ∃ source, occurs source ∧ parsed = ParsedRoutes.ofSource file source

/-- What a dictionary holds after some insertions was there before or was inserted. -/
theorem Dict.get?_foldl_insert {α : Type} {key : String} {value : α} (entries : List (String × α))
    (dict : Dict α)
    (found : (entries.foldl (fun dict entry => dict.insert entry.1 entry.2) dict).get? key =
      some value) :
    dict.get? key = some value ∨ (key, value) ∈ entries := by
  induction entries generalizing dict with
  | nil => exact Or.inl found
  | cons entry rest ih =>
    rcases ih _ found with before | listed
    · rw [Dict.get?_insert] at before
      split at before
      · next same =>
        cases before
        rw [same]
        exact Or.inr List.mem_cons_self
      · exact Or.inl before
    · exact Or.inr (List.mem_cons_of_mem _ listed)

/-- A dictionary made of entries holds nothing else. -/
theorem Dict.mem_of_get?_ofList {α : Type} {entries : List (String × α)} {key : String} {value : α}
    (found : (Dict.ofList entries).get? key = some value) : (key, value) ∈ entries := by
  rcases Dict.get?_foldl_insert entries .empty found with impossible | listed
  · rw [Dict.get?_empty] at impossible
    cases impossible
  · exact listed

theorem RouteCache.readFrom_empty (occurs : String → Prop) : RouteCache.ReadFrom occurs .empty := by
  intro file parsed found
  rw [Dict.get?_empty] at found
  cases found

/-- The routes of a file, reused or read again, are a full parse of a content with the digest of its
own. -/
theorem exists_source_of_parseRoutes {occurs : String → Prop} {cache : RouteCache}
    (readFrom : cache.ReadFrom occurs) (file : String) {text : String} (here : occurs text) :
    ∃ source, occurs source ∧ Digest.ofText source = Digest.ofText text ∧
      (parseRoutes cache file text).1 = ParsedRoutes.ofSource file source := by
  fun_cases parseRoutes cache file text with
  | case1 digest known kept same =>
    obtain ⟨source, occurred, rfl⟩ := readFrom file known kept
    exact ⟨source, occurred, same, rfl⟩
  | case2 => exact ⟨text, here, rfl, rfl⟩
  | case3 => exact ⟨text, here, rfl, rfl⟩

/-- **Reuse is a full parse.** Whether the routes of a file are reused or read again, they are those
that a full parse of its content gives. -/
theorem parseRoutes_eq {occurs : String → Prop} (apart : TellsApart occurs) {cache : RouteCache}
    (readFrom : cache.ReadFrom occurs) (file : String) {source : String} (here : occurs source) :
    (parseRoutes cache file source).1 = ParsedRoutes.ofSource file source := by
  obtain ⟨earlier, occurred, same, whole⟩ := exists_source_of_parseRoutes readFrom file here
  rw [whole, apart earlier source occurred here same]

/-! ### One scan for routes -/

/-- The scan of a file finds the same routes whatever is in the cache. -/
theorem scanRouteFile_parsed {occurs : String → Prop} (apart : TellsApart occurs) {cache : RouteCache}
    (readFrom : cache.ReadFrom occurs) {tree : Tree} (visible : ∀ text, tree.Holds text → occurs text)
    (file : String) :
    (scanRouteFile tree cache file).parsed = (scanRouteFile tree .empty file).parsed := by
  unfold scanRouteFile
  split
  · rfl
  · next source counts read =>
    have here : occurs source := visible source ⟨_, Tree.read_of_scan read⟩
    show some (parseRoutes cache file source).1 = some (parseRoutes .empty file source).1
    rw [parseRoutes_eq apart readFrom file here,
      parseRoutes_eq apart (RouteCache.readFrom_empty occurs) file here]

/-- What a scan counts for a file, the reused ones aside, does not depend on the cache. -/
theorem scanRouteFile_counts (tree : Tree) (cache : RouteCache) (file : String) :
    (scanRouteFile tree cache file).counts.files = (scanRouteFile tree .empty file).counts.files ∧
      (scanRouteFile tree cache file).counts.errors =
        (scanRouteFile tree .empty file).counts.errors := by
  unfold scanRouteFile
  split
  · exact ⟨rfl, rfl⟩
  · exact ⟨rfl, rfl⟩

theorem scanRouteFile_file (tree : Tree) (cache : RouteCache) (file : String) :
    (scanRouteFile tree cache file).file = file := by
  unfold scanRouteFile
  split
  · rfl
  · rfl

/-- **The cache never shows.** A scan finds the routes, and leaves the cache, of a scan that starts
without one. -/
theorem scanRoutes_eq {occurs : String → Prop} (apart : TellsApart occurs) {cache : RouteCache}
    (readFrom : cache.ReadFrom occurs) {tree : Tree} (visible : ∀ text, tree.Holds text → occurs text) :
    (scanRoutes tree cache).table = (scanRoutes tree .empty).table ∧
      (scanRoutes tree cache).cache = (scanRoutes tree .empty).cache := by
  have parsed := scanRouteFile_parsed apart readFrom visible
  constructor
  · simp only [scanRoutes, List.flatMap_map, parsed]
  · simp only [scanRoutes, List.filterMap_map, Function.comp_def, parsed, scanRouteFile_file]

/-- Counts of several passes are added up each for itself. -/
theorem ScanCounts.foldl_add (counts : List ScanCounts) (start : ScanCounts) :
    counts.foldl ScanCounts.add start =
      ⟨(counts.map (·.files)).foldl (· + ·) start.files,
        (counts.map (·.errors)).foldl (· + ·) start.errors,
        (counts.map (·.reused)).foldl (· + ·) start.reused⟩ := by
  induction counts generalizing start with
  | nil => rfl
  | cons first rest ih =>
    rw [List.foldl_cons, ih]
    rfl

theorem ScanCounts.sum_eq (counts : List ScanCounts) :
    ScanCounts.sum counts =
      ⟨(counts.map (·.files)).foldl (· + ·) 0, (counts.map (·.errors)).foldl (· + ·) 0,
        (counts.map (·.reused)).foldl (· + ·) 0⟩ :=
  ScanCounts.foldl_add counts {}

/-- The files and the errors that a scan for routes counts do not depend on the cache. -/
theorem scanRoutes_counts (tree : Tree) (cache : RouteCache) :
    (scanRoutes tree cache).counts.files = (scanRoutes tree .empty).counts.files ∧
      (scanRoutes tree cache).counts.errors = (scanRoutes tree .empty).counts.errors := by
  have files := fun file => (scanRouteFile_counts tree cache file).1
  have errors := fun file => (scanRouteFile_counts tree cache file).2
  constructor
  · simp only [scanRoutes, ScanCounts.sum_eq, List.map_map, Function.comp_def, files]
  · simp only [scanRoutes, ScanCounts.sum_eq, List.map_map, Function.comp_def, errors]

/-- **What a scan takes for a file** is a full parse of a content with the digest of the file's text,
whether it comes from the cache or not. -/
theorem exists_source_of_scanRouteFile {occurs : String → Prop} {cache : RouteCache}
    (readFrom : cache.ReadFrom occurs) {tree : Tree} (visible : ∀ text, tree.Holds text → occurs text)
    {file : String} {parsed : ParsedRoutes} (isParsed : (scanRouteFile tree cache file).parsed = some parsed) :
    ∃ text source, tree.read file = .ok text ∧ occurs source ∧
      Digest.ofText source = Digest.ofText text ∧ parsed = ParsedRoutes.ofSource file source := by
  unfold scanRouteFile at isParsed
  split at isParsed
  · cases isParsed
  · next text counts scanned =>
    have isRead := Tree.read_of_scan scanned
    obtain ⟨source, occurred, same, whole⟩ :=
      exists_source_of_parseRoutes readFrom file (visible text ⟨file, isRead⟩)
    refine ⟨text, source, isRead, occurred, same, ?_⟩
    rw [← whole]
    exact (Option.some.inj isParsed).symm

/-- A scan leaves in the cache what was read, this time or before. -/
theorem readFrom_scanRoutes {occurs : String → Prop} {cache : RouteCache}
    (readFrom : cache.ReadFrom occurs) {tree : Tree} (visible : ∀ text, tree.Holds text → occurs text) :
    (scanRoutes tree cache).cache.ReadFrom occurs := by
  intro file parsed found
  obtain ⟨scan, isScan, kept⟩ := List.mem_filterMap.mp (Dict.mem_of_get?_ofList found)
  obtain ⟨path, -, rfl⟩ := List.mem_map.mp isScan
  obtain ⟨held, isHeld, same⟩ := Option.map_eq_some_iff.mp kept
  rw [scanRouteFile_file] at same
  cases same
  obtain ⟨-, source, -, occurred, -, whole⟩ := exists_source_of_scanRouteFile readFrom visible isHeld
  exact ⟨source, occurred, whole⟩

/-! ### One refresh -/

namespace Index

/-- **A refresh is a first refresh.** With a cache read from contents that the digest tells apart, the
index behind a refresh is that of a brand-new index refreshed once. -/
theorem refresh_eq_fresh {occurs : String → Prop} (apart : TellsApart occurs) {index : Index}
    (readFrom : index.routeCache.ReadFrom occurs) {tree : Tree}
    (visible : ∀ text, tree.Holds text → occurs text) :
    index.refresh tree = (Index.empty index.strictJson).refresh tree := by
  obtain ⟨table, cache⟩ := scanRoutes_eq apart readFrom visible
  obtain ⟨files, errors⟩ := scanRoutes_counts tree index.routeCache
  simp only [refresh, empty, statsOf, ScanCounts.sum_eq, List.map_cons, table, cache, files, errors]

/-- Any row of refreshes leaves in the cache what was read in them. -/
theorem readFrom_foldl (occurs : String → Prop) (strictJson : Bool) {trees : List Tree}
    (visible : ∀ tree ∈ trees, ∀ text, tree.Holds text → occurs text) :
    (trees.foldl refresh (empty strictJson)).routeCache.ReadFrom occurs := by
  suffices ∀ index : Index, index.routeCache.ReadFrom occurs →
      (trees.foldl refresh index).routeCache.ReadFrom occurs from
    this _ (RouteCache.readFrom_empty occurs)
  induction trees with
  | nil => exact fun _ readFrom => readFrom
  | cons tree rest ih =>
    intro index readFrom
    exact ih (fun later listed => visible later (List.mem_cons_of_mem _ listed)) _
      (readFrom_scanRoutes readFrom (visible tree List.mem_cons_self))

end Index

/-! ### Sessions -/

/-- What can happen to a project and the service on it. -/
inductive Event where
  /-- Files are written or removed; the project is this tree from now on. -/
  | edit (tree : Tree)
  /-- The index is refreshed without a call. -/
  | refresh
  /-- The worker of the service turns to its queue. -/
  | work
  /-- A client calls. -/
  | call (call : Call)

/-- The tree of the last scan behind a call: a call for help leaves it, and so does one that only puts a
scan into the queue of a worker; any other call for a scan takes the files as they are, and every other
call does so only if there was no scan before. -/
def Call.seenBehind (call : Call) (hasWorker : Bool) (tree : Tree) (seen : Option Tree) : Option Tree :=
  match call with
  | .help => seen
  | .reindex background => if background && hasWorker then seen else some tree
  | _ => some (seen.getD tree)

/-- The answer is taken from the index alone. -/
def Call.isFromScan : Call → Bool
  | .stats => true
  | .list _ => true
  | .usages _ _ => true
  | .lookup _ _ => true
  | .routeDefinition _ => true
  | .declaration kind _ => kind == .route || kind == .asset
  | _ => false

/-- A project, the service on it, and the project as it was at the last scan. -/
structure Session where
  tree : Tree
  service : Service
  seen : Option Tree

namespace Session

/-- A project with a new service on it. -/
def start (strictJson hasWorker : Bool) (tree : Tree) : Session :=
  { tree, service := Service.start strictJson hasWorker, seen := none }

/-- The session behind an event. -/
def step (session : Session) : Event → Session
  | .edit tree => { session with tree }
  | .refresh =>
    { session with
      service := { session.service with index := session.service.index.refresh session.tree }
      seen := some session.tree }
  | .work =>
    { session with
      service := session.service.work session.tree
      seen := if session.service.queued = 0 then session.seen else some session.tree }
  | .call call =>
    { session with
      service := (session.service.answer session.tree call).1
      seen := call.seenBehind session.service.hasWorker session.tree session.seen }

/-- The session behind a history. -/
def run (session : Session) (history : List Event) : Session := history.foldl step session

end Session

/-- The contents that occur in a history: those of the project's files at its start and behind each
edit. -/
def Occurs (tree : Tree) (history : List Event) (text : String) : Prop :=
  tree.Holds text ∨ ∃ edited, Event.edit edited ∈ history ∧ edited.Holds text

/-- A brand-new index, refreshed once if a tree is given. -/
def Index.fresh (strictJson : Bool) : Option Tree → Index
  | none => Index.empty strictJson
  | some tree => (Index.empty strictJson).refresh tree

/-! ### Scans through a worker -/

namespace Service

variable (service : Service) (tree : Tree)

/-- The worker of a service with requests in its queue refreshes once for all of them. -/
theorem settle_requests (index : Index) (messages : List Message) (some_request : messages ≠ [])
    (requests : ∀ message ∈ messages, message.isRefresh = true) :
    Worker.settle (refreshWith tree) { Worker.start index with queue := messages } =
      { Worker.start index with
        state := index.refresh tree
        replies := (waitersOf messages).map (·, (index.refresh tree).stats)
        refreshes := 1 } :=
  Worker.settle_of_requests rfl rfl requests some_request

/-- **The worker turns to its queue**: it refreshes once, if there is anything in it. -/
theorem work_eq : service.work tree =
    if service.queued = 0 then service
    else { service with index := service.index.refresh tree, queued := 0 } := by
  obtain ⟨index, hasWorker, queued⟩ := service
  unfold work worker
  split
  · next nothing =>
    cases nothing
    exact congrArg (behind _) (Worker.steps_resting rfl rfl rfl _)
  · next something =>
    rw [settle_requests tree index _ (mt (List.replicate_eq_nil_iff _).mp something)]
    · rfl
    · intro message inQueue
      rw [List.eq_of_mem_replicate inQueue]
      rfl

/-- **A scan refreshes once**, with and without a worker, and its counts are those of that refresh. It
covers what is in the worker's queue. -/
theorem scan_eq : service.scan tree =
    ({ service with
        index := service.index.refresh tree, queued := if service.hasWorker then 0 else service.queued },
      .ok (service.index.refresh tree).stats) := by
  obtain ⟨index, hasWorker, queued⟩ := service
  cases hasWorker with
  | false => rfl
  | true =>
    have settled := settle_requests tree index (List.replicate queued (.refresh none) ++ [.refresh (some 0)])
      (List.append_ne_nil_of_right_ne_nil _ (List.cons_ne_nil _ _)) fun message inQueue => by
        rcases List.mem_append.mp inQueue with before | last
        · rw [List.eq_of_mem_replicate before]
          rfl
        · rw [List.mem_singleton.mp last]
          rfl
    have waiting : waitersOf (List.replicate queued (.refresh none) ++ [.refresh (some 0)]) = [0] := by
      rw [waitersOf_append, waitersOf, List.filterMap_replicate_of_none rfl]
      rfl
    rw [waiting] at settled
    unfold scan
    dsimp only
    rw [if_pos rfl, worker, Worker.enqueue, settled]
    rfl

/-- **A call for a scan** that no one waits for is left to the worker, and any other refreshes the
index. -/
theorem answer_reindex (background : Bool) : (service.answer tree (.reindex background)).1.index =
    if background && service.hasWorker then service.index else service.index.refresh tree := by
  unfold answer
  dsimp only
  split
  · rfl
  · rw [scan_eq]

end Service

/-! ### Histories -/

section Histories

variable {occurs : String → Prop} {strictJson : Bool}

/-- **The session has no memory.** Its index is a brand-new one refreshed once on the tree of the last
scan, and all files, now and then, hold contents that occur. -/
structure Session.Forgetful (occurs : String → Prop) (strictJson : Bool) (session : Session) : Prop where
  index_eq : session.service.index = Index.fresh strictJson session.seen
  now : ∀ text, session.tree.Holds text → occurs text
  atScan : ∀ tree, session.seen = some tree → ∀ text, tree.Holds text → occurs text

theorem Index.fresh_strictJson (seen : Option Tree) :
    (Index.fresh strictJson seen).strictJson = strictJson := by
  cases seen with
  | none => rfl
  | some tree => rfl

theorem Index.fresh_scanned (seen : Option Tree) :
    (Index.fresh strictJson seen).scanned = seen.isSome := by
  cases seen with
  | none => rfl
  | some tree => rfl

/-- A brand-new index has read its cache from the tree it was refreshed on. -/
theorem Index.fresh_readFrom (seen : Option Tree)
    (atScan : ∀ tree, seen = some tree → ∀ text, tree.Holds text → occurs text) :
    (Index.fresh strictJson seen).routeCache.ReadFrom occurs := by
  cases seen with
  | none => exact RouteCache.readFrom_empty occurs
  | some tree => exact readFrom_scanRoutes (RouteCache.readFrom_empty occurs) (atScan tree rfl)

namespace Session.Forgetful

variable {session : Session}

theorem start (hasWorker : Bool) {tree : Tree} (now : ∀ text, tree.Holds text → occurs text) :
    Forgetful occurs strictJson (Session.start strictJson hasWorker tree) where
  index_eq := rfl
  now := now
  atScan := by
    intro tree impossible
    cases impossible

/-- A refresh gives the brand-new index of the files as they are. -/
theorem refresh (apart : TellsApart occurs) (forgetful : session.Forgetful occurs strictJson) :
    session.service.index.refresh session.tree = Index.fresh strictJson (some session.tree) := by
  have readFrom : session.service.index.routeCache.ReadFrom occurs := by
    rw [forgetful.index_eq]
    exact Index.fresh_readFrom session.seen forgetful.atScan
  rw [Index.refresh_eq_fresh apart readFrom forgetful.now, forgetful.index_eq, Index.fresh_strictJson]
  rfl

/-- A question to an index that may not be scanned yet is put to the brand-new index of the tree of the
last scan, or of the files as they are. -/
theorem ensureScanned (apart : TellsApart occurs) (forgetful : session.Forgetful occurs strictJson) :
    session.service.index.ensureScanned session.tree =
      Index.fresh strictJson (some (session.seen.getD session.tree)) := by
  have scanned : session.service.index.scanned = session.seen.isSome := by
    rw [forgetful.index_eq, Index.fresh_scanned]
  unfold Index.ensureScanned
  rw [scanned]
  cases seen : session.seen with
  | none =>
    rw [Option.isSome_none, if_neg Bool.false_ne_true]
    exact forgetful.refresh apart
  | some tree =>
    rw [Option.isSome_some, if_pos rfl, forgetful.index_eq, seen]
    rfl

/-- The session with an index refreshed on the files as they are. -/
theorem scanned_now (forgetful : session.Forgetful occurs strictJson) {service : Service}
    (index_eq : service.index = Index.fresh strictJson (some session.tree)) :
    Forgetful occurs strictJson { session with service, seen := some session.tree } where
  index_eq := index_eq
  now := forgetful.now
  atScan := by
    intro tree same
    cases same
    exact forgetful.now

/-- The session behind a question. -/
theorem asked (apart : TellsApart occurs) (forgetful : session.Forgetful occurs strictJson) :
    Forgetful occurs strictJson
      { session with
        service :=
          { session.service with index := session.service.index.ensureScanned session.tree }
        seen := some (session.seen.getD session.tree) } where
  index_eq := forgetful.ensureScanned apart
  now := forgetful.now
  atScan := by
    intro tree same
    cases seen : session.seen with
    | none =>
      rw [seen] at same
      cases same
      exact forgetful.now
    | some earlier =>
      rw [seen] at same
      cases same
      exact forgetful.atScan earlier seen

/-- **One event.** No event gives the session a memory. -/
theorem step (apart : TellsApart occurs) (forgetful : session.Forgetful occurs strictJson)
    (event : Event)
    (visible : ∀ tree, event = .edit tree → ∀ text, tree.Holds text → occurs text) :
    (session.step event).Forgetful occurs strictJson := by
  cases event with
  | edit tree => exact ⟨forgetful.index_eq, visible tree rfl, forgetful.atScan⟩
  | refresh => exact forgetful.scanned_now (forgetful.refresh apart)
  | work =>
    rw [Session.step, Service.work_eq]
    split
    · exact forgetful
    · exact forgetful.scanned_now (forgetful.refresh apart)
  | call call =>
    cases call with
    | help => exact forgetful
    | reindex background =>
      have index_eq := Service.answer_reindex session.service session.tree background
      rw [Session.step, Call.seenBehind]
      split at index_eq
      · next isQueued =>
        rw [if_pos isQueued]
        exact ⟨index_eq.trans forgetful.index_eq, forgetful.now, forgetful.atScan⟩
      · next isScanned =>
        rw [if_neg isScanned]
        exact forgetful.scanned_now (index_eq.trans (forgetful.refresh apart))
    | _ => exact forgetful.asked apart

/-- **A whole history.** By induction on its events. -/
theorem run (apart : TellsApart occurs) (forgetful : session.Forgetful occurs strictJson)
    (history : List Event)
    (visible : ∀ tree, Event.edit tree ∈ history → ∀ text, tree.Holds text → occurs text) :
    (session.run history).Forgetful occurs strictJson := by
  induction history generalizing session with
  | nil => exact forgetful
  | cons event rest ih =>
    have first : (session.step event).Forgetful occurs strictJson :=
      forgetful.step apart event fun tree same => visible tree (same ▸ List.mem_cons_self)
    exact ih first fun tree listed => visible tree (List.mem_cons_of_mem _ listed)

end Session.Forgetful

end Histories

/-- After any history the session has no memory of the trees before the last scan. -/
theorem Session.run_forgetful (strictJson hasWorker : Bool) (tree : Tree) (history : List Event)
    (apart : TellsApart (Occurs tree history)) :
    ((Session.start strictJson hasWorker tree).run history).Forgetful (Occurs tree history)
      strictJson :=
  (Session.Forgetful.start hasWorker fun _ held => Or.inl held).run apart history
    fun edited listed _ held => Or.inr ⟨edited, listed, held⟩

/-- An answer that is taken from the index does not depend on the files as they are. -/
theorem Service.query_tree {call : Call} (fromScan : call.isFromScan = true) (index : Index)
    (tree other : Tree) : Service.query index tree call = Service.query index other call := by
  cases call with
  | declaration kind key =>
    cases kind with
    | route => rfl
    | asset => rfl
    | translation => cases fromScan
    | view => cases fromScan
  | help => cases fromScan
  | reindex background => cases fromScan
  | classify file position => cases fromScan
  | complete file position => cases fromScan
  | _ => rfl

/-- A call whose answer is taken from the index is put to the scanned index. -/
theorem Service.answer_fromScan {call : Call} (fromScan : call.isFromScan = true) (service : Service)
    (tree : Tree) :
    (service.answer tree call).2 = Service.query (service.index.ensureScanned tree) tree call := by
  cases call with
  | help => cases fromScan
  | reindex background => cases fromScan
  | _ => rfl

/-- **History independence.** After any history of edits, refreshes and calls, the tables and counts of
the index are those of a brand-new index refreshed once on the tree of the last scan, and so is every
answer that is taken from the index; the first question scans if nothing did before. -/
theorem Session.answer_eq_fresh (strictJson hasWorker : Bool) (tree : Tree) (history : List Event)
    (apart : TellsApart (Occurs tree history)) (call : Call) (fromScan : call.isFromScan = true) :
    let session := (Session.start strictJson hasWorker tree).run history
    let seen := session.seen.getD session.tree
    let fresh := (Index.empty strictJson).refresh seen
    session.service.index.ensureScanned session.tree = fresh ∧
      (session.service.answer session.tree call).2 =
        (({ index := fresh, hasWorker } : Service).answer seen call).2 := by
  intro session seen fresh
  have forgetful := Session.run_forgetful strictJson hasWorker tree history apart
  have scanned : session.service.index.ensureScanned session.tree = fresh :=
    forgetful.ensureScanned apart
  refine ⟨scanned, ?_⟩
  rw [Service.answer_fromScan fromScan, Service.answer_fromScan fromScan, scanned]
  exact Service.query_tree fromScan fresh session.tree seen

/-- The files of a project in memory hold the texts of its table. -/
theorem MemoryFiles.holds_toTree {files : MemoryFiles} {text : String} (held : files.toTree.Holds text) :
    ∃ path, (path, text) ∈ files.texts.entries := by
  obtain ⟨path, read⟩ := held
  simp only [MemoryFiles.toTree] at read
  split at read
  · next found =>
    cases read
    exact ⟨_, Node.mem_of_lookup_eq_some found⟩
  · cases read

/-- Contents out of a list with different digests are told apart. -/
theorem tellsApart_of_nodup {occurs : String → Prop} {texts : List String}
    (listed : ∀ text, occurs text → text ∈ texts) (distinct : (texts.map Digest.ofText).Nodup) :
    TellsApart occurs :=
  fun left right isLeft isRight same =>
    List.inj_on_of_nodup_map distinct (listed left isLeft) (listed right isRight) same

/-- No two of these contents have one digest. -/
theorem nodup_digests :
    (["", "<?php return ['k' => 'v'];", "<?php Route::get('/a', fn () => 1);",
      "<?php Route::get('/b', fn () => 1);"].map Digest.ofText).Nodup := by
  decide +kernel

/-- A route file that is rewritten behind a first scan, and removed when a scan in the background is done:
the list of routes is that of the rewritten file. -/
theorem Session.answer_eq_fresh_rewritten :
    let before := "<?php Route::get('/a', fn () => 1);"
    let behind := "<?php Route::get('/b', fn () => 1);"
    let holding := fun source => (MemoryFiles.mk ⟨[("routes/web.php", source)]⟩).toTree
    let history := [Event.refresh, .edit (holding behind), .call (.reindex true), .work,
      .edit MemoryFiles.empty.toTree]
    let session := (Session.start false true (holding before)).run history
    TellsApart (Occurs (holding before) history) ∧ (Call.list .route).isFromScan = true ∧
      (session.service.answer session.tree (.list .route)).2 =
        (({ index := (Index.empty false).refresh (holding behind), hasWorker := true } :
          Service).answer (holding behind) (.list .route)).2 := by
  intro before behind holding history session
  have contents : ∀ text, Occurs (holding before) history text → text = before ∨ text = behind := by
    rintro text (held | ⟨edited, listed, held⟩)
    · obtain ⟨path, found⟩ := MemoryFiles.holds_toTree held
      simp only [List.mem_singleton, Prod.mk.injEq] at found
      exact Or.inl found.2
    · simp only [history, List.mem_cons, Event.edit.injEq, List.not_mem_nil, or_false, false_or,
        reduceCtorEq] at listed
      rcases listed with rfl | rfl
      · obtain ⟨path, found⟩ := MemoryFiles.holds_toTree held
        simp only [List.mem_singleton, Prod.mk.injEq] at found
        exact Or.inr found.2
      · obtain ⟨path, found⟩ := MemoryFiles.holds_toTree held
        cases found
  have apart : TellsApart (Occurs (holding before) history) := by
    refine tellsApart_of_nodup (fun text occurs => ?_) nodup_digests
    rcases contents text occurs with rfl | rfl
    · exact .tail _ (.tail _ (.head _))
    · exact .tail _ (.tail _ (.tail _ (.head _)))
  exact ⟨apart, rfl, (Session.answer_eq_fresh false true (holding before) history apart
    (.list .route) rfl).2⟩

end ArtifactIndex
