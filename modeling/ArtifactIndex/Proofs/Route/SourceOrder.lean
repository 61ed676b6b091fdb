/-
**Routes stand in source order, one for each declaration.**

The walk over a program emits the routes of a chain, or goes into the functions given to it, and never
both. So the routes of a program come in the order of their calls, and two of them share a place only
when one call declares a resource.

* `spread_routesBelow`: the routes at or below a node, by induction on the walk;
* `spread_of_isTreeOf`: those of a program;
* `Index.routes_in_source_order`: those of an index behind any row of refreshes, in which files are
  scanned again or taken from the cache.
-/

import ArtifactIndex.Index
import ArtifactIndex.Proofs.Code.Source
import ArtifactIndex.Proofs.Index.History
import ArtifactIndex.Proofs.Ordered
import ArtifactIndex.Proofs.Route.Chains

namespace ArtifactIndex

namespace Route

open Node (Row)

/-! ### Two routes of a program -/

/-- The call is one of a chain of the program that declares a resource. -/
def IsResourceCall (root : Node) (kind : ResourceKind) (link : Link) (behind : List Link) : Prop :=
  ∃ chain before, root.Contains chain ∧ chain.isCall = true ∧
    isRouterChain chain = true ∧ Meaning.ofLinks (links chain) = .resource kind before link behind

/-- **Expansions of one call.** A call of the program declares both routes, as different actions of a
resource. -/
def ExpandedTogether (origin : Origin) (root : Node) (first second : Route) : Prop :=
  (∃ scope kind link behind, IsResourceCall root kind link behind ∧
    first ∈ declaredByResource origin scope kind link behind ∧
    second ∈ declaredByResource origin scope kind link behind) ∧
  ∃ action other, first.declaration.expansion = some action ∧
    second.declaration.expansion = some other ∧ action ≠ other

/-- The declaration of the first route starts before that of the second, unless both are expansions of
one call. -/
def Precedes (origin : Origin) (root : Node) (first second : Route) : Prop :=
  first.declaration.start < second.declaration.start ∨
    first.declaration.start = second.declaration.start ∧ ExpandedTogether origin root first second

/-- **Routes in a range.** They are declared in the file, start in the range, and stand in order. -/
structure Spread (origin : Origin) (root : Node) (lo hi : Nat) (routes : List Route) : Prop where
  inFile : ∀ route ∈ routes, route.declaration.file = origin.file
  inRange : ∀ route ∈ routes, lo ≤ route.declaration.start ∧ route.declaration.start < hi
  inOrder : routes.Pairwise (Precedes origin root)

namespace Spread

variable {origin : Origin} {root : Node} {lo mid hi : Nat} {routes more : List Route}

theorem nil : Spread origin root lo hi [] :=
  ⟨by simp, by simp, .nil⟩

theorem mono {lo' hi' : Nat} (spread : Spread origin root lo hi routes) (below : lo' ≤ lo)
    (above : hi ≤ hi') : Spread origin root lo' hi' routes := by
  refine ⟨spread.inFile, fun route listed => ?_, spread.inOrder⟩
  have := spread.inRange route listed
  omega

theorem append (left : Spread origin root lo mid routes) (right : Spread origin root mid hi more)
    (ordered : lo ≤ mid) (orderedToo : mid ≤ hi) : Spread origin root lo hi (routes ++ more) := by
  have wideLeft := left.mono (Nat.le_refl _) orderedToo
  have wideRight := right.mono ordered (Nat.le_refl _)
  refine ⟨fun route listed => ?_, fun route listed => ?_, ?_⟩
  · rcases List.mem_append.mp listed with inLeft | inRight
    · exact left.inFile route inLeft
    · exact right.inFile route inRight
  · rcases List.mem_append.mp listed with inLeft | inRight
    · exact wideLeft.inRange route inLeft
    · exact wideRight.inRange route inRight
  · refine List.pairwise_append.mpr ⟨left.inOrder, right.inOrder, fun first isLeft second isRight => ?_⟩
    have := left.inRange first isLeft
    have := right.inRange second isRight
    exact Or.inl (by omega)

/-- Routes found node by node along a row. -/
theorem flatMap {holds : Node → Prop} {nodes : List Node} {found : Node → List Route}
    (row : Row holds lo hi nodes)
    (each : ∀ node ∈ nodes, ∀ lo hi, Row holds lo hi [node] → Spread origin root lo hi (found node)) :
    Spread origin root lo hi (nodes.flatMap found) := by
  induction nodes generalizing lo with
  | nil => exact nil
  | cons node rest ih =>
    obtain ⟨behind, held, inner, later⟩ := Row.cons_iff.mp row
    have here : Row holds lo node.span.stop [node] :=
      Row.cons_iff.mpr ⟨behind, held, inner, .nil (Nat.le_refl _)⟩
    rw [List.flatMap_cons]
    refine append (each node List.mem_cons_self _ _ here) (ih later fun other listed => ?_) here.le
      later.le
    exact each other (List.mem_cons_of_mem _ listed)

end Spread

/-! ### One chain -/

section Chain

variable {origin : Origin} {lo hi : Nat} {scope : Scope} {kind : ResourceKind} {link : Link}
  {before behind : List Link}

/-- The actions of a resource have different names. -/
theorem nodup_actionNames (kind : ResourceKind) : (kind.actions.map (·.name)).Nodup := by
  cases kind <;> decide

/-- Each route of a resource is that of an action, at the resource's call. -/
theorem exists_action {route : Route}
    (isDeclared : route ∈ declaredByResource origin scope kind link behind) :
    ∃ action ∈ kind.actions,
      route.declaration = { siteOf origin link with expansion := some action.name } := by
  unfold declaredByResource at isDeclared
  split at isDeclared
  · cases isDeclared
  · obtain ⟨action, isWanted, rfl⟩ := List.mem_map.mp isDeclared
    exact ⟨action, (List.mem_filter.mp isWanted).1, rfl⟩

/-- The routes of a resource differ in their actions. -/
theorem pairwise_declaredByResource (origin : Origin) (scope : Scope) (kind : ResourceKind)
    (link : Link) (behind : List Link) :
    (declaredByResource origin scope kind link behind).Pairwise fun first second =>
      ∃ action other, first.declaration.expansion = some action ∧
        second.declaration.expansion = some other ∧ action ≠ other := by
  unfold declaredByResource
  split
  · exact .nil
  · have names := List.pairwise_map.mp (nodup_actionNames kind)
    refine List.pairwise_map.mpr ((names.sublist List.filter_sublist).imp fun {action other} differ => ?_)
    exact ⟨action.name, other.name, rfl, rfl, differ⟩

/-- The call that opens a group or declares something. -/
def Meaning.link? : Meaning → Option Link
  | .group _ link => some link
  | .verb _ link _ => some link
  | .resource _ _ link _ => some link
  | .neither => none

/-- The call by which a chain has its meaning is one of the chain. -/
theorem mem_of_link?_ofLinks {chain : List Link}
    (decides : (Meaning.ofLinks chain).link? = some link) : link ∈ chain := by
  unfold Meaning.ofLinks at decides
  split at decides
  · cases decides
  · next first rest shape =>
    have listed : first ∈ chain := (List.dropWhile_sublist _).subset (shape ▸ List.mem_cons_self)
    split at decides
    · cases decides
      exact listed
    · split at decides
      · cases decides
        exact listed
      · split at decides
        · cases decides
          exact listed
        · cases decides

/-- The node was read from the program and stands in its tree. -/
def InProgram (source : String) (root node : Node) : Prop :=
  node.ReadFrom source ∧ root.Contains node

variable {source : String} {root call : Node}

/-- A call of a chain on the router starts in the range of the chain, and not at its end. -/
theorem start_of_mem_links (row : Row (InProgram source root) lo hi [call])
    (isRouter : isRouterChain call = true) (listed : link ∈ links call) :
    lo ≤ link.call.span.start ∧ link.call.span.start < hi := by
  have inside := row_of_mem_links row listed
  have := inside.bounds
  have := lt_of_isRouterChain (inside.imp fun _ held => held.1)
    (isRouterChain_of_mem_links isRouter listed)
  omega

/-- **The routes that a chain declares itself**, in the range of the chain. -/
theorem spread_declaredByChain (row : Row (InProgram source root) lo hi [call])
    (isCall : call.isCall = true) (isRouter : isRouterChain call = true) (scope : Scope) :
    Spread origin root lo hi (declaredByChain origin scope (links call)) := by
  unfold declaredByChain
  split
  · next before link behind declares =>
    have listed : link ∈ links call := mem_of_link?_ofLinks (by rw [declares]; rfl)
    refine ⟨fun route isRoute => ?_, fun route isRoute => ?_, List.pairwise_singleton ..⟩
    · cases List.mem_singleton.mp isRoute
      rfl
    · cases List.mem_singleton.mp isRoute
      exact start_of_mem_links row isRouter listed
  · next kind before link behind declares =>
    have listed : link ∈ links call := mem_of_link?_ofLinks (by rw [declares]; rfl)
    have isResource : IsResourceCall root kind link behind :=
      ⟨call, before, (row.holds_of_mem List.mem_cons_self).2, isCall, isRouter, declares⟩
    refine ⟨fun route isRoute => ?_, fun route isRoute => ?_, ?_⟩
    · obtain ⟨action, -, site⟩ := exists_action isRoute
      rw [site]
      rfl
    · obtain ⟨action, -, site⟩ := exists_action isRoute
      rw [site]
      exact start_of_mem_links row isRouter listed
    · refine List.Pairwise.imp_of_mem (fun {first second} isFirst isSecond differ => ?_)
        (pairwise_declaredByResource ..)
      obtain ⟨action, -, site⟩ := exists_action isFirst
      obtain ⟨other, -, otherSite⟩ := exists_action isSecond
      refine Or.inr ⟨?_, ⟨_, kind, link, behind, isResource, isFirst, isSecond⟩, differ⟩
      rw [site, otherSite]
  · exact .nil
  · exact .nil

/-- A chain that declares routes itself is not gone into. -/
theorem declaredByChain_eq_nil_or (origin : Origin) (scope : Scope) (chain : List Link) :
    declaredByChain origin scope chain = [] ∨ bodiesOf chain = [] := by
  unfold bodiesOf declaredByChain
  cases Meaning.ofLinks chain with
  | group _ _ => exact .inl rfl
  | neither => exact .inl rfl
  | verb _ _ _ => exact .inr rfl
  | resource _ _ _ _ => exact .inr rfl

end Chain

/-! ### Programs -/

variable {origin : Origin} {source : String} {root : Node}

/-- **The routes at or below a node** stand in the node's range. By induction on the walk; the scope,
which changes at every group, has no part in it. -/
theorem spread_routesBelow {node : Node} (scope : Scope) : ∀ lo hi, Row (InProgram source root) lo hi [node] →
    Spread origin root lo hi (routesBelow origin scope node) := by
  fun_induction routesBelow origin scope node with
  | case1 scope node isChain chain ih =>
    intro lo hi row
    rw [Bool.and_eq_true] at isChain
    rw [List.flatMap_subtype fun _ _ => rfl, List.unattach_attach]
    rcases declaredByChain_eq_nil_or origin scope chain with nothing | closed
    · rw [nothing, List.nil_append]
      exact Spread.flatMap (row_bodiesOf row) fun body listed => ih ⟨body, listed⟩
    · rw [closed, List.flatMap_nil, List.append_nil]
      exact spread_declaredByChain row isChain.1 isChain.2 scope
  | case2 scope node isOther ih =>
    intro lo hi row
    rw [List.flatMap_subtype fun _ _ => rfl, List.unattach_attach]
    exact Spread.flatMap row.children fun child listed => ih ⟨child, listed⟩

/-- The walk over a program goes through what stands below it. -/
theorem routesBelow_root (isTree : root.IsTreeOf source) (scope : Scope) :
    routesBelow origin scope root = root.children.flatMap (routesBelow origin scope) := by
  have noCall : ¬(root.isCall && isRouterChain root) = true := by
    rw [Node.isCall, isTree.kind]
    exact Bool.false_ne_true
  rw [routesBelow, if_neg noCall, List.flatMap_subtype fun _ _ => rfl, List.unattach_attach]

/-- **The routes of a program** stand in source order. -/
theorem spread_of_isTreeOf (isTree : root.IsTreeOf source) (scope : Scope) :
    Spread origin root 0 (byteLength source) (routesBelow origin scope root) := by
  rw [routesBelow_root isTree]
  have inProgram : Row (InProgram source root) 0 (byteLength source) root.children :=
    isTree.row.contained fun child listed => .child .itself listed
  exact Spread.flatMap inProgram fun child _ => spread_routesBelow scope

end Route

/-! ### Scans -/

section Scans

variable {tree : Tree} {cache : RouteCache} {file : String}

/-- Of two routes declared in one file, the first does not start behind the second, and both start at one
place only as expansions of one call in what was read for that file. -/
def Tree.OrdersRoutes (tree : Tree) (first second : Route) : Prop :=
  first.declaration.file = second.declaration.file →
    first.declaration.start ≤ second.declaration.start ∧
      (first.declaration.start = second.declaration.start →
        ∃ text source, tree.read first.declaration.file = .ok text ∧
          Digest.ofText source = Digest.ofText text ∧
          Route.ExpandedTogether (.ofText first.declaration.file source) (Node.ofSource source) first second)

/-- The routes that a scan takes for a file. -/
def routesTaken (tree : Tree) (cache : RouteCache) (file : String) : List Route :=
  ((scanRouteFile tree cache file).parsed.map (·.routes)).getD []

/-- **The routes of one file** in a scan. -/
theorem ordered_routesTaken (readFrom : cache.ReadFrom fun _ => True) (tree : Tree) (file : String) :
    (∀ route ∈ routesTaken tree cache file, route.declaration.file = file) ∧
      (routesTaken tree cache file).Pairwise tree.OrdersRoutes := by
  unfold routesTaken
  cases isParsed : (scanRouteFile tree cache file).parsed with
  | none => exact ⟨by simp, .nil⟩
  | some parsed =>
    obtain ⟨text, source, isRead, -, same, rfl⟩ :=
      exists_source_of_scanRouteFile readFrom (fun _ _ => trivial) isParsed
    obtain ⟨inFile, -, inOrder⟩ : Route.Spread (.ofText file source) (Node.ofSource source) 0
        (byteLength source) (Route.routesOf file source) :=
      Route.spread_of_isTreeOf (Node.isTreeOf_ofSource source) {}
    refine ⟨inFile, inOrder.imp_of_mem fun {first second} isFirst _ precedes _ => ?_⟩
    rw [inFile first isFirst]
    rcases precedes with less | ⟨equal, together⟩
    · exact ⟨Nat.le_of_lt less, fun equal => absurd equal (Nat.ne_of_lt less)⟩
    · exact ⟨Nat.le_of_eq equal, fun _ => ⟨text, source, isRead, same, together⟩⟩

/-! ### All files -/

theorem routes_scanRoutes (tree : Tree) (cache : RouteCache) :
    (scanRoutes tree cache).table.routes = (routeFiles tree).flatMap (routesTaken tree cache) :=
  List.flatMap_map ..

theorem nodup_routeFiles (tree : Tree) : (routeFiles tree).Nodup := nodup_eraseDups _

/-- **All routes of a scan** are in order: those of one file as they are declared, and no file is scanned
twice. -/
theorem ordered_scanRoutes (readFrom : cache.ReadFrom fun _ => True) (tree : Tree) :
    (scanRoutes tree cache).table.routes.Pairwise tree.OrdersRoutes := by
  rw [routes_scanRoutes, List.pairwise_flatMap]
  refine ⟨fun file _ => (ordered_routesTaken readFrom tree file).2, ?_⟩
  refine (nodup_routeFiles tree).imp fun {file other} differ first isFirst second isSecond same => ?_
  rw [(ordered_routesTaken readFrom tree file).1 first isFirst,
    (ordered_routesTaken readFrom tree other).1 second isSecond] at same
  exact absurd same differ

/-- Routes in order have different declarations. -/
theorem declaration_ne_of_ordersRoutes {first second : Route} (inOrder : tree.OrdersRoutes first second) :
    first.declaration ≠ second.declaration := by
  intro same
  obtain ⟨-, shared⟩ := inOrder (by rw [same])
  obtain ⟨-, -, -, -, -, action, other, isAction, isOther, differ⟩ := shared (by rw [same])
  rw [same, isOther] at isAction
  exact differ (Option.some.inj isAction).symm

/-- Blocks with labels of their own, one behind the other, are contiguous. -/
theorem contiguous_flatMap {α : Type} (label : α → String) {labels : List String}
    {block : String → List α} (distinct : labels.Nodup)
    (labelled : ∀ name, ∀ member ∈ block name, label member = name) {first middle last : α}
    (inOrder : List.Sublist [first, middle, last] (labels.flatMap block))
    (same : label first = label last) : label middle = label first := by
  induction labels with
  | nil => cases inOrder
  | cons name names ih =>
    obtain ⟨absent, distinctToo⟩ := List.nodup_cons.mp distinct
    obtain ⟨inBlock, behind, shape, isInBlock, isBehind⟩ := List.sublist_append_iff.mp inOrder
    match inBlock, shape with
    | [], shape =>
      rw [List.nil_append] at shape
      exact ih distinctToo (shape ▸ isBehind)
    | [_], shape =>
      -- The last member stands in a later block, whose label is not that of the first.
      cases shape
      have isFirst := labelled name first (isInBlock.subset List.mem_cons_self)
      obtain ⟨later, isLater, isLast⟩ := List.mem_flatMap.mp
        (isBehind.subset (List.mem_cons_of_mem _ List.mem_cons_self))
      rw [isFirst, labelled later last isLast] at same
      exact absurd (same ▸ isLater) absent
    | _ :: _ :: _, shape =>
      simp only [List.cons_append, List.cons.injEq] at shape
      obtain ⟨rfl, rfl, -⟩ := shape
      rw [labelled name first (isInBlock.subset List.mem_cons_self),
        labelled name middle (isInBlock.subset (List.mem_cons_of_mem _ List.mem_cons_self))]

end Scans

namespace Index

/-- **Routes stand in source order, one for each declaration.** Behind any row of refreshes, the
declarations of all routes differ; the routes of one file stand together, by the starts of their
declarations; and two of them share a start only as different expansions of one call. -/
theorem routes_in_source_order (strictJson : Bool) (earlier : List Tree) (tree : Tree) :
    let routes := ((earlier.foldl refresh (empty strictJson)).refresh tree).artifacts.routes.routes
    (routes.map (·.declaration)).Nodup ∧
      (∀ first middle last, List.Sublist [first, middle, last] routes →
        first.declaration.file = last.declaration.file →
          middle.declaration.file = first.declaration.file) ∧
      routes.Pairwise tree.OrdersRoutes := by
  intro routes
  have readFrom : (earlier.foldl refresh (empty strictJson)).routeCache.ReadFrom fun _ => True :=
    readFrom_foldl _ strictJson fun _ _ _ _ => trivial
  have inOrder : routes.Pairwise tree.OrdersRoutes := ordered_scanRoutes readFrom tree
  refine ⟨?_, fun first middle last inside same => ?_, inOrder⟩
  · exact List.pairwise_map.mpr (inOrder.imp declaration_ne_of_ordersRoutes)
  · have blocks : routes = (routeFiles tree).flatMap (routesTaken tree _) := routes_scanRoutes tree _
    rw [blocks] at inside
    exact contiguous_flatMap (·.declaration.file) (nodup_routeFiles tree)
      (fun file => (ordered_routesTaken readFrom tree file).1) inside same

end Index

end ArtifactIndex
