/-
**Declared routes have normal paths.**

However a route is declared, and whether it was read in this scan or in an earlier one, its path is
normal; in particular it is not empty.

* `normalPath_of_mem_routesOf`: the routes of a program;
* `Index.normalPaths_foldl`: the routes of an index behind any row of refreshes.
-/

import ArtifactIndex.Index
import ArtifactIndex.Proofs.Index.History
import ArtifactIndex.Proofs.Route.Composition

namespace ArtifactIndex

namespace Route

/-- A path that starts with a slash is not empty. -/
theorem NormalPath.ne_empty {path : String} (normal : NormalPath path) : path ≠ "" := by
  rintro rfl
  cases normal.leading

theorem normalPath_declare (scope : Scope) (method rawPath : String)
    (ownName controller : Option String) (own : OwnAttributes) (declaration : Site) :
    NormalPath (scope.declare method rawPath ownName controller own declaration).path := by
  rw [Scope.declare_path, fullPath_eq]
  exact normalizePath_normal _

/-- The routes that a chain declares have normal paths. -/
theorem normalPath_of_mem_declaredByChain {origin : Origin} {scope : Scope} {chain : List Link}
    {route : Route} (isDeclared : route ∈ declaredByChain origin scope chain) :
    NormalPath route.path := by
  revert isDeclared
  fun_cases declaredByChain origin scope chain with
  | case1 before link behind =>
    intro isDeclared
    cases List.mem_singleton.mp isDeclared
    exact normalPath_declare ..
  | case2 kind before link behind =>
    intro isDeclared
    rw [declaredByResource] at isDeclared
    split at isDeclared
    · cases isDeclared
    · obtain ⟨action, -, rfl⟩ := List.mem_map.mp isDeclared
      exact normalPath_declare ..
  | case3 =>
    intro isDeclared
    cases isDeclared
  | case4 =>
    intro isDeclared
    cases isDeclared

/-- The routes at or below a node have normal paths. By induction on the walk, in which a scope changes
at every group. -/
theorem normalPath_of_mem_routesBelow {origin : Origin} {scope : Scope} {node : Node} {route : Route}
    (isBelow : route ∈ routesBelow origin scope node) : NormalPath route.path := by
  fun_induction routesBelow origin scope node with
  | case1 scope node isChain chain ih =>
    rcases List.mem_append.mp isBelow with isDeclared | isInside
    · exact normalPath_of_mem_declaredByChain isDeclared
    · obtain ⟨body, -, isBelow⟩ := List.mem_flatMap.mp isInside
      exact ih body isBelow
  | case2 scope node isOther ih =>
    obtain ⟨child, -, isBelow⟩ := List.mem_flatMap.mp isBelow
    exact ih child isBelow

/-- **The routes of a program** have normal paths. -/
theorem normalPath_of_mem_routesOf {file source : String} {route : Route}
    (isDeclared : route ∈ routesOf file source) : NormalPath route.path :=
  normalPath_of_mem_routesBelow isDeclared

end Route

/-! ### Scans -/

/-- All routes that the cache holds have normal paths. -/
def RouteCache.NormalPaths (cache : RouteCache) : Prop :=
  ∀ file parsed, cache.get? file = some parsed → ∀ route ∈ parsed.routes, Route.NormalPath route.path

theorem RouteCache.normalPaths_empty : RouteCache.NormalPaths .empty := by
  intro file parsed found
  rw [Dict.get?_empty] at found
  cases found

/-- The routes of a file have normal paths, read again or kept. -/
theorem normalPath_of_mem_parseRoutes {cache : RouteCache} (normal : cache.NormalPaths)
    {file source : String} {route : Route}
    (isParsed : route ∈ (parseRoutes cache file source).1.routes) : Route.NormalPath route.path := by
  revert isParsed
  fun_cases parseRoutes cache file source with
  | case1 digest known kept same => exact normal file known kept route
  | case2 => exact Route.normalPath_of_mem_routesOf
  | case3 => exact Route.normalPath_of_mem_routesOf

theorem normalPath_of_mem_scanRouteFile {tree : Tree} {cache : RouteCache}
    (normal : cache.NormalPaths) {file : String} {parsed : ParsedRoutes}
    (isParsed : (scanRouteFile tree cache file).parsed = some parsed) :
    ∀ route ∈ parsed.routes, Route.NormalPath route.path := by
  unfold scanRouteFile at isParsed
  split at isParsed
  · cases isParsed
  · cases isParsed
    exact fun _ => normalPath_of_mem_parseRoutes normal

/-- **A scan finds normal paths**, and leaves nothing else for the next one. -/
theorem normalPaths_scanRoutes {tree : Tree} {cache : RouteCache} (normal : cache.NormalPaths) :
    (∀ route ∈ (scanRoutes tree cache).table.routes, Route.NormalPath route.path) ∧
      (scanRoutes tree cache).cache.NormalPaths := by
  constructor
  · intro route isFound
    obtain ⟨scan, isScan, isFound⟩ := List.mem_flatMap.mp isFound
    obtain ⟨file, -, rfl⟩ := List.mem_map.mp isScan
    cases isParsed : (scanRouteFile tree cache file).parsed with
    | none =>
      rw [isParsed] at isFound
      cases isFound
    | some parsed =>
      rw [isParsed] at isFound
      exact normalPath_of_mem_scanRouteFile normal isParsed route isFound
  · intro file parsed found
    obtain ⟨scan, isScan, kept⟩ := List.mem_filterMap.mp (Dict.mem_of_get?_ofList found)
    obtain ⟨path, -, rfl⟩ := List.mem_map.mp isScan
    obtain ⟨held, isHeld, ⟨⟩⟩ := Option.map_eq_some_iff.mp kept
    exact normalPath_of_mem_scanRouteFile normal isHeld

namespace Index

/-- The routes of an index behind a refresh have normal paths, when those in its cache do. -/
theorem normalPaths_refresh {index : Index} (normal : index.routeCache.NormalPaths) (tree : Tree) :
    (∀ route ∈ (index.refresh tree).artifacts.routes.routes, Route.NormalPath route.path) ∧
      (index.refresh tree).routeCache.NormalPaths :=
  normalPaths_scanRoutes normal

/-- Any row of refreshes leaves normal paths in the cache. -/
theorem normalPaths_foldl (strictJson : Bool) (trees : List Tree) :
    (trees.foldl refresh (empty strictJson)).routeCache.NormalPaths := by
  suffices ∀ index : Index, index.routeCache.NormalPaths →
      (trees.foldl refresh index).routeCache.NormalPaths from this _ RouteCache.normalPaths_empty
  induction trees with
  | nil => exact fun _ normal => normal
  | cons tree rest ih => exact fun index normal => ih _ (normalPaths_refresh normal tree).2

end Index

end ArtifactIndex
