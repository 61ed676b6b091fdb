/-
**The index of a project.**

An index holds what the last scan of a project found: the declared artifacts and their usages. A scan
looks for declarations first and then for usages, since only references to declared artifacts count.
Questions about an index that has never been scanned scan it first.

* `Index.refresh`: the index after a scan;
* `Index.keys`, `Index.declarations`, `Index.usages`, `Index.isKnown`: questions about one kind.
-/

import ArtifactIndex.Route.Scan
import ArtifactIndex.Translation.Scan
import ArtifactIndex.Usage.Scan

namespace ArtifactIndex

/-- What a scan counts. -/
structure Stats where
  routes : Nat := 0
  routeNames : Nat := 0
  translations : Nat := 0
  views : Nat := 0
  assets : Nat := 0
  usages : Nat := 0
  files : Nat := 0
  errors : Nat := 0
deriving Repr, DecidableEq

/-- What is known of a project. -/
structure Index where
  /-- Files of flat translations are read as JSON. -/
  strictJson : Bool
  artifacts : Artifacts
  usageTable : UsageTable
  /-- The route files of the last scan. -/
  routeCache : RouteCache
  stats : Stats
  /-- A scan has been made. -/
  scanned : Bool

namespace Index

/-- An index before any scan. -/
def empty (strictJson : Bool) : Index :=
  { strictJson, artifacts := .empty, usageTable := .empty, routeCache := .empty, stats := {}
    scanned := false }

/-- The counts of a scan. -/
def statsOf (artifacts : Artifacts) (usages : UsageTable) (counts : ScanCounts) : Stats :=
  { routes := artifacts.routes.routes.length
    routeNames := artifacts.routes.names.length
    translations := artifacts.translations.keys.length
    views := artifacts.views.views.length
    assets := artifacts.assets.keys.length
    usages := usages.total
    files := counts.files
    errors := counts.errors }

/-- The index after a scan of the project. -/
def refresh (index : Index) (tree : Tree) : Index :=
  let routeScan := scanRoutes tree index.routeCache
  let (translations, translationCounts) := scanTranslations tree index.strictJson
  let (views, viewCounts) := scanViews tree
  let (assets, assetCounts) := scanAssets tree
  let artifacts : Artifacts := { routes := routeScan.table, translations, views, assets }
  let (usageTable, usageCounts) := scanUsages tree artifacts
  let counts := ScanCounts.sum
    [routeScan.counts, translationCounts, viewCounts, assetCounts, usageCounts]
  { index with
    artifacts, usageTable, routeCache := routeScan.cache, scanned := true
    stats := statsOf artifacts usageTable counts }

/-- The index, scanned if it never was. -/
def ensureScanned (index : Index) (tree : Tree) : Index :=
  if index.scanned then index else index.refresh tree

/-! ### Questions about one kind -/

/-- The keys of a kind. -/
def keys (index : Index) : Kind → List String
  | .route => index.artifacts.routes.keys
  | .translation => index.artifacts.translations.keys
  | .view => index.artifacts.views.keys
  | .asset => index.artifacts.assets.keys

/-- The sites at which a key is declared. Language files and templates are looked up in the project as
it is now. -/
def declarations (index : Index) (tree : Tree) : Kind → String → List Site
  | .route, key => index.artifacts.routes.declarations key
  | .translation, key => index.artifacts.translations.declarations tree key
  | .view, key => index.artifacts.views.declarations tree key
  | .asset, key => index.artifacts.assets.declarations key

/-- The keys under which usages of a route are kept: the given one, and the name and the path of the
route that it means. -/
def routeKeys (index : Index) (key : String) : List String :=
  match index.artifacts.routes.get? key with
  | none => [key]
  | some route => key :: route.name.toList ++ [route.path]

/-- The key under which usages of a key's artifact are kept. -/
def usageKeys (index : Index) : Kind → String → List String
  | .route, key => index.routeKeys key
  | .translation, key => [key]
  | .view, key => [((index.artifacts.views.resolve? key).map (·.name)).getD key]
  | .asset, key => [((index.artifacts.assets.resolve? key).map (·.name)).getD key]

/-- The usages of a key. Those of a route are found under its name and under its path. -/
def usages (index : Index) (kind : Kind) (key : String) : List Usage :=
  match kind with
  | .route =>
    Usage.inOrder ((index.usageKeys .route key).flatMap (index.usageTable.get .route)).eraseDups
  | kind => (index.usageKeys kind key).flatMap (index.usageTable.get kind)

/-- The text means an artifact of the kind. -/
def isKnown (index : Index) : Kind → String → Bool
  | .route, text => (index.artifacts.routes.resolve? text).isSome
  | .translation, text => index.artifacts.translations.contains text
  | .view, text => (index.artifacts.views.resolve? text).isSome
  | .asset, text => (index.artifacts.assets.resolve? text).isSome

end Index

/-- The project uses the framework: it requires it, or has its script and one of its directories. -/
def usesFramework (tree : Tree) : Bool :=
  (match tree.read "composer.json" with
    | .ok text => occursIn "laravel/framework" text
    | .error _ => false) ||
    tree.isFile "artisan" && ["app", "config", "routes"].any tree.isDirectory

end ArtifactIndex
