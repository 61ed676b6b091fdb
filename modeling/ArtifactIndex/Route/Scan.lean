/-
**The search for routes.**

Routes are declared in a few files of fixed names, in the files beside them, and in the route
directories of modules. What was read from a file is kept together with the digest of its content; as
long as the content does not change, the next scan takes the routes from there.

* `routeFiles`: the files in which routes are declared, in the order of the scan;
* `scanRoutes`: all routes of a project, and what the next scan can reuse.
-/

import ArtifactIndex.Digest
import ArtifactIndex.Route.Declaration
import ArtifactIndex.Route.Table
import ArtifactIndex.Scan

namespace ArtifactIndex

/-- The files that are searched first. -/
def primaryRouteFiles : List String :=
  ["routes/web.php", "routes/api.php", "routes/channels.php", "routes/console.php",
    "routes/artisan.php"]

/-- The programs in a directory. -/
def Tree.programsIn (tree : Tree) (directory : String) : List String :=
  ((tree.childFiles directory).map (·.path)).filter fun path => Path.extension? path == some "php"

/-- The files in which routes are declared, each once, in the order of the scan. -/
def routeFiles (tree : Tree) : List String :=
  let primary := primaryRouteFiles.filter tree.isFile
  let ofModules := (tree.childDirectories modulesDirectory).flatMap fun entry =>
    ["routes", "Routes"].flatMap fun name => tree.programsIn (entry.path ++ "/" ++ name)
  (primary ++ tree.programsIn "routes" ++ ofModules).eraseDups

/-- The routes of a file, with the digest of the content they were read from. -/
structure ParsedRoutes where
  digest : String
  routes : List Route
deriving Repr, DecidableEq

/-- What earlier scans have read, by file. -/
abbrev RouteCache := Dict ParsedRoutes

/-- The routes of a file with the given content, and whether they are those of the last scan. -/
def parseRoutes (cache : RouteCache) (file source : String) : ParsedRoutes × Bool :=
  let digest := Digest.ofText source
  match cache.get? file with
  | some known =>
    if known.digest = digest then (known, true) else (⟨digest, Route.routesOf file source⟩, false)
  | none => (⟨digest, Route.routesOf file source⟩, false)

/-- What a scan gets from one file. -/
structure RouteFileScan where
  file : String
  parsed : Option ParsedRoutes
  counts : ScanCounts

/-- Scans one file. -/
def scanRouteFile (tree : Tree) (cache : RouteCache) (file : String) : RouteFileScan :=
  match tree.scan file with
  | (none, counts) => { file, parsed := none, counts }
  | (some source, counts) =>
    let (parsed, reused) := parseRoutes cache file source
    { file, parsed := some parsed, counts := counts.add { reused := if reused then 1 else 0 } }

/-- What a scan for routes finds. -/
structure RouteScan where
  table : RouteTable
  /-- What the next scan can reuse: the files that could be read this time. -/
  cache : RouteCache
  counts : ScanCounts

/-- Scans all files in which routes are declared. -/
def scanRoutes (tree : Tree) (cache : RouteCache) : RouteScan :=
  let scans := (routeFiles tree).map (scanRouteFile tree cache)
  { table := ⟨scans.flatMap fun scan => (scan.parsed.map (·.routes)).getD []⟩
    cache := Dict.ofList (scans.filterMap fun scan => scan.parsed.map fun parsed => (scan.file, parsed))
    counts := ScanCounts.sum (scans.map (·.counts)) }

end ArtifactIndex
