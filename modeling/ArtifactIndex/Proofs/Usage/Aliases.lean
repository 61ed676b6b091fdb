/-
**The usages of a route under its aliases.**

A route goes by its name and by its path. Usages are recorded under the one or the other, as the reference
was written, and the usages of a route are put together from both.

* `Index.usages_route_eq_of_mem_iff`: the list depends on the members of the row of keys only, neither on
  their order nor on repeats;
* `Index.usages_of_aliases`: the name and the path of a route have the same usages.
-/

import ArtifactIndex.Index
import ArtifactIndex.Proofs.Usage.Passes
import ArtifactIndex.Proofs.Usage.Storage
import ArtifactIndex.Tree.Memory

namespace ArtifactIndex

namespace Index

variable {index : Index} {route : Route} {name key other : String}

/-- The usages of a route are those recorded under one of its keys. -/
theorem mem_usages_route {usage : Usage} :
    usage ∈ index.usages .route key ↔
      ∃ given ∈ index.routeKeys key, ⟨.route, given, usage⟩ ∈ index.usageTable.records := by
  show usage ∈ Usage.inOrder _ ↔ _
  rw [Usage.inOrder, mem_sortBy, List.mem_eraseDups, List.mem_flatMap]
  simp only [UsageTable.mem_get]
  rfl

theorem nodup_usages_route : (index.usages .route key).Nodup :=
  (sortBy_perm _).nodup_iff.mpr (nodup_eraseDups _)

theorem pairwise_usages_route :
    (index.usages .route key).Pairwise fun left right => (left.order right).isLE = true :=
  Usage.pairwise_inOrder _

/-- **The order of the keys does not matter**, nor does a key that is given twice. -/
theorem usages_route_eq_of_mem_iff
    (sameKeys : ∀ given, given ∈ index.routeKeys key ↔ given ∈ index.routeKeys other) :
    index.usages .route key = index.usages .route other := by
  refine Usage.inOrder_eq_of_mem_iff (nodup_eraseDups _) (nodup_eraseDups _) fun usage => ?_
  show usage ∈ List.eraseDups ((index.routeKeys key).flatMap _) ↔
    usage ∈ List.eraseDups ((index.routeKeys other).flatMap _)
  simp only [List.mem_eraseDups, List.mem_flatMap, sameKeys]

/-- A key that means a route with a name is an alias of that name and of the route's path. -/
theorem mem_routeKeys_of_get? {given : String} (named : route.name = some name)
    (found : index.artifacts.routes.get? key = some route) :
    given ∈ index.routeKeys key ↔ given = key ∨ given = name ∨ given = route.path := by
  rw [routeKeys, found]
  simp [named]

/-- **A route's usages do not depend on the alias.** When the name and the path of a route both mean it,
they have the same list of usages: it ascends, holds no usage twice, and has just the usages that are
recorded under the name or under the path. -/
theorem usages_of_aliases (index : Index) (named : route.name = some name)
    (byName : index.artifacts.routes.get? name = some route)
    (byPath : index.artifacts.routes.get? route.path = some route) :
    index.usages .route name = index.usages .route route.path ∧
      (index.usages .route name).Pairwise (fun left right => (left.order right).isLE = true) ∧
      (index.usages .route name).Nodup ∧
      ∀ usage, usage ∈ index.usages .route name ↔
        ⟨.route, name, usage⟩ ∈ index.usageTable.records ∨
          ⟨.route, route.path, usage⟩ ∈ index.usageTable.records := by
  refine ⟨usages_route_eq_of_mem_iff fun given => ?_, pairwise_usages_route, nodup_usages_route,
    fun usage => ?_⟩
  · rw [mem_routeKeys_of_get? named byName, mem_routeKeys_of_get? named byPath]
    tauto
  · simp only [mem_usages_route, mem_routeKeys_of_get? named byName]
    constructor
    · rintro ⟨given, rfl | rfl | rfl, isRecord⟩
      · exact .inl isRecord
      · exact .inl isRecord
      · exact .inr isRecord
    · rintro (isRecord | isRecord)
      · exact ⟨name, .inl rfl, isRecord⟩
      · exact ⟨route.path, .inr (.inr rfl), isRecord⟩

/-- A program that refers to a route by its name and by its path. -/
theorem usages_of_aliases_both :
    let file := "app/a.php"
    let files := (MemoryFiles.empty.write "routes/web.php"
      "<?php Route::get('h')->name('n');").write file "<?php url('h');route('n');"
    let index := (Index.empty false).refresh files.toTree
    index.usages .route "n" = index.usages .route "/h" ∧
      index.usages .route "/h" =
        [⟨file, 0, { file, line := 0, start := 10, stop := 13 }, .url⟩,
          ⟨file, 0, { file, line := 0, start := 21, stop := 24 }, .name⟩] := by
  intro file files index
  obtain ⟨known, same, expected⟩ :
      (index.artifacts.routes.get? "n").map (fun route => (route.name, route.path)) =
          some (some "n", "/h") ∧
        index.artifacts.routes.get? "/h" = index.artifacts.routes.get? "n" ∧
        index.usages .route "/h" =
          [⟨file, 0, { file, line := 0, start := 10, stop := 13 }, .url⟩,
            ⟨file, 0, { file, line := 0, start := 21, stop := 24 }, .name⟩] := by decide +kernel
  obtain ⟨route, byName, isNamed⟩ := Option.map_eq_some_iff.mp known
  obtain ⟨named, isPath⟩ := Prod.mk.inj isNamed
  have byPath : index.artifacts.routes.get? route.path = some route := by rw [isPath, same, byName]
  have agree := (usages_of_aliases index named byName byPath).1
  rw [isPath] at agree
  exact ⟨agree, expected⟩

end Index

end ArtifactIndex
