/-
**Resolved references have listed keys.**

A reference is resolved through a name, a path, an action, or one of the spellings of a view or an asset.
Whichever it is, the key that comes out is among the keys that the index lists for its kind.

* `RouteTable.mem_keys_of_find?`: the keys of routes;
* `Index.mem_keys_of_resolve?`: the keys of all kinds.
-/

import ArtifactIndex.Proofs.Route.Declared
import ArtifactIndex.Proofs.Usage.Passes

namespace ArtifactIndex

theorem mem_ascendingDistinct {text : String} {texts : List String} :
    text ∈ ascendingDistinct texts ↔ text ∈ texts := by
  rw [ascendingDistinct, mem_ascending, List.mem_eraseDups]

/-! ### Routes -/

namespace RouteTable

variable {table : RouteTable} {route : Route} {found : RouteMatch} {text : String}

/-- The name of a route is listed. -/
theorem mem_keys_of_name {name : String} (isRoute : route ∈ table.routes)
    (named : route.name = some name) : name ∈ table.keys := by
  refine List.mem_append_left _ ?_
  rw [names, mem_ascendingDistinct]
  exact List.mem_filterMap.mpr ⟨route, isRoute, named⟩

/-- The path of a route is listed, unless it is empty. -/
theorem mem_keys_of_path (isRoute : route ∈ table.routes) (given : route.path ≠ "") :
    route.path ∈ table.keys := by
  refine List.mem_append_right _ ?_
  rw [paths, mem_ascendingDistinct, List.mem_filter]
  refine ⟨List.mem_map_of_mem isRoute, ?_⟩
  rw [Bool.not_eq_true', Bool.eq_false_iff, Ne, String.isEmpty_iff]
  exact given

theorem named?_eq_some {name : String} (found : table.named? name = some route) :
    route ∈ table.routes ∧ route.name = some name := by
  unfold named? at found
  have isNamed := List.find?_some found
  exact ⟨List.mem_reverse.mp (List.mem_of_find?_eq_some found), beq_iff_eq.mp isNamed⟩

theorem atPath?_eq_some {path : String} (found : table.atPath? path = some route) :
    route ∈ table.routes ∧ route.path = path ∧ path ≠ "" := by
  unfold atPath? at found
  rw [Option.ite_none_left_eq_some, String.isEmpty_iff] at found
  obtain ⟨given, found⟩ := found
  have isPath := List.find?_some found
  exact ⟨List.mem_reverse.mp (List.mem_of_find?_eq_some found), beq_iff_eq.mp isPath, given⟩

theorem mem_keys_of_resolvePath? (resolves : table.resolvePath? text = some found) :
    found.key ∈ table.keys := by
  simp only [resolvePath?, Option.ite_none_left_eq_some] at resolves
  generalize Route.normalizePath _ = path at resolves
  obtain ⟨route, isRoute, rfl⟩ := Option.map_eq_some_iff.mp resolves.2
  obtain ⟨listed, rfl, given⟩ := atPath?_eq_some isRoute
  exact mem_keys_of_path listed given

theorem mem_keys_of_resolve? (resolves : table.resolve? text = some found) :
    found.key ∈ table.keys := by
  unfold resolve? at resolves
  split at resolves
  · next route isRoute =>
    cases resolves
    obtain ⟨listed, isName⟩ := named?_eq_some isRoute
    exact mem_keys_of_name listed isName
  · exact mem_keys_of_resolvePath? resolves

/-- A route without a name is listed under its path, so the path may not be empty. -/
theorem mem_keys_of_resolveAction? (normal : ∀ route ∈ table.routes, Route.NormalPath route.path)
    (resolves : table.resolveAction? text = some found) : found.key ∈ table.keys := by
  revert resolves
  fun_cases table.resolveAction? text with
  | case1 => nofun
  | case2 action given =>
    intro resolves
    obtain ⟨route, isRoute, rfl⟩ := Option.map_eq_some_iff.mp resolves
    have listed : route ∈ table.routes := by
      rw [Option.orElse_eq_or, Option.or_eq_some_iff] at isRoute
      rcases isRoute with isExact | ⟨-, isQualified⟩
      · exact List.mem_of_find?_eq_some isExact
      · exact List.mem_of_find?_eq_some isQualified
    show route.name.getD route.path ∈ table.keys
    cases named : route.name with
    | none => exact mem_keys_of_path listed (normal route listed).ne_empty
    | some name => exact mem_keys_of_name listed named

/-- **The keys of routes** that a helper finds are listed. -/
theorem mem_keys_of_find? (normal : ∀ route ∈ table.routes, Route.NormalPath route.path)
    {helper : RouteHelper} (resolves : helper.find? table text = some found) :
    found.key ∈ table.keys := by
  unfold RouteHelper.find? at resolves
  cases helper with
  | name => exact mem_keys_of_resolve? resolves
  | url => exact mem_keys_of_resolvePath? resolves
  | action => exact mem_keys_of_resolveAction? normal resolves

end RouteTable

/-! ### All kinds -/

theorem TranslationTable.mem_keys_of_contains {table : TranslationTable} {key : String}
    (declared : table.contains key = true) : key ∈ table.keys := by
  rw [keys, mem_ascendingDistinct, List.mem_map]
  obtain ⟨record, isRecord, same⟩ := List.any_eq_true.mp declared
  exact ⟨record, isRecord, beq_iff_eq.mp same⟩

theorem ViewTable.mem_keys_of_resolve? {table : ViewTable} {reference : String} {view : View}
    (resolves : table.resolve? reference = some view) : view.name ∈ table.keys := by
  obtain ⟨spelling, -, isView⟩ := List.exists_of_findSome?_eq_some resolves
  rw [keys, mem_ascendingDistinct]
  exact List.mem_map_of_mem (List.mem_reverse.mp (List.mem_of_find?_eq_some isView))

theorem AssetTable.mem_keys_of_resolve? {table : AssetTable} {reference : String} {asset : Asset}
    (resolves : table.resolve? reference = some asset) : asset.name ∈ table.keys := by
  obtain ⟨spelling, -, isAsset⟩ := List.exists_of_findSome?_eq_some resolves
  rw [keys, mem_ascendingDistinct]
  exact List.mem_map_of_mem (List.mem_reverse.mp (List.mem_of_find?_eq_some isAsset))

namespace Index

variable {index : Index} {value : String} {resolved : Resolved}

theorem mem_keys_of_resolveRoute?
    (normal : ∀ route ∈ index.artifacts.routes.routes, Route.NormalPath route.path)
    {helper : RouteHelper} (resolves : index.artifacts.resolveRoute? helper value = some resolved) :
    resolved.key ∈ index.keys resolved.kind := by
  obtain ⟨found, isFound, rfl⟩ := Option.map_eq_some_iff.mp resolves
  exact RouteTable.mem_keys_of_find? normal isFound

/-- **Resolved keys are listed**, whatever the literal is classified as. -/
theorem mem_keys_of_resolve?
    (normal : ∀ route ∈ index.artifacts.routes.routes, Route.NormalPath route.path)
    {classified : Classified}
    (resolves : index.artifacts.resolve? classified value = some resolved) :
    resolved.key ∈ index.keys resolved.kind := by
  obtain ⟨helper, rfl, found⟩ | ⟨role, rfl, declared, rfl⟩ | ⟨view, rfl, found, rfl⟩ |
    ⟨asset, rfl, found, rfl⟩ := Artifacts.resolve?_eq_some resolves
  · exact mem_keys_of_resolveRoute? normal found
  · exact TranslationTable.mem_keys_of_contains declared
  · exact ViewTable.mem_keys_of_resolve? found
  · exact AssetTable.mem_keys_of_resolve? found

end Index

end ArtifactIndex
