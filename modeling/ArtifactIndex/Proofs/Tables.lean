/-
**Tables filled insert by insert.**

A table here is the row of what was found, and says in closed form what is under a key. A table can also be
kept as maps that each found member is put into: under a key the last member, or all members in a list, with
a number that is counted along. Both answer alike. A map is related to the row of what was put into it, one
insert keeps the relation, and so does a row of inserts.

* `LastUnder`, `AllUnder`: a map of last members, and one of lists;
* `holds_foldl`: what each insert keeps holds of the whole row;
* `ViewMaps.agree`, `AssetMap.agree`, `TranslationMaps.agree`, `RouteMaps.agree`, `UsageMaps.agree`: the maps
  of a row of views, assets, translations, routes and usages, against the tables of that row.
-/

import ArtifactIndex.Asset.Table
import ArtifactIndex.Proofs.Ordered
import ArtifactIndex.Route.Table
import ArtifactIndex.Translation.Table
import ArtifactIndex.Usage.Basic
import ArtifactIndex.View.Table
import Mathlib.Data.List.Perm.Basic

namespace ArtifactIndex

/-- **What each insert keeps** of a state and the row of what was put into it, a row of inserts keeps. -/
theorem holds_foldl {α σ : Type} {insert : σ → α → σ} {Holds : σ → List α → Prop} {state : σ}
    (step : ∀ state earlier member, Holds state earlier → Holds (insert state member) (earlier ++ [member]))
    (holds : Holds state []) (members : List α) : Holds (members.foldl insert state) members := by
  suffices further : ∀ earlier, Holds state earlier → Holds (members.foldl insert state) (earlier ++ members) from
    further [] holds
  clear holds
  induction members generalizing state with
  | nil =>
    intro earlier holds
    rwa [List.append_nil]
  | cons member later ih =>
    intro earlier holds
    rw [List.foldl_cons, List.append_cons]
    exact ih _ (step state earlier member holds)

/-! ### Maps -/

section Maps

variable {α : Type}

/-- Each key has the last of the members that are put under it. -/
def LastUnder (keysOf : α → List String) (map : Std.HashMap String α) (members : List α) : Prop :=
  ∀ key, map[key]? = members.reverse.find? fun member => (keysOf member).contains key

/-- The map with a member under each of some keys, set one after another. -/
def setAll (map : Std.HashMap String α) (keys : List String) (member : α) : Std.HashMap String α :=
  keys.foldl (fun map key => map.insert key member) map

theorem getElem?_setAll (map : Std.HashMap String α) (keys : List String) (member : α) (key : String) :
    (setAll map keys member)[key]? = if keys.contains key then some member else map[key]? := by
  induction keys generalizing map with
  | nil => rfl
  | cons first rest ih =>
    have further := ih (map.insert first member)
    rw [setAll] at further ⊢
    rw [List.foldl_cons, further, Std.HashMap.getElem?_insert, List.contains_cons, BEq.comm]
    cases rest.contains key <;> cases key == first <;> rfl

namespace LastUnder

variable {keysOf : α → List String} {map : Std.HashMap String α} {members : List α}

theorem empty (keysOf : α → List String) : LastUnder keysOf ∅ [] := fun _ => Std.HashMap.getElem?_empty

/-- **One insert**: the member has all its keys. -/
theorem set (last : LastUnder keysOf map members) (member : α) :
    LastUnder keysOf (setAll map (keysOf member) member) (members ++ [member]) := by
  intro key
  rw [getElem?_setAll, List.reverse_append, List.reverse_singleton, List.singleton_append, List.find?_cons,
    last key]
  cases (keysOf member).contains key <;> rfl

/-- The keys of the map are those of the members. -/
theorem mem_iff (last : LastUnder keysOf map members) {key : String} :
    key ∈ map ↔ ∃ member ∈ members, key ∈ keysOf member := by
  rw [Std.HashMap.mem_iff_isSome_getElem?, last key, List.find?_isSome]
  simp only [List.mem_reverse, List.contains_iff_mem]

/-- **The keys in order** are those of the members, each once. -/
theorem ascending_keys (last : LastUnder keysOf map members) {keys : List String}
    (given : ∀ key, key ∈ keys ↔ ∃ member ∈ members, key ∈ keysOf member) :
    ascending map.keys = ascendingDistinct keys :=
  ascending_eq_ascendingDistinct Std.HashMap.nodup_keys fun key =>
    Std.HashMap.mem_keys.trans (last.mem_iff.trans (given key).symm)

variable {keyOf : α → String}

/-- Where each member has one key, the last member with a key has it. -/
theorem getElem?_one (last : LastUnder (fun member => [keyOf member]) map members) (key : String) :
    map[key]? = members.reverse.find? (keyOf · == key) := by
  rw [last key]
  refine congrArg (List.find? · members.reverse) (funext fun member => ?_)
  rw [List.contains_cons, List.contains_nil, Bool.or_false, BEq.comm]

theorem ascending_keys_one (last : LastUnder (fun member => [keyOf member]) map members) :
    ascending map.keys = ascendingDistinct (members.map keyOf) :=
  last.ascending_keys fun key => by
    simp only [List.mem_map, List.mem_singleton, eq_comm]

end LastUnder

/-- Each key has the list of the members under it, in their order. -/
def AllUnder (key? : α → Option String) (map : Std.HashMap String (List α)) (members : List α) : Prop :=
  ∀ key, map.getD key [] = members.filter fun member => key? member == some key

/-- The map with a member at the end of a key's list, which is empty at first. -/
def push (map : Std.HashMap String (List α)) (key : String) (member : α) : Std.HashMap String (List α) :=
  map.alter key fun list => some (list.getD [] ++ [member])

theorem getD_push (map : Std.HashMap String (List α)) (key other : String) (member : α) :
    (push map key member).getD other [] = map.getD other [] ++ if key == other then [member] else [] := by
  rw [push, Std.HashMap.getD_alter]
  split
  · next same => rw [eq_of_beq same, Option.getD_some, ← Std.HashMap.getD_eq_getD_getElem?]
  · rw [List.append_nil]

namespace AllUnder

variable {key? : α → Option String} {map : Std.HashMap String (List α)} {members : List α}

theorem empty (key? : α → Option String) : AllUnder key? ∅ [] := fun _ => Std.HashMap.getD_empty

/-- **One insert**: the member is the last one under its key, if it has one. -/
theorem add (all : AllUnder key? map members) (member : α) :
    AllUnder key? (((key? member).map fun key => push map key member).getD map) (members ++ [member]) := by
  intro other
  rw [List.filter_append, ← all other]
  cases known : key? member with
  | none => simp [known]
  | some key =>
    rw [Option.map_some, Option.getD_some, getD_push]
    cases same : key == other <;> simp [known, same]

end AllUnder

end Maps

/-! ### Views -/

/-- The views under their forms, and in a row. -/
structure ViewMaps where
  byForm : Std.HashMap String View
  views : List View

namespace ViewMaps

/-- No views. -/
def empty : ViewMaps := ⟨∅, []⟩

/-- The maps with a view under its name with dots, its name with slashes, and its name with its ending. -/
def insert (maps : ViewMaps) (view : View) : ViewMaps :=
  let named := maps.byForm.insert view.name view
  let slashed := named.insert (exchange '.' '/' view.name) view
  { byForm := slashed.insert (view.name ++ "." ++ view.ending) view
    views := maps.views ++ [view] }

/-- The maps hold a row of views. -/
structure Holds (maps : ViewMaps) (views : List View) : Prop where
  forms : LastUnder View.forms maps.byForm views
  row : maps.views = views

theorem Holds.insert (maps : ViewMaps) (views : List View) (view : View) (holds : maps.Holds views) :
    (maps.insert view).Holds (views ++ [view]) where
  forms := holds.forms.set view
  row := congrArg (· ++ [view]) holds.row

/-- **The maps of a row of views** hold them, and each form has the view that the table has. -/
theorem agree (views : List View) :
    (views.foldl insert empty).views = views ∧
      ∀ form, (views.foldl insert empty).byForm[form]? = (ViewTable.mk views).get? form := by
  have holds : (views.foldl insert empty).Holds views := holds_foldl Holds.insert ⟨.empty _, rfl⟩ views
  exact ⟨holds.row, holds.forms⟩

end ViewMaps

/-! ### Assets -/

/-- The assets under their names. -/
abbrev AssetMap := Std.HashMap String Asset

namespace AssetMap

/-- The map of a row of assets. -/
def ofAssets (assets : List Asset) : AssetMap :=
  assets.foldl (fun map asset => map.insert asset.name asset) ∅

/-- **The map of a row of assets** has the names and the assets that the table has. -/
theorem agree (assets : List Asset) :
    (∀ name, (ofAssets assets)[name]? = (AssetTable.mk assets).get? name) ∧
      ascending (ofAssets assets).keys = (AssetTable.mk assets).keys := by
  have last : LastUnder (fun asset => [asset.name]) (ofAssets assets) assets :=
    holds_foldl (fun _ _ asset last => last.set asset) (LastUnder.empty _) assets
  exact ⟨last.getElem?_one, last.ascending_keys_one⟩

end AssetMap

/-! ### Translations -/

/-- The last record of each key, and the records of all locales. -/
structure TranslationMaps where
  byKey : Std.HashMap String TranslationRecord
  all : Std.HashMap String (List TranslationRecord)

namespace TranslationMaps

/-- No translations. -/
def empty : TranslationMaps := ⟨∅, ∅⟩

/-- The maps with one more record. -/
def insert (maps : TranslationMaps) (record : TranslationRecord) : TranslationMaps :=
  { byKey := maps.byKey.insert record.key record
    all := push maps.all record.key record }

/-- The maps hold a row of records. -/
structure Holds (maps : TranslationMaps) (records : List TranslationRecord) : Prop where
  last : LastUnder (fun record => [record.key]) maps.byKey records
  all : AllUnder (fun record => some record.key) maps.all records

theorem Holds.insert (maps : TranslationMaps) (records : List TranslationRecord) (record : TranslationRecord)
    (holds : maps.Holds records) : (maps.insert record).Holds (records ++ [record]) where
  last := holds.last.set record
  all := holds.all.add record

/-- **The maps of a row of records** have the keys, the last records and all records that the table has. -/
theorem agree (records : List TranslationRecord) :
    let maps := records.foldl insert empty
    let table := TranslationTable.mk records
    (∀ key, maps.byKey[key]? = table.get? key) ∧ (∀ key, maps.byKey.contains key = table.contains key) ∧
      (∀ key, maps.all.getD key [] = table.all key) ∧ ascending maps.byKey.keys = table.keys := by
  intro maps table
  have holds : maps.Holds records := holds_foldl Holds.insert ⟨.empty _, .empty _⟩ records
  refine ⟨holds.last.getElem?_one, fun key => ?_, fun key => ?_, holds.last.ascending_keys_one⟩
  · rw [Bool.eq_iff_iff, Std.HashMap.contains_iff_mem, holds.last.mem_iff, TranslationTable.contains,
      List.any_eq_true]
    refine exists_congr fun record => and_congr_right fun _ => ?_
    rw [List.mem_singleton, beq_iff_eq, eq_comm]
  · rw [holds.all key]
    rfl

end TranslationMaps

/-! ### Routes -/

/-- The routes under their names, paths and actions, and in a row. -/
structure RouteMaps where
  routes : List Route
  byName : Std.HashMap String Route
  byPath : Std.HashMap String Route
  byAction : Std.HashMap String (List Route)

namespace RouteMaps

/-- No routes. -/
def empty : RouteMaps := ⟨[], ∅, ∅, ∅⟩

/-- The path under which a route is found; an empty one is no address. -/
def pathOf (route : Route) : List String := if route.path.isEmpty then [] else [route.path]

/-- The action under which a route is found; functions without a name have none. -/
def actionOf? (route : Route) : Option String := route.controller.filter (· != Route.closureAction)

theorem mem_pathOf {route : Route} {path : String} :
    path ∈ pathOf route ↔ path ≠ "" ∧ route.path = path := by
  unfold pathOf
  split
  · next isEmpty =>
    rw [String.isEmpty_iff] at isEmpty
    refine iff_of_false List.not_mem_nil ?_
    rintro ⟨given, rfl⟩
    exact given isEmpty
  · next given =>
    rw [String.isEmpty_iff] at given
    rw [List.mem_singleton]
    constructor
    · rintro rfl
      exact ⟨given, rfl⟩
    · rintro ⟨-, rfl⟩
      rfl

theorem contains_pathOf (route : Route) (path : String) :
    (pathOf route).contains path = (!path.isEmpty && route.path == path) := by
  rw [Bool.eq_iff_iff, List.contains_iff_mem, mem_pathOf, Bool.and_eq_true, Bool.not_eq_true', beq_iff_eq,
    ← Bool.not_eq_true, String.isEmpty_iff]

theorem actionOf?_eq_some {route : Route} {action : String} :
    actionOf? route = some action ↔ route.controller = some action ∧ action ≠ Route.closureAction := by
  rw [actionOf?, Option.filter_eq_some_iff, bne_iff_ne]

/-- The maps with one more route. -/
def insert (maps : RouteMaps) (route : Route) : RouteMaps :=
  { routes := maps.routes ++ [route]
    byName := match route.name with
      | none => maps.byName
      | some name => maps.byName.insert name route
    byPath := if route.path.isEmpty then maps.byPath else maps.byPath.insert route.path route
    byAction := match route.controller with
      | none => maps.byAction
      | some action => if action != Route.closureAction then push maps.byAction action route else maps.byAction }

/-- The maps hold a row of routes. -/
structure Holds (maps : RouteMaps) (routes : List Route) : Prop where
  row : maps.routes = routes
  names : LastUnder (fun route : Route => route.name.toList) maps.byName routes
  paths : LastUnder pathOf maps.byPath routes
  actions : AllUnder actionOf? maps.byAction routes

theorem Holds.insert (maps : RouteMaps) (routes : List Route) (route : Route) (holds : maps.Holds routes) :
    (maps.insert route).Holds (routes ++ [route]) where
  row := congrArg (· ++ [route]) holds.row
  names := by
    have set := holds.names.set route
    unfold RouteMaps.insert
    cases known : route.name <;> rw [known] at set <;> exact set
  paths := by
    have set := holds.paths.set route
    unfold RouteMaps.insert
    cases isEmpty : route.path.isEmpty <;> rw [pathOf, isEmpty] at set <;> exact set
  actions := by
    have added := holds.actions.add route
    unfold RouteMaps.insert
    rw [actionOf?] at added
    cases known : route.controller with
    | none =>
      rw [known] at added
      exact added
    | some action =>
      rw [known, Option.filter_some] at added
      dsimp only
      cases given : action != Route.closureAction <;> rw [given] at added <;> exact added

/-- **The maps of a row of routes** have the names, paths and routes that the table has. -/
theorem agree (routes : List Route) :
    let maps := routes.foldl insert empty
    let table := RouteTable.mk routes
    maps.routes = table.routes ∧ (∀ name, maps.byName[name]? = table.named? name) ∧
      (∀ path, maps.byPath[path]? = table.atPath? path) ∧
      (∀ action, (maps.byAction.getD action []).head? = table.withAction? action) ∧
      ascending maps.byName.keys = table.names ∧ ascending maps.byPath.keys = table.paths := by
  intro maps table
  have holds : maps.Holds routes :=
    holds_foldl Holds.insert ⟨rfl, .empty _, .empty _, .empty _⟩ routes
  refine ⟨holds.row, fun name => ?_, fun path => ?_, fun action => ?_, ?_, ?_⟩
  · rw [holds.names name, RouteTable.named?]
    refine congrArg (List.find? · routes.reverse) (funext fun route => ?_)
    rw [Bool.eq_iff_iff, List.contains_iff_mem, Option.mem_toList, beq_iff_eq]
  · rw [holds.paths path, RouteTable.atPath?]
    simp only [contains_pathOf]
    cases path.isEmpty with
    | true => simp
    | false => rfl
  · rw [holds.actions action, List.head?_filter, RouteTable.withAction?]
    refine congrArg (List.find? · routes) (funext fun route => ?_)
    rw [Bool.eq_iff_iff, beq_iff_eq, actionOf?_eq_some, Bool.and_eq_true, beq_iff_eq, bne_iff_ne]
  · refine holds.names.ascending_keys fun name => ?_
    simp only [List.mem_filterMap, Option.mem_toList, table]
  · refine holds.paths.ascending_keys fun path => ?_
    rw [List.mem_filter, List.mem_map, Bool.not_eq_true', ← Bool.not_eq_true, String.isEmpty_iff]
    simp only [mem_pathOf]
    constructor
    · rintro ⟨⟨route, listed, isPath⟩, given⟩
      exact ⟨route, listed, given, isPath⟩
    · rintro ⟨route, listed, given, isPath⟩
      exact ⟨⟨route, listed, isPath⟩, given⟩

end RouteMaps

/-! ### Usages -/

/-- The usages of each kind and key, and their number. -/
structure UsageMaps where
  byKind : Std.HashMap Kind (Std.HashMap String (List Usage))
  total : Nat

namespace UsageMaps

/-- No usages. -/
def empty : UsageMaps := ⟨∅, 0⟩

/-- The maps with one more usage, counted. -/
def record (maps : UsageMaps) (made : UsageRecord) : UsageMaps :=
  { byKind := maps.byKind.alter made.kind fun keys => some (push (keys.getD ∅) made.key made.usage)
    total := maps.total + 1 }

/-- The maps with each list of usages put in order. -/
def finish (maps : UsageMaps) : UsageMaps :=
  { maps with byKind := maps.byKind.map fun _ keys => keys.map fun _ usages => Usage.inOrder usages }

/-- The usages of a kind and key. -/
def get (maps : UsageMaps) (kind : Kind) (key : String) : List Usage :=
  (maps.byKind[kind]?.bind fun keys => keys[key]?).getD []

/-- The maps hold a row of records. -/
structure Holds (maps : UsageMaps) (records : List UsageRecord) : Prop where
  lists : ∀ kind key, maps.get kind key =
    (records.filter fun made => made.kind == kind && made.key == key).map (·.usage)
  counted : maps.total = records.length

theorem get_record (maps : UsageMaps) (made : UsageRecord) (kind : Kind) (key : String) :
    (maps.record made).get kind key =
      maps.get kind key ++ if made.kind == kind && made.key == key then [made.usage] else [] := by
  unfold record get
  dsimp only
  rw [Std.HashMap.getElem?_alter]
  cases sameKind : made.kind == kind with
  | false => simp
  | true =>
    rw [eq_of_beq sameKind, if_pos rfl, Option.bind_some, ← Std.HashMap.getD_eq_getD_getElem?, getD_push]
    cases maps.byKind[kind]? with
    | none => simp
    | some keys => simp [Std.HashMap.getD_eq_getD_getElem?]

theorem holds_empty : empty.Holds [] := by
  refine ⟨fun kind key => ?_, rfl⟩
  rw [get, empty, Std.HashMap.getElem?_empty]
  rfl

theorem Holds.record (maps : UsageMaps) (records : List UsageRecord) (made : UsageRecord)
    (holds : maps.Holds records) : (maps.record made).Holds (records ++ [made]) where
  lists kind key := by
    rw [get_record, holds.lists, List.filter_append, List.map_append, List.filter_singleton]
    cases made.kind == kind && made.key == key <;> rfl
  counted := by
    rw [List.length_append, ← holds.counted]
    rfl

theorem get_finish (maps : UsageMaps) (kind : Kind) (key : String) :
    maps.finish.get kind key = Usage.inOrder (maps.get kind key) := by
  unfold finish get
  rw [Std.HashMap.getElem?_map]
  cases maps.byKind[kind]? with
  | none => rfl
  | some keys =>
    rw [Option.map_some, Option.bind_some, Option.bind_some, Std.HashMap.getElem?_map]
    cases keys[key]? <;> rfl

/-- **The maps of a row of records**, put in order, have the lists that the table has, and count them all. -/
theorem agree (records : List UsageRecord) :
    let maps := (records.foldl record empty).finish
    let table := UsageTable.mk records
    (∀ kind key, maps.get kind key = table.get kind key) ∧ maps.total = table.total := by
  intro maps table
  have holds : (records.foldl record empty).Holds records := holds_foldl Holds.record holds_empty records
  refine ⟨fun kind key => ?_, holds.counted⟩
  rw [get_finish, holds.lists]
  rfl

end UsageMaps

end ArtifactIndex
