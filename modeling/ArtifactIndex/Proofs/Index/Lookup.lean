/-
**Looking up listed keys.**

The listings of an index hold names and paths as they were found, while a look-up first rewrites the text
that it is given: it drops blanks, queries and fragments, repeated slashes, and tries several spellings.
A listed key is found again exactly when this rewriting leaves it as it is.

* `Route.normalizePath_eq_self`, `Route.sublist_normalizePath`: what the rewriting does to a path;
* `Index.CanBeLookedUp`: a key is known, has a record of its own, and is declared somewhere;
* `Index.Survives`: the keys that a look-up leaves as they are;
* `Index.canBeLookedUp_iff`: the two are the same for every listed key, behind any row of refreshes.
-/

import ArtifactIndex.Encoding
import ArtifactIndex.Proofs.Text.Cuts
import ArtifactIndex.Proofs.Text.Occurrences
import ArtifactIndex.Proofs.Text.Slices
import ArtifactIndex.Proofs.Usage.Keys
import Mathlib.Data.List.Flatten
import Mathlib.Data.List.TakeWhile

namespace ArtifactIndex

open List (Sublist)

/-! ### Rewriting only drops characters -/

theorem sublist_dropEndWhile (test : Char → Bool) (chars : List Char) :
    Sublist (dropEndWhile test chars) chars := by
  have reversed := (List.dropWhile_suffix test (l := chars.reverse)).sublist.reverse
  rwa [List.reverse_reverse] at reversed

theorem sublist_trimmed (text : String) : Sublist (trimmed text).toList text.toList := by
  rw [trimmed, String.toList_ofList]
  exact (sublist_dropEndWhile ..).trans (List.dropWhile_suffix isBlank).sublist

theorem sublist_afterStart? (beginning text : String) :
    Sublist ((afterStart? beginning text).getD text).toList text.toList := by
  cases found : afterStart? beginning text with
  | none => exact .refl _
  | some rest =>
    rw [Option.getD_some, afterStart?_eq_some_iff.mp found, String.toList_append]
    exact List.sublist_append_right ..

/-- A text that lost characters and is still the same lost none. -/
theorem eq_of_sublists {short long : String} (fewer : Sublist short.toList long.toList)
    (same : Sublist long.toList short.toList) : short = long :=
  String.toList_inj.mp (fewer.antisymm same)

namespace Route

/-- The part before a query is a beginning. -/
theorem withoutQuery_isPrefix (depth : Nat) (chars : List Char) :
    withoutQuery depth chars <+: chars := by
  fun_induction withoutQuery depth chars with
  | case1 => exact List.nil_prefix
  | case2 depth rest ih => exact (List.prefix_cons_inj _).mpr ih
  | case3 depth rest _ ih => exact (List.prefix_cons_inj _).mpr ih
  | case4 => exact List.nil_prefix
  | case5 depth c rest _ _ _ ih => exact (List.prefix_cons_inj c).mpr ih

/-! ### Paths -/

/-- The pieces of a path that starts with a slash, each behind one, are what is left of it. -/
theorem slashed_nonemptySegments (rest : List Char) :
    slashed (nonemptySegments '/' (String.ofList ('/' :: rest))) =
      (nonemptyParts '/' rest).flatMap ('/' :: ·) := by
  rw [nonemptySegments_eq, String.toList_ofList, nonemptyParts_cons_self, slashed, List.flatMap_map]
  simp only [String.toList_ofList]

/-- **Normalizing drops characters only**, when the path starts with a slash. -/
theorem sublist_normalizePath (rest : List Char) :
    Sublist (normalizePath (String.ofList ('/' :: rest))).toList ('/' :: rest) := by
  rw [toList_normalizePath, slashed_nonemptySegments]
  split
  · exact List.cons_sublist_cons.mpr (List.nil_sublist rest)
  · rw [← flatMap_splitOn '/' rest]
    exact List.Sublist.flatMap List.filter_sublist _

/-- A piece that is empty, other than the first, stands between two separators; so does one at the end,
once a separator is added there. -/
theorem double_of_nil_mem_splitOn {separator : Char} {chars : List Char}
    (empty : [] ∈ (chars.splitOn separator).tail) : [separator, separator] <:+: chars ++ [separator] := by
  induction chars with
  | nil => cases empty
  | cons c rest ih =>
    rw [List.splitOn_cons_eq_if_modifyHead] at empty
    rw [List.cons_append]
    split at empty
    · next same =>
      rw [beq_iff_eq.mp same]
      cases rest with
      | nil => exact List.infix_rfl
      | cons next rest =>
        by_cases again : next = separator
        · rw [again]
          exact (List.prefix_append [separator, separator] (rest ++ [separator])).isInfix
        · refine (ih ?_).trans (List.infix_cons List.infix_rfl)
          rw [List.tail_cons, List.splitOn_cons_eq_if_modifyHead,
            if_neg (by simpa using again)] at empty
          rw [List.splitOn_cons_eq_if_modifyHead, if_neg (by simpa using again)]
          obtain ⟨first, others, shape⟩ :=
            List.exists_cons_of_ne_nil (List.splitOn_ne_nil separator rest)
          rw [shape] at empty ⊢
          simpa using empty
    · refine (ih ?_).trans (List.infix_cons List.infix_rfl)
      obtain ⟨first, others, shape⟩ := List.exists_cons_of_ne_nil (List.splitOn_ne_nil separator rest)
      rw [shape] at empty ⊢
      exact empty

/-- **A normal path is not changed by normalizing.** -/
theorem normalizePath_eq_self {path : String} (normal : NormalPath path) : normalizePath path = path := by
  by_cases isRoot : path = "/"
  · rw [isRoot]
    rfl
  obtain ⟨rest, chars⟩ := List.head?_eq_some_iff.mp normal.leading
  have noneEmpty : ∀ piece ∈ rest.splitOn '/', piece ≠ [] := by
    rintro piece listed rfl
    have double : ['/', '/'] <:+: path.toList ++ ['/'] := by
      rw [chars]
      refine double_of_nil_mem_splitOn ?_
      rw [List.splitOn_cons_eq_if_modifyHead, if_pos (beq_self_eq_true '/'), List.tail_cons]
      exact listed
    rcases List.infix_concat_iff.mp double with ⟨before, ends⟩ | inside
    · have shape : before ++ ['/'] ++ ['/'] = path.toList ++ ['/'] := by
        rw [← ends, List.append_assoc]
        rfl
      rw [List.append_cancel_right_eq] at shape
      exact (normal.trailing.resolve_left isRoot) (by rw [← shape, List.getLast?_concat])
    · exact normal.single inside
  have pieces : nonemptyParts '/' rest = rest.splitOn '/' := by
    refine List.filter_eq_self.mpr fun piece listed => ?_
    rw [Bool.not_eq_true', List.isEmpty_eq_false_iff]
    exact noneEmpty piece listed
  have spelled : path = String.ofList ('/' :: rest) := by rw [← chars, String.ofList_toList]
  have given : nonemptySegments '/' path ≠ [] := by
    rw [spelled, nonemptySegments_eq, String.toList_ofList, nonemptyParts_cons_self, pieces, Ne,
      List.map_eq_nil_iff]
    exact List.splitOn_ne_nil '/' rest
  rw [← String.toList_inj, toList_normalizePath, if_neg given, spelled, slashed_nonemptySegments, pieces,
    flatMap_splitOn, String.toList_ofList]

/-- A normal path holds no address of another site. -/
theorem not_occursIn_of_normalPath {path : String} (normal : NormalPath path) :
    occursIn "://" path = false := by
  rw [Bool.eq_false_iff]
  intro occurs
  have isInside : [':', '/', '/'] <:+: path.toList := isPartOf_iff_isInfix.mp occurs
  exact normal.single (List.IsInfix.trans ⟨[':'], [], rfl⟩ isInside)

/-- **What a look-up makes of a normal path** is the path itself just when it has no blank at its end and
no query. Each step drops characters, so none may drop any. -/
theorem lookedUpPath_eq_self_iff {path : String} (normal : NormalPath path) :
    normalizePath (String.ofList (withoutQuery 0 (trimmed path).toList)) = path ↔
      trimmed path = path ∧ withoutQuery 0 path.toList = path.toList := by
  constructor
  · intro same
    obtain ⟨rest, chars⟩ := List.head?_eq_some_iff.mp normal.leading
    obtain ⟨behind, trimmedChars⟩ : ∃ behind, (trimmed path).toList = '/' :: behind := by
      refine List.head?_eq_some_iff.mp ?_
      rw [← String.ofList_toList (s := path), chars]
      exact head?_trimmed (by decide)
    have shape : withoutQuery 0 (trimmed path).toList = '/' :: withoutQuery 0 behind := by
      rw [trimmedChars, withoutQuery]
      simp
    have third : Sublist path.toList (withoutQuery 0 (trimmed path).toList) := by
      have dropped := sublist_normalizePath (withoutQuery 0 behind)
      rwa [← shape, same] at dropped
    have second := (withoutQuery_isPrefix 0 (trimmed path).toList).sublist
    have isTrimmed : trimmed path = path :=
      eq_of_sublists (sublist_trimmed path) (third.trans second)
    rw [isTrimmed] at second third
    exact ⟨isTrimmed, second.antisymm third⟩
  · rintro ⟨isTrimmed, isBare⟩
    rw [isTrimmed, isBare, String.ofList_toList, normalizePath_eq_self normal]

end Route

/-! ### Routes -/

namespace RouteTable

variable {table : RouteTable} {key : String}

theorem mem_keys_iff : key ∈ table.keys ↔
    (∃ route ∈ table.routes, route.name = some key) ∨
      key ≠ "" ∧ ∃ route ∈ table.routes, route.path = key := by
  rw [keys, List.mem_append, names, paths, mem_ascendingDistinct, mem_ascendingDistinct,
    List.mem_filterMap, List.mem_filter, List.mem_map, Bool.not_eq_true', Bool.eq_false_iff, Ne,
    String.isEmpty_iff, and_comm (b := ¬key = "")]

theorem exists_named? (named : ∃ route ∈ table.routes, route.name = some key) :
    ∃ route, table.named? key = some route := by
  obtain ⟨route, isRoute, isName⟩ := named
  obtain ⟨found, -, isFound, -⟩ := exists_find?_reverse (·.name == some key) isRoute
    (beq_iff_eq.mpr isName)
  exact ⟨found, isFound⟩

theorem exists_atPath? (given : key ≠ "") (placed : ∃ route ∈ table.routes, route.path = key) :
    ∃ route, table.atPath? key = some route := by
  obtain ⟨route, isRoute, isPath⟩ := placed
  obtain ⟨found, -, isFound, -⟩ := exists_find?_reverse (·.path == key) isRoute
    (beq_iff_eq.mpr isPath)
  refine ⟨found, ?_⟩
  rw [atPath?, if_neg (by rwa [String.isEmpty_iff]), isFound]

/-- The key is that of the route. -/
def IsKeyOf (key : String) (route : Route) : Prop := route.name = some key ∨ route.path = key

/-- The look-up of a text leaves the key alone: it is a name, or an address without a blank at its end and
without a query. -/
def Survives (table : RouteTable) (key : String) : Prop :=
  (∃ route ∈ table.routes, route.name = some key) ∨
    trimmed key = key ∧ Route.withoutQuery 0 key.toList = key.toList

/-- **A listed key that survives is found**, by its name or by its path. -/
theorem exists_get?_of_survives (normal : ∀ route ∈ table.routes, Route.NormalPath route.path)
    (listed : key ∈ table.keys) (survives : table.Survives key) :
    ∃ route ∈ table.routes, table.get? key = some route ∧ IsKeyOf key route := by
  unfold get? resolve?
  cases found : table.named? key with
  | some route =>
    obtain ⟨isRoute, isName⟩ := named?_eq_some found
    exact ⟨route, isRoute, rfl, .inl isName⟩
  | none =>
    have unnamed : ¬∃ route ∈ table.routes, route.name = some key := by
      intro named
      obtain ⟨route, isRoute⟩ := exists_named? named
      rw [found] at isRoute
      cases isRoute
    obtain ⟨given, placed⟩ := (mem_keys_iff.mp listed).resolve_left unnamed
    obtain ⟨isTrimmed, isBare⟩ := survives.resolve_left unnamed
    have isNormal : Route.NormalPath key := by
      obtain ⟨route, isRoute, rfl⟩ := placed
      exact normal route isRoute
    obtain ⟨route, isAt⟩ := exists_atPath? given placed
    obtain ⟨isRoute, isPath, -⟩ := atPath?_eq_some isAt
    refine ⟨route, isRoute, ?_, .inr isPath⟩
    simp only [resolvePath?, isTrimmed, isBare, String.ofList_toList,
      Route.normalizePath_eq_self isNormal, Route.not_occursIn_of_normalPath isNormal, isAt,
      Bool.or_false, String.isEmpty_iff, given, if_false, Option.map_some]

/-- **A key under which its own route is found survives.** -/
theorem survives_of_get? (normal : ∀ route ∈ table.routes, Route.NormalPath route.path) {route : Route}
    (found : table.get? key = some route) (isKey : IsKeyOf key route) : table.Survives key := by
  obtain ⟨hit, isHit, rfl⟩ := Option.map_eq_some_iff.mp found
  unfold resolve? at isHit
  split at isHit
  · next named isNamed => exact .inl ⟨named, named?_eq_some isNamed⟩
  · simp only [resolvePath?, Option.ite_none_left_eq_some] at isHit
    obtain ⟨-, isHit⟩ := isHit
    obtain ⟨route, isAt, rfl⟩ := Option.map_eq_some_iff.mp isHit
    obtain ⟨isRoute, isPath, -⟩ := atPath?_eq_some isAt
    rcases isKey with isName | isOwnPath
    · exact .inl ⟨route, isRoute, isName⟩
    · have isNormal : Route.NormalPath key := isOwnPath ▸ normal route isRoute
      exact .inr ((Route.lookedUpPath_eq_self_iff isNormal).mp (isPath.symm.trans isOwnPath))

end RouteTable

/-! ### Views -/

namespace View

/-- A name without a dot has no slash, so it is no slash form of another name. -/
def DotsFirst (name : String) : Prop := '.' ∈ name.toList ∨ '/' ∉ name.toList

/-- The names of all views are of this kind: a directory's own name is followed by a dot. -/
theorem dotsFirst_of_view? {root : ViewRoot} {file : String} {view : View}
    (isView : root.view? file = some view) : DotsFirst view.name := by
  unfold ViewRoot.view? at isView
  split at isView
  · cases isView
  · cases isView
    show DotsFirst (if root.lead.isEmpty then _ else root.lead ++ "." ++ _)
    split
    · exact .inr (not_mem_joinWith (by decide) fun piece listed => (of_mem_nonemptySegments listed).2)
    · exact .inl (by simp)

/-- **The forms of a view that another can be listed under**: its name, bare or with its ending. -/
theorem eq_of_mem_forms {view : View} {key : String} (dotsFirst : DotsFirst key)
    (isForm : key ∈ view.forms) : view.name = key ∨ view.name ++ "." ++ view.ending = key := by
  simp only [forms, List.mem_cons, List.not_mem_nil, or_false] at isForm
  rcases isForm with rfl | isSlashed | rfl
  · exact .inl rfl
  · left
    have chars : key.toList = view.name.toList.map fun c => if c == '.' then '/' else c := by
      rw [isSlashed, exchange, String.toList_ofList]
    have noDot : '.' ∉ view.name.toList := by
      intro dot
      have slash : '/' ∈ key.toList := by
        rw [chars]
        exact List.mem_map.mpr ⟨'.', dot, rfl⟩
      rcases dotsFirst with again | noSlash
      · rw [chars, List.mem_map] at again
        obtain ⟨c, -, same⟩ := again
        split at same
        · cases same
        · next differ => exact differ (beq_iff_eq.mpr same)
      · exact noSlash slash
    rw [← String.toList_inj, chars]
    refine (List.map_id' view.name.toList).symm.trans (List.map_congr_left fun c listed => ?_)
    rw [if_neg]
    rintro isDot
    exact noDot (beq_iff_eq.mp isDot ▸ listed)
  · exact .inr rfl

end View

namespace ViewTable

variable {table : ViewTable} {key : String}

/-- The forms of a listed view give a view. -/
theorem exists_get? (listed : key ∈ table.keys) :
    ∃ view ∈ table.views, table.get? key = some view ∧ key ∈ view.forms := by
  rw [keys, mem_ascendingDistinct, List.mem_map] at listed
  obtain ⟨view, isView, rfl⟩ := listed
  have ownForm : view.forms.contains view.name = true := List.contains_iff_mem.mpr List.mem_cons_self
  obtain ⟨found, isMember, isFound, isForm⟩ :=
    exists_find?_reverse (·.forms.contains view.name) isView ownForm
  exact ⟨found, isMember, isFound, List.contains_iff_mem.mp isForm⟩

theorem addNew_ne_nil (found : List View) (view : View) : addNew found view ≠ [] := by
  unfold addNew
  split
  · next some_same =>
    rintro rfl
    cases some_same
  · simp

/-- A view that the first spelling gives is among all that the spellings give. -/
theorem foldl_addNew_ne_nil (views : List View) {found : List View} (some_view : found ≠ []) :
    views.foldl addNew found ≠ [] := by
  induction views generalizing found with
  | nil => exact some_view
  | cons view rest ih => exact ih (addNew_ne_nil found view)

theorem resolveAll_ne_nil {reference : String} {view : View}
    (resolves : table.resolve? reference = some view) : table.resolveAll reference ≠ [] := by
  obtain ⟨spelling, isSpelling, isView⟩ := List.exists_of_findSome?_eq_some resolves
  have among : view ∈ (View.spellings reference).filterMap table.get? :=
    List.mem_filterMap.mpr ⟨spelling, isSpelling, isView⟩
  unfold resolveAll
  cases shape : (View.spellings reference).filterMap table.get? with
  | nil =>
    rw [shape] at among
    cases among
  | cons first rest => exact foldl_addNew_ne_nil rest (addNew_ne_nil [] first)

theorem declarations_ne_nil {reference : String} {view : View} (now : Tree)
    (resolves : table.resolve? reference = some view) : table.declarations now reference ≠ [] := by
  have some_view := resolveAll_ne_nil resolves
  unfold declarations
  split
  · next none => exact absurd none some_view
  · simpa using some_view

end ViewTable

/-! ### Assets -/

namespace Asset

/-- **The spellings of a reference only drop characters**, its blanks and its query among them. -/
theorem sublist_of_mem_spellings {reference spelling : String}
    (isSpelling : spelling ∈ spellings reference) :
    Sublist spelling.toList (withoutQuery (trimmed reference)).toList := by
  unfold spellings at isSpelling
  generalize withoutQuery (trimmed reference) = bare at isSpelling ⊢
  have relative : Sublist (trimmedStartOf '/' bare).toList bare.toList := by
    rw [trimmedStartOf, String.toList_ofList]
    exact (List.dropWhile_suffix _).sublist
  simp only [mem_distinctNonempty, List.mem_cons, List.not_mem_nil, or_false] at isSpelling
  rcases isSpelling.1 with same | same | same | same <;> rw [same]
  · exact relative
  · exact (sublist_afterStart? ..).trans relative
  · exact (sublist_afterStart? ..).trans relative

theorem sublist_withoutQuery (reference : String) :
    Sublist (withoutQuery reference).toList reference.toList := by
  rw [withoutQuery, String.toList_ofList]
  exact (List.takeWhile_prefix _).sublist

theorem withoutQuery_eq_self_iff {reference : String} :
    withoutQuery reference = reference ↔ '?' ∉ reference.toList ∧ '#' ∉ reference.toList := by
  rw [← String.toList_inj, withoutQuery, String.toList_ofList, List.takeWhile_eq_self_iff]
  constructor
  · intro plain
    exact ⟨fun inside => by simpa using plain _ inside, fun inside => by simpa using plain _ inside⟩
  · rintro ⟨noQuery, noFragment⟩ c inside
    rw [Bool.and_eq_true, bne_iff_ne, bne_iff_ne]
    exact ⟨fun same => noQuery (same ▸ inside), fun same => noFragment (same ▸ inside)⟩

/-- The look-up of a reference leaves the key alone: it has no blank at either end and no query. -/
def Survives (key : String) : Prop := trimmed key = key ∧ '?' ∉ key.toList ∧ '#' ∉ key.toList

theorem withoutQuery_trimmed_eq_self_iff {key : String} :
    withoutQuery (trimmed key) = key ↔ Survives key := by
  constructor
  · intro same
    have isTrimmed : trimmed key = key := by
      have fewer := sublist_withoutQuery (trimmed key)
      rw [same] at fewer
      exact eq_of_sublists (sublist_trimmed key) fewer
    rw [isTrimmed] at same
    exact ⟨isTrimmed, withoutQuery_eq_self_iff.mp same⟩
  · rintro ⟨isTrimmed, plain⟩
    rw [isTrimmed]
    exact withoutQuery_eq_self_iff.mpr plain

/-- A path that ends with a slash has no ending. -/
theorem extension?_directory (directory : String) : Path.extension? (directory ++ "/" ++ "") = none := by
  have noName : Path.fileName (directory ++ "/" ++ "") = "" :=
    Path.fileName_append directory List.not_mem_nil
  rw [Path.extension?, noName]
  rfl

/-- The names of all assets have something in them, since their files have an ending. -/
theorem name_ne_empty_of_asset? {root : AssetRoot} {file : String} {asset : Asset}
    (isAsset : root.asset? file = some asset) : asset.name ≠ "" := by
  unfold AssetRoot.asset? at isAsset
  split at isAsset
  · cases isAsset
  · next ending hasEnding =>
    split at isAsset
    · cases isAsset
    · cases isAsset
      have inner : (afterStart? (root.directory ++ "/") file).getD file ≠ "" := by
        cases found : afterStart? (root.directory ++ "/") file with
        | none =>
          rintro rfl
          cases hasEnding
        | some inner =>
          rintro rfl
          rw [afterStart?_eq_some_iff.mp found, extension?_directory] at hasEnding
          cases hasEnding
      show (if root.underAssets then "assets/" ++ _ else _) ≠ ""
      split
      · intro empty
        simpa using congrArg String.toList empty
      · split
        · exact inner
        · intro empty
          simpa using congrArg String.toList empty

end Asset

namespace AssetTable

variable {table : AssetTable} {key : String}

theorem get?_eq_some {asset : Asset} (found : table.get? key = some asset) :
    asset ∈ table.assets ∧ asset.name = key := by
  have isNamed := List.find?_some found
  exact ⟨List.mem_reverse.mp (List.mem_of_find?_eq_some found), beq_iff_eq.mp isNamed⟩

/-- **A listed key that survives is found.** -/
theorem exists_resolve?_of_survives (given : ∀ asset ∈ table.assets, asset.name ≠ "")
    (listed : key ∈ table.keys) (survives : Asset.Survives key) :
    ∃ asset ∈ table.assets, table.resolve? key = some asset ∧ asset.name = key := by
  rw [keys, mem_ascendingDistinct, List.mem_map] at listed
  obtain ⟨named, isNamed, rfl⟩ := listed
  obtain ⟨asset, isAsset, found, isName⟩ :=
    exists_find?_reverse (·.name == named.name) isNamed (beq_self_eq_true _)
  refine ⟨asset, isAsset, ?_, beq_iff_eq.mp isName⟩
  unfold resolve? Asset.spellings
  rw [Asset.withoutQuery_trimmed_eq_self_iff.mpr survives]
  exact findSome?_distinctNonempty_of_first _ (given named isNamed) found

/-- **A key under which its own asset is found survives.** -/
theorem survives_of_resolve? {asset : Asset} (found : table.resolve? key = some asset)
    (isName : asset.name = key) : Asset.Survives key := by
  obtain ⟨spelling, isSpelling, isAsset⟩ := List.exists_of_findSome?_eq_some found
  have isKey : spelling = key := (get?_eq_some isAsset).2.symm.trans isName
  have kept := Asset.sublist_of_mem_spellings isSpelling
  rw [isKey] at kept
  refine Asset.withoutQuery_trimmed_eq_self_iff.mp (eq_of_sublists ?_ kept)
  exact (Asset.sublist_withoutQuery _).trans (sublist_trimmed key)

end AssetTable

/-! ### Translations -/

namespace TranslationTable

variable {table : TranslationTable} {key : String}

theorem exists_get? (listed : key ∈ table.keys) :
    ∃ record ∈ table.records, table.get? key = some record ∧ record.key = key := by
  rw [keys, mem_ascendingDistinct, List.mem_map] at listed
  obtain ⟨declared, isDeclared, rfl⟩ := listed
  obtain ⟨record, isRecord, found, isKey⟩ :=
    exists_find?_reverse (·.key == declared.key) isDeclared (beq_self_eq_true _)
  exact ⟨record, isRecord, found, beq_iff_eq.mp isKey⟩

theorem declarations_ne_nil {record : TranslationRecord} (now : Tree) (isRecord : record ∈ table.records) :
    table.declarations now record.key ≠ [] := by
  have among : record ∈ table.all record.key :=
    List.mem_filter.mpr ⟨isRecord, beq_self_eq_true _⟩
  unfold declarations
  split
  · rw [Ne, List.map_eq_nil_iff]
    exact List.ne_nil_of_mem among
  · next some_site => exact some_site

end TranslationTable

/-! ### All kinds -/

namespace Json

theorem member?_record (members : List (String × Json)) (name : String) :
    (record members).member? name = (Dict.ofList members).get? name := rfl

end Json

theorem Route.member?_toJson (route : Route) :
    route.toJson.member? "name" = some (Json.optionalString route.name) ∧
      route.toJson.member? "path" = some (.string route.path) := by
  simp [Route.toJson, Json.member?_record, Dict.ofList]

theorem Asset.member?_toJson (asset : Asset) :
    asset.toJson.member? "canonical_name" = some (.string asset.name) := by
  simp [Asset.toJson, Json.member?_record, Dict.ofList]

namespace Index

/-- A record of the index that goes by the key, as it is written. A view goes by its name and also by its
name with its ending. -/
def HasRecord (index : Index) : Kind → String → Json → Prop
  | .route, key, written =>
    ∃ route ∈ index.artifacts.routes.routes, RouteTable.IsKeyOf key route ∧ written = route.toJson
  | .translation, key, written =>
    ∃ record ∈ index.artifacts.translations.records, record.key = key ∧
      written = .record [("record", record.toJson),
        ("locales", Json.ofList TranslationRecord.toJson (index.artifacts.translations.all key))]
  | .view, key, written =>
    ∃ view ∈ index.artifacts.views.views,
      (view.name = key ∨ view.name ++ "." ++ view.ending = key) ∧ written = view.toJson
  | .asset, key, written =>
    ∃ asset ∈ index.artifacts.assets.assets, asset.name = key ∧ written = asset.toJson

/-- **A key that can be looked up**: it is known, its record goes by it, and it is declared somewhere. The
project may have changed since the scan. -/
structure CanBeLookedUp (index : Index) (now : Tree) (kind : Kind) (key : String) : Prop where
  known : index.isKnown kind key = true
  given : index.lookup kind key ≠ .null
  record : index.HasRecord kind key (index.lookup kind key)
  declared : index.declarations now kind key ≠ []

/-- **The keys that a look-up leaves as they are.** -/
def Survives (index : Index) : Kind → String → Prop
  | .route, key => index.artifacts.routes.Survives key
  | .translation, _ => True
  | .view, key => key ≠ ""
  | .asset, key => Asset.Survives key

variable {index : Index} {now : Tree} {key : String}

theorem route_canBeLookedUp_iff
    (normal : ∀ route ∈ index.artifacts.routes.routes, Route.NormalPath route.path)
    (listed : key ∈ index.keys .route) :
    index.CanBeLookedUp now .route key ↔ index.Survives .route key := by
  constructor
  · rintro ⟨known, -, ⟨route, -, isKey, written⟩, -⟩
    rw [isKnown, Option.isSome_iff_exists] at known
    obtain ⟨hit, isHit⟩ := known
    have found : index.artifacts.routes.get? key = some hit.route := by
      rw [RouteTable.get?, isHit, Option.map_some]
    have same : hit.route.toJson = route.toJson := by
      rw [← written, lookup, found, Json.ofOption]
    refine RouteTable.survives_of_get? normal found ?_
    obtain ⟨names, paths⟩ := route.member?_toJson
    rw [← same, hit.route.member?_toJson.1, Option.some_inj] at names
    rw [← same, hit.route.member?_toJson.2, Option.some_inj, Json.string.injEq] at paths
    rcases isKey with isName | isPath
    · left
      rw [isName] at names
      cases shape : hit.route.name with
      | none =>
        rw [shape] at names
        cases names
      | some name =>
        rw [shape] at names
        cases names
        rfl
    · exact .inr (paths.trans isPath)
  · intro survives
    obtain ⟨route, isRoute, found, isKey⟩ :=
      RouteTable.exists_get?_of_survives normal listed survives
    have written : index.lookup .route key = route.toJson := by rw [lookup, found, Json.ofOption]
    obtain ⟨hit, isHit, -⟩ := Option.map_eq_some_iff.mp found
    refine ⟨Option.isSome_iff_exists.mpr ⟨hit, isHit⟩, ?_, ⟨route, isRoute, isKey, written⟩, ?_⟩
    · rw [written]
      intro isNull
      cases isNull
    · rw [declarations, RouteTable.declarations, found]
      exact List.cons_ne_nil _ _

theorem translation_canBeLookedUp (listed : key ∈ index.keys .translation) :
    index.CanBeLookedUp now .translation key := by
  obtain ⟨record, isRecord, found, rfl⟩ := TranslationTable.exists_get? listed
  refine ⟨?_, ?_, ⟨record, isRecord, rfl, ?_⟩, TranslationTable.declarations_ne_nil now isRecord⟩
  · exact List.any_eq_true.mpr ⟨record, isRecord, beq_self_eq_true _⟩
  · rw [lookup, found]
    intro isNull
    cases isNull
  · rw [lookup, found, Json.ofOption]

theorem view_canBeLookedUp_iff
    (dotsFirst : ∀ view ∈ index.artifacts.views.views, View.DotsFirst view.name)
    (listed : key ∈ index.keys .view) :
    index.CanBeLookedUp now .view key ↔ index.Survives .view key := by
  constructor
  · rintro ⟨known, -, -, -⟩ rfl
    cases known
  · intro nonempty
    obtain ⟨view, isView, found, isForm⟩ := ViewTable.exists_get? listed
    have resolves : index.artifacts.views.resolve? key = some view :=
      findSome?_distinctNonempty_of_first _ nonempty found
    have isDotsFirst : View.DotsFirst key := by
      obtain ⟨named, isNamed, rfl⟩ := List.mem_map.mp (mem_ascendingDistinct.mp listed)
      exact dotsFirst named isNamed
    refine ⟨?_, ?_, ⟨view, isView, View.eq_of_mem_forms isDotsFirst isForm, ?_⟩,
      ViewTable.declarations_ne_nil now resolves⟩
    · rw [isKnown, resolves, Option.isSome_some]
    · rw [lookup, resolves]
      intro isNull
      cases isNull
    · rw [lookup, resolves, Json.ofOption]

theorem asset_canBeLookedUp_iff (named : ∀ asset ∈ index.artifacts.assets.assets, asset.name ≠ "")
    (listed : key ∈ index.keys .asset) :
    index.CanBeLookedUp now .asset key ↔ index.Survives .asset key := by
  constructor
  · rintro ⟨known, -, ⟨asset, -, isName, written⟩, -⟩
    rw [isKnown, Option.isSome_iff_exists] at known
    obtain ⟨hit, isHit⟩ := known
    have same : hit.toJson = asset.toJson := by rw [← written, lookup, isHit, Json.ofOption]
    have names := asset.member?_toJson
    rw [← same, hit.member?_toJson, Option.some_inj, Json.string.injEq] at names
    exact AssetTable.survives_of_resolve? isHit (names.trans isName)
  · intro survives
    obtain ⟨asset, isAsset, resolves, isName⟩ :=
      AssetTable.exists_resolve?_of_survives named listed survives
    refine ⟨?_, ?_, ⟨asset, isAsset, isName, ?_⟩, ?_⟩
    · rw [isKnown, resolves, Option.isSome_some]
    · rw [lookup, resolves]
      intro isNull
      cases isNull
    · rw [lookup, resolves, Json.ofOption]
    · rw [declarations, AssetTable.declarations, resolves]
      exact List.cons_ne_nil _ _

/-- **A listed key can be looked up just when a look-up leaves it as it is.** This holds of every kind,
behind any row of refreshes. -/
theorem canBeLookedUp_iff (strictJson : Bool) (earlier : List Tree) (tree now : Tree) {kind : Kind}
    (listed : key ∈ ((earlier.foldl refresh (empty strictJson)).refresh tree).keys kind) :
    let index := (earlier.foldl refresh (empty strictJson)).refresh tree
    index.CanBeLookedUp now kind key ↔ index.Survives kind key := by
  intro index
  cases kind with
  | route =>
    exact route_canBeLookedUp_iff (normalPaths_refresh (normalPaths_foldl strictJson earlier) tree).1
      listed
  | translation => exact iff_of_true (translation_canBeLookedUp listed) trivial
  | view =>
    refine view_canBeLookedUp_iff (fun view isView => ?_) listed
    obtain ⟨root, -, isView⟩ := List.mem_flatMap.mp isView
    obtain ⟨file, -, isView⟩ := List.mem_filterMap.mp isView
    exact View.dotsFirst_of_view? isView
  | asset =>
    refine asset_canBeLookedUp_iff (fun asset isAsset => ?_) listed
    obtain ⟨root, -, isAsset⟩ := List.mem_flatMap.mp isAsset
    obtain ⟨file, -, isAsset⟩ := List.mem_filterMap.mp isAsset
    exact Asset.name_ne_empty_of_asset? isAsset

/-- A question mark in braces belongs to a parameter, so the path that holds it survives. -/
theorem canBeLookedUp_iff_optional :
    let files := MemoryFiles.empty.write "routes/web.php" "<?php Route::get('/\x7bi?\x7d', 'H');"
    let index := (Index.empty false).refresh files.toTree
    "/\x7bi?\x7d" ∈ index.keys .route ∧
      index.CanBeLookedUp MemoryFiles.empty.toTree .route "/\x7bi?\x7d" := by
  intro files index
  have listed : "/\x7bi?\x7d" ∈ index.keys .route := by decide +kernel
  have survives : index.Survives .route "/\x7bi?\x7d" := .inr (by decide +kernel)
  exact ⟨listed, (canBeLookedUp_iff false [] files.toTree MemoryFiles.empty.toTree listed).mpr survives⟩

/-- **Listed keys that are not found**: a path with the mark of a query, an asset with a blank at its start,
and the view of a template whose name is its ending alone. A view whose name is another one's with its
ending is not told from it. -/
theorem listed_keys_not_found :
    let indexOf := fun texts => (Index.empty false).refresh (MemoryFiles.mk ⟨texts⟩).toTree
    let routed := indexOf [("routes/web.php", "<?php Route::get('/a?b', 'H');")]
    let styled := indexOf [("public/ d.css", "")]
    let viewed := indexOf [("app/views/a.blade.php", ""), ("resources/views/.blade.php", ""),
      ("resources/views/a/blade/php.php", "")]
    (routed.keys .route = ["/a?b"] ∧ routed.isKnown .route "/a?b" = false) ∧
      (styled.keys .asset = [" d.css"] ∧ styled.isKnown .asset " d.css" = false) ∧
      (viewed.keys .view = ["", "a", "a.blade.php"] ∧ viewed.isKnown .view "" = false ∧
        (viewed.artifacts.views.resolve? "a.blade.php").map (·.name) = some "a") := by
  decide +kernel

end Index

end ArtifactIndex
