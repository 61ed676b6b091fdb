/-
**The cache of route files is exact.**

A scan for routes takes over the routes of the files that have not changed since the scan before, and
what it leaves for the next scan is made from both. A file that disappears, that cannot be read for a
while or that goes back to an older content could leave something behind.

* `RouteCache.Mirrors.scan`: a scan leaves exactly what the files say that it could read;
* `reused_scanRoutes`: it counts as reused the files from which the scan before read the same text;
* `scanRoutes_exact`: so does each scan of any row of scans.
-/

import ArtifactIndex.Proofs.Index.History
import ArtifactIndex.Proofs.Json.FlatObjects
import ArtifactIndex.Proofs.Route.SourceOrder

namespace ArtifactIndex

/-- The text that a scan reads from a file: the file is one of those in which routes are declared, and it
can be read. -/
def Tree.routeText? (tree : Tree) (file : String) : Option String :=
  if file ∈ routeFiles tree then (tree.read file).toOption else none

/-- The file is scanned and can be read, and so it was in the scan before, with the same text. -/
def Tree.keepsRouteText (tree : Tree) (before : Option Tree) (file : String) : Bool :=
  match tree.routeText? file with
  | none => false
  | some text => before.any fun earlier => earlier.routeText? file == some text

/-- The cache behind a row of scans, the first of which starts without one. -/
def RouteCache.behind (trees : List Tree) : RouteCache :=
  trees.foldl (fun cache tree => (scanRoutes tree cache).cache) .empty

/-- **The cache is that of one scan**: it has the files that the scan could read, each once, with what a
full parse of the text gives; without a scan before it is empty. -/
structure RouteCache.Mirrors (before : Option Tree) (cache : RouteCache) : Prop where
  inOrder : cache.InOrder
  get?_eq : ∀ file, cache.get? file =
    (before.bind fun tree => tree.routeText? file).map (ParsedRoutes.ofSource file)

/-- A dictionary of what is found for some keys. -/
theorem Dict.get?_ofList_filterMap {α : Type} (find? : String → Option α) (keys : List String) (key : String) :
    (Dict.ofList (keys.filterMap fun name => (find? name).map (name, ·))).get? key =
      if key ∈ keys then find? key else none := by
  rw [Dict.get?_ofList, ← List.filterMap_reverse]
  have sameKeys : key ∈ keys ↔ key ∈ keys.reverse := List.mem_reverse.symm
  simp only [sameKeys]
  induction keys.reverse with
  | nil => rfl
  | cons name rest ih =>
    rw [List.filterMap_cons]
    cases found : find? name with
    | none =>
      simp only [Option.map_none, ih, List.mem_cons]
      by_cases same : key = name
      · rw [same, found, ite_self, ite_self]
      · simp only [same, false_or]
    | some value =>
      simp only [Option.map_some, List.lookup_cons, ih, List.mem_cons]
      by_cases same : key = name
      · simp [same, found]
      · simp [same, beq_false_of_ne same]

/-- What a scan reads from a file. -/
theorem Tree.scan_fst (tree : Tree) (file : String) : (tree.scan file).1 = (tree.read file).toOption := by
  unfold scan
  cases tree.read file <;> rfl

/-- The texts that a scan reads are contents of the project's files. -/
theorem Tree.holds_of_routeText? {tree : Tree} {file text : String}
    (isText : tree.routeText? file = some text) : tree.Holds text := by
  unfold routeText? at isText
  split at isText
  · cases isRead : tree.read file with
    | error fault =>
      rw [isRead] at isText
      cases isText
    | ok found =>
      rw [isRead] at isText
      cases isText
      exact ⟨file, isRead⟩
  · cases isText

theorem ParsedRoutes.digest_ofSource (file source : String) :
    (ParsedRoutes.ofSource file source).digest = Digest.ofText source := rfl

namespace RouteCache

variable {occurs : String → Prop} {before : Option Tree} {cache : RouteCache} {tree : Tree}

theorem mirrors_empty : Mirrors none .empty := ⟨.nil, fun _ => rfl⟩

theorem Mirrors.readFrom (mirrors : cache.Mirrors before)
    (visible : ∀ earlier ∈ before, ∀ text, earlier.Holds text → occurs text) : cache.ReadFrom occurs := by
  intro file parsed found
  rw [mirrors.get?_eq] at found
  obtain ⟨text, isText, rfl⟩ := Option.map_eq_some_iff.mp found
  obtain ⟨earlier, isBefore, isText⟩ := Option.bind_eq_some_iff.mp isText
  exact ⟨text, visible earlier isBefore text (Tree.holds_of_routeText? isText), rfl⟩

/-! ### One scan -/

/-- The routes of a file, taken over or not, are those of its text. -/
theorem parsed_scanRouteFile (apart : TellsApart occurs) (readFrom : cache.ReadFrom occurs)
    (visible : ∀ text, tree.Holds text → occurs text) (file : String) :
    (scanRouteFile tree cache file).parsed =
      (tree.read file).toOption.map (ParsedRoutes.ofSource file) := by
  rw [← Tree.scan_fst]
  unfold scanRouteFile
  split
  · next scanned => rw [scanned, Option.map_none]
  · next source counts scanned =>
    have here : occurs source := visible source ⟨file, Tree.read_of_scan scanned⟩
    rw [scanned, Option.map_some, ← parseRoutes_eq apart readFrom file here]

/-- **One scan leaves what its files say.** -/
theorem Mirrors.scan (apart : TellsApart occurs) (readFrom : cache.ReadFrom occurs)
    (visible : ∀ text, tree.Holds text → occurs text) :
    (scanRoutes tree cache).cache.Mirrors (some tree) := by
  refine ⟨Dict.inOrder_ofList _, fun file => ?_⟩
  have entries : (scanRoutes tree cache).cache = Dict.ofList ((routeFiles tree).filterMap fun file =>
      ((tree.read file).toOption.map (ParsedRoutes.ofSource file)).map (file, ·)) := by
    simp only [scanRoutes, List.filterMap_map, Function.comp_def, scanRouteFile_file,
      parsed_scanRouteFile apart readFrom visible]
  rw [entries, Dict.get?_ofList_filterMap fun file => (tree.read file).toOption.map (ParsedRoutes.ofSource file)]
  show _ = (tree.routeText? file).map _
  unfold Tree.routeText?
  split <;> rfl

/-! ### Reused files -/

/-- A file is taken over when the cache has it with the digest of its text. -/
theorem reused_scanRouteFile (tree : Tree) (cache : RouteCache) (file : String) :
    (scanRouteFile tree cache file).counts.reused =
      if ((tree.read file).toOption.any fun text =>
        (cache.get? file).any fun known => known.digest == Digest.ofText text) then 1 else 0 := by
  rw [← Tree.scan_fst]
  have noneReused : (tree.scan file).2.reused = 0 := by
    unfold Tree.scan
    cases tree.read file <;> rfl
  unfold scanRouteFile
  split
  · next counts scanned =>
    rw [scanned] at noneReused ⊢
    simpa using noneReused
  · next source counts scanned =>
    rw [scanned] at noneReused ⊢
    simp only at noneReused
    simp only [ScanCounts.add, noneReused, Nat.zero_add, Option.any_some]
    fun_cases parseRoutes cache file source with
    | case1 digest known kept same => simp [kept, same, digest]
    | case2 digest known kept differ => simp [kept, differ, digest]
    | case3 digest missing => simp [missing]

/-- **Reuse is the same text.** With the cache of the scan before, a file is taken over when that scan
read the same text from it. -/
theorem Mirrors.any_digest_eq (apart : TellsApart occurs) (mirrors : cache.Mirrors before)
    (visibleBefore : ∀ earlier ∈ before, ∀ text, earlier.Holds text → occurs text)
    (visible : ∀ text, tree.Holds text → occurs text) {file : String} (scanned : file ∈ routeFiles tree) :
    ((tree.read file).toOption.any fun text =>
        (cache.get? file).any fun known => known.digest == Digest.ofText text) =
      tree.keepsRouteText before file := by
  have isText : tree.routeText? file = (tree.read file).toOption := if_pos scanned
  unfold Tree.keepsRouteText
  rw [← isText]
  cases here : tree.routeText? file with
  | none => rfl
  | some text =>
    have occursHere := visible text (Tree.holds_of_routeText? here)
    rw [Option.any_some, mirrors.get?_eq, Option.any_map]
    cases before with
    | none => rfl
    | some earlier =>
      show _ = (earlier.routeText? file == some text)
      rw [Option.bind_some]
      cases there : earlier.routeText? file with
      | none => rfl
      | some old =>
        have occursThere := visibleBefore earlier rfl old (Tree.holds_of_routeText? there)
        rw [Option.any_some, ParsedRoutes.digest_ofSource, Bool.eq_iff_iff, beq_iff_eq,
          beq_iff_eq, Option.some_inj]
        exact ⟨apart old text occursThere occursHere, congrArg Digest.ofText⟩

end RouteCache

/-- Ones and zeros are added up to the number of the ones. -/
theorem foldl_add_eq_countP (test : String → Bool) (files : List String) (start : Nat) :
    (files.map fun file => if test file then 1 else 0).foldl (· + ·) start = start + files.countP test := by
  induction files generalizing start with
  | nil => rfl
  | cons file rest ih =>
    rw [List.map_cons, List.foldl_cons, ih, List.countP_cons]
    omega

/-- **The reused files** of a scan are those from which the scan before read the same text. -/
theorem reused_scanRoutes {occurs : String → Prop} (apart : TellsApart occurs) {before : Option Tree}
    {cache : RouteCache} {tree : Tree} (mirrors : cache.Mirrors before)
    (visibleBefore : ∀ earlier ∈ before, ∀ text, earlier.Holds text → occurs text)
    (visible : ∀ text, tree.Holds text → occurs text) :
    (scanRoutes tree cache).counts.reused = (routeFiles tree).countP (tree.keepsRouteText before) := by
  have each : ∀ file ∈ routeFiles tree, (scanRouteFile tree cache file).counts.reused =
      if tree.keepsRouteText before file then 1 else 0 := fun file scanned => by
    rw [RouteCache.reused_scanRouteFile, mirrors.any_digest_eq apart visibleBefore visible scanned]
  simp only [scanRoutes, ScanCounts.sum_eq, List.map_map, Function.comp_def]
  rw [List.map_congr_left each, foldl_add_eq_countP, Nat.zero_add]

/-! ### Rows of scans -/

/-- **A row of scans** leaves the cache of its last scan. By induction from its end. -/
theorem RouteCache.mirrors_behind {occurs : String → Prop} (apart : TellsApart occurs) (trees : List Tree)
    (visible : ∀ tree ∈ trees, ∀ text, tree.Holds text → occurs text) :
    (behind trees).Mirrors trees.getLast? := by
  induction trees using List.reverseRecOn with
  | nil => exact mirrors_empty
  | append_singleton earlier tree ih =>
    have mirrors := ih fun other listed => visible other (List.mem_append_left _ listed)
    have readFrom : (behind earlier).ReadFrom occurs := mirrors.readFrom fun other isLast =>
      visible other (List.mem_append_left _ (List.mem_of_getLast? isLast))
    rw [behind, List.foldl_append, List.getLast?_concat]
    exact .scan apart readFrom (visible tree (by simp))

/-- **The cache is exact.** After each scan of any row of scans the cache holds the route files that this
scan could read, each once and with the routes of its text, and no others; the files that are counted as
reused are those from which the scan right before read the same text. -/
theorem scanRoutes_exact (earlier : List Tree) (tree : Tree)
    (apart : TellsApart fun text => ∃ scanned ∈ earlier ++ [tree], scanned.Holds text) :
    let scan := scanRoutes tree (RouteCache.behind earlier)
    scan.cache.keys.Nodup ∧
      (∀ file, scan.cache.get? file =
        (tree.routeText? file).map fun text => ⟨Digest.ofText text, Route.routesOf file text⟩) ∧
      (routeFiles tree).Nodup ∧
      scan.counts.reused = (routeFiles tree).countP (tree.keepsRouteText earlier.getLast?) := by
  intro scan
  have visible : ∀ text, tree.Holds text → ∃ scanned ∈ earlier ++ [tree], scanned.Holds text :=
    fun text held => ⟨tree, by simp, held⟩
  have visibleBefore : ∀ before ∈ earlier, ∀ text, before.Holds text →
      ∃ scanned ∈ earlier ++ [tree], scanned.Holds text :=
    fun before listed text held => ⟨before, List.mem_append_left _ listed, held⟩
  have visibleLast : ∀ before ∈ earlier.getLast?, ∀ text, before.Holds text →
      ∃ scanned ∈ earlier ++ [tree], scanned.Holds text :=
    fun before isLast => visibleBefore before (List.mem_of_getLast? isLast)
  have mirrors := RouteCache.mirrors_behind apart earlier visibleBefore
  have left := RouteCache.Mirrors.scan apart (mirrors.readFrom visibleLast) visible
  exact ⟨left.inOrder.nodup_keys, left.get?_eq, nodup_routeFiles tree,
    reused_scanRoutes apart mirrors visibleLast visible⟩

/-- A file that goes back to an older content is read again, the other one is taken over. -/
theorem scanRoutes_exact_reverted :
    let holding := fun web => (MemoryFiles.mk ⟨[("routes/api.php", ""), ("routes/web.php", web)]⟩).toTree
    let source := "<?php Route::get('/a', fn () => 1);"
    let first := holding source
    let second := holding "<?php Route::get('/b', fn () => 1);"
    let scan := scanRoutes first (RouteCache.behind [first, second])
    TellsApart (fun text => ∃ scanned ∈ [first, second] ++ [first], scanned.Holds text) ∧
      scan.counts.reused = 1 ∧ (scan.cache.get? "routes/web.php").map (·.digest) =
        some (Digest.ofText source) := by
  intro holding source first second scan
  have contents : ∀ web text, (holding web).Holds text → text = "" ∨ text = web := by
    intro web text held
    obtain ⟨path, listed⟩ := MemoryFiles.holds_toTree held
    simp only [List.mem_cons, Prod.mk.injEq, List.not_mem_nil, or_false] at listed
    exact listed.imp And.right And.right
  have apart : TellsApart fun text => ∃ scanned ∈ [first, second] ++ [first], scanned.Holds text := by
    refine tellsApart_of_nodup ?_ nodup_digests
    rintro text ⟨scanned, listed, held⟩
    simp only [List.cons_append, List.nil_append, List.mem_cons, List.not_mem_nil, or_false] at listed
    rcases listed with rfl | rfl | rfl
    all_goals rcases contents _ _ held with rfl | rfl <;> simp [source]
  obtain ⟨-, kept, -, reused⟩ := scanRoutes_exact [first, second] first apart
  refine ⟨apart, reused.trans (by decide +kernel), ?_⟩
  have isText : first.routeText? "routes/web.php" = some source := by decide +kernel
  rw [kept, isText]
  rfl

end ArtifactIndex
