/-
**Files that cannot be read count as empty ones.**

A file can be missing by the time it is read, too large, or no text at all. Every pass leaves such a file
out, and a refresh finds exactly what it would find if the file were empty; only the number of errors
can tell the two apart.

* `Tree.BlanksOut.scan_eq`: the one place in which the two projects differ;
* `Tree.BlanksOut.routesTaken_eq`, `scanLanguageFile_eq`, `scanUsagesOf_eq`: what the three passes that
  read files make of it;
* `Index.unreadable_files_isolated`: a refresh, behind any row of refreshes.

The cache of route files could still hold something for the digest of the empty text. It does not, as
long as no other content that was read before has that digest.
-/

import ArtifactIndex.Proofs.Index.History
import ArtifactIndex.Proofs.Route.SourceOrder

namespace ArtifactIndex

/-! ### Empty files -/

/-- The tree of an empty program. -/
theorem Node.ofSource_empty : Node.ofSource "" = .mk .program ⟨0, 0⟩ "" [] := rfl

/-- An empty program declares no routes. -/
theorem Route.routesOf_empty (file : String) : routesOf file "" = [] := by
  unfold routesOf
  rw [Node.ofSource_empty, routesBelow, if_neg (by exact Bool.false_ne_true)]
  rfl

/-- An empty language file has no translations, and as JSON it cannot be read. -/
theorem flatTranslations?_empty (strict : Bool) (file : LanguageFile) :
    flatTranslations? strict file "" = if strict then none else some [] := by
  cases strict with
  | false =>
    have nothing : FlatEntry.ofPairs "" = [] := by
      unfold FlatEntry.ofPairs
      rw [String.toList_empty, FlatEntry.pairsFrom]
    simp [flatTranslations?, FlatEntry.read?, nothing]
  | true => rfl

/-- Nothing in an empty file refers to anything. -/
theorem fileUsages_empty (artifacts : Artifacts) (file : String) (category : FileCategory) :
    fileUsages artifacts file "" category = [] := by
  have inCode : codeReferences artifacts file "" none none = [] := rfl
  have inTemplate : templateReferences artifacts file "" = [] := by
    unfold templateReferences fragments
    rw [String.toList_empty, Template.fragmentsFrom]
    rfl
  have inText : ∀ table, textReferences artifacts table "" = [] := by
    intro table
    have nothing : Pattern.findAll table "" = [] := by
      unfold Pattern.findAll Pattern.find
      simp [String.toList_empty, Pattern.findFrom]
    rw [textReferences, nothing]
    rfl
  cases category with
  | php => simp [fileUsages, fileReferences, inCode]
  | blade => simp [fileUsages, fileReferences, inTemplate, inText, withoutRepeats]
  | script => simp [fileUsages, fileReferences, inText, withoutRepeats]

/-! ### A project with blanks for the files that cannot be read -/

/-- **The second project has empty files** where files of the first one cannot be read. Both list the same
files, and all others hold the same. -/
structure Tree.BlanksOut (unreadable : String → Prop) (tree blank : Tree) : Prop where
  isFile : tree.isFile = blank.isFile
  isDirectory : tree.isDirectory = blank.isDirectory
  children : tree.children = blank.children
  filesBelow : tree.filesBelow = blank.filesBelow
  ownFiles : tree.ownFiles = blank.ownFiles
  readable : ∀ path, ¬ unreadable path → tree.read path = blank.read path
  fails : ∀ path, unreadable path → ∃ error, tree.read path = .error error
  isEmpty : ∀ path, unreadable path → blank.read path = .ok ""

namespace Tree.BlanksOut

variable {unreadable : String → Prop} {tree blank : Tree}

/-- **Where the two differ:** a scan gets nothing from the one and the empty text from the other. -/
theorem scan_eq (blanks : tree.BlanksOut unreadable blank) (path : String) :
    tree.scan path = blank.scan path ∨
      unreadable path ∧ (∃ errors, tree.scan path = (none, { files := 1, errors })) ∧
        blank.scan path = (some "", { files := 1 }) := by
  by_cases isUnreadable : unreadable path
  · obtain ⟨error, failed⟩ := blanks.fails path isUnreadable
    refine .inr ⟨isUnreadable, ⟨if error.isTooLarge then 0 else 1, ?_⟩, ?_⟩
    · rw [Tree.scan, failed]
    · rw [Tree.scan, blanks.isEmpty path isUnreadable]
  · rw [Tree.scan, Tree.scan, blanks.readable path isUnreadable]
    exact .inl rfl

/-! ### Routes -/

theorem routeFiles_eq (blanks : tree.BlanksOut unreadable blank) : routeFiles tree = routeFiles blank := by
  simp only [routeFiles, Tree.programsIn, Tree.childFiles, Tree.childDirectories, blanks.isFile,
    blanks.children]

/-- The routes of a file are the same, unless the cache has some for the digest of the empty text. -/
theorem routesTaken_eq (blanks : tree.BlanksOut unreadable blank) {cache : RouteCache}
    (forgotten : ∀ file parsed, cache.get? file = some parsed →
      parsed.digest = Digest.ofText "" → parsed.routes = [])
    (file : String) :
    routesTaken tree cache file = routesTaken blank cache file ∧
      (scanRouteFile tree cache file).counts.files = (scanRouteFile blank cache file).counts.files := by
  rcases blanks.scan_eq file with same | ⟨-, ⟨errors, failed⟩, isEmpty⟩
  · simp only [routesTaken, scanRouteFile, same, true_and]
  · have noRoutes : (parseRoutes cache file "").1.routes = [] := by
      fun_cases parseRoutes cache file "" with
      | case1 digest known kept same => exact forgotten file known kept same
      | case2 => exact Route.routesOf_empty file
      | case3 => exact Route.routesOf_empty file
    simp only [routesTaken, scanRouteFile, failed, isEmpty]
    refine ⟨?_, rfl⟩
    exact noRoutes.symm

/-- The scan for routes finds the same in both projects and looks at as many files. -/
theorem scanRoutes_eq (blanks : tree.BlanksOut unreadable blank) {cache : RouteCache}
    (forgotten : ∀ file parsed, cache.get? file = some parsed →
      parsed.digest = Digest.ofText "" → parsed.routes = []) :
    (scanRoutes tree cache).table = (scanRoutes blank cache).table ∧
      (scanRoutes tree cache).counts.files = (scanRoutes blank cache).counts.files := by
  have perFile := blanks.routesTaken_eq forgotten
  constructor
  · refine congrArg RouteTable.mk ?_
    calc (scanRoutes tree cache).table.routes
        = (routeFiles tree).flatMap (routesTaken tree cache) := routes_scanRoutes tree cache
      _ = (routeFiles blank).flatMap (routesTaken blank cache) := by
          rw [blanks.routeFiles_eq]
          exact congrArg (List.flatMap · _) (funext fun file => (perFile file).1)
      _ = (scanRoutes blank cache).table.routes := (routes_scanRoutes blank cache).symm
  · simp only [scanRoutes, ScanCounts.sum_eq, List.map_map, Function.comp_def, blanks.routeFiles_eq,
      (perFile _).2]

/-! ### Translations -/

theorem languageFiles_eq (blanks : tree.BlanksOut unreadable blank) :
    languageFiles tree = languageFiles blank := by
  simp only [languageFiles, languageRoots, localeFiles, Tree.childFiles, Tree.childDirectories,
    blanks.isDirectory, blanks.children, blanks.ownFiles]

/-- The translations of a language file are the same; read as JSON, an empty file is an error too. -/
theorem scanLanguageFile_eq (blanks : tree.BlanksOut unreadable blank) (strict : Bool)
    (file : LanguageFile) :
    (scanLanguageFile tree strict file).1 = (scanLanguageFile blank strict file).1 ∧
      (scanLanguageFile tree strict file).2.files = (scanLanguageFile blank strict file).2.files := by
  rcases blanks.scan_eq file.path with same | ⟨-, ⟨errors, failed⟩, isEmpty⟩
  · simp only [scanLanguageFile, same, true_and]
  · simp only [scanLanguageFile, failed, isEmpty]
    cases file.format with
    | program => exact ⟨rfl, rfl⟩
    | flat =>
      simp only [flatTranslations?_empty]
      cases strict with
      | false => exact ⟨rfl, rfl⟩
      | true => exact ⟨rfl, rfl⟩

theorem scanTranslations_eq (blanks : tree.BlanksOut unreadable blank) (strict : Bool) :
    (scanTranslations tree strict).1 = (scanTranslations blank strict).1 ∧
      (scanTranslations tree strict).2.files = (scanTranslations blank strict).2.files := by
  have perFile := blanks.scanLanguageFile_eq strict
  constructor
  · simp only [scanTranslations, List.flatMap_map, blanks.languageFiles_eq, (perFile _).1]
  · simp only [scanTranslations, ScanCounts.sum_eq, List.map_map, Function.comp_def,
      blanks.languageFiles_eq, (perFile _).2]

/-! ### Views and assets -/

theorem scanViews_eq (blanks : tree.BlanksOut unreadable blank) : scanViews tree = scanViews blank := by
  simp only [scanViews, viewRoots, Tree.childDirectories, blanks.isDirectory, blanks.children,
    blanks.filesBelow]

theorem scanAssets_eq (blanks : tree.BlanksOut unreadable blank) : scanAssets tree = scanAssets blank := by
  simp only [scanAssets, assetRoots, blanks.isDirectory, blanks.filesBelow]

/-! ### Usages -/

/-- The usages in a file are the same. -/
theorem scanUsagesOf_eq (blanks : tree.BlanksOut unreadable blank) (artifacts : Artifacts)
    (file : String) :
    (scanUsagesOf tree artifacts file).1 = (scanUsagesOf blank artifacts file).1 ∧
      (scanUsagesOf tree artifacts file).2.files = (scanUsagesOf blank artifacts file).2.files := by
  unfold scanUsagesOf
  split
  · exact ⟨rfl, rfl⟩
  · next category _ =>
    rcases blanks.scan_eq file with same | ⟨-, ⟨errors, failed⟩, isEmpty⟩
    · rw [same]
      exact ⟨rfl, rfl⟩
    · rw [failed, isEmpty]
      exact ⟨(fileUsages_empty artifacts file category).symm, rfl⟩

theorem scanUsages_eq (blanks : tree.BlanksOut unreadable blank) (artifacts : Artifacts) :
    (scanUsages tree artifacts).1 = (scanUsages blank artifacts).1 ∧
      (scanUsages tree artifacts).2.files = (scanUsages blank artifacts).2.files := by
  have perFile := blanks.scanUsagesOf_eq artifacts
  constructor
  · simp only [scanUsages, List.flatMap_map, blanks.ownFiles, (perFile _).1]
  · simp only [scanUsages, ScanCounts.sum_eq, List.map_map, Function.comp_def, blanks.ownFiles,
      (perFile _).2]

end Tree.BlanksOut

/-! ### Refreshes -/

namespace Index

variable {unreadable : String → Prop} {tree blank : Tree}

/-- The files that a refresh looks at are those of its five passes. -/
theorem files_refresh (index : Index) (tree : Tree) :
    (index.refresh tree).stats.files =
      (scanRoutes tree index.routeCache).counts.files + (scanTranslations tree index.strictJson).2.files +
        (scanViews tree).2.files + (scanAssets tree).2.files +
        (scanUsages tree (index.refresh tree).artifacts).2.files := by
  simp only [refresh, statsOf, ScanCounts.sum_eq, List.map_cons, List.map_nil, List.foldl_cons,
    List.foldl_nil, Nat.zero_add]

/-- A refresh of either project leads to the same tables and, errors aside, to the same counts. -/
theorem refresh_blanksOut (blanks : tree.BlanksOut unreadable blank) {index : Index}
    (forgotten : ∀ file parsed, index.routeCache.get? file = some parsed →
      parsed.digest = Digest.ofText "" → parsed.routes = []) :
    (index.refresh tree).artifacts = (index.refresh blank).artifacts ∧
      (index.refresh tree).usageTable = (index.refresh blank).usageTable ∧
      (index.refresh tree).stats.files = (index.refresh blank).stats.files := by
  obtain ⟨routes, routeFiles⟩ := blanks.scanRoutes_eq forgotten
  obtain ⟨translations, languageFiles⟩ := blanks.scanTranslations_eq index.strictJson
  have artifacts : (index.refresh tree).artifacts = (index.refresh blank).artifacts := by
    simp only [refresh, routes, translations, blanks.scanViews_eq, blanks.scanAssets_eq]
  obtain ⟨usages, usageFiles⟩ := blanks.scanUsages_eq (index.refresh tree).artifacts
  refine ⟨artifacts, ?_, ?_⟩
  · calc (index.refresh tree).usageTable
        = (scanUsages tree (index.refresh tree).artifacts).1 := rfl
      _ = (scanUsages blank (index.refresh tree).artifacts).1 := usages
      _ = (index.refresh blank).usageTable := by
          rw [artifacts]
          rfl
  · rw [artifacts] at usageFiles
    rw [files_refresh, files_refresh, artifacts, routeFiles, languageFiles, blanks.scanViews_eq,
      blanks.scanAssets_eq, usageFiles]

/-- **Unreadable files are isolated.** Behind any row of refreshes, a refresh of a project in which some
files cannot be read publishes the tables of the project in which these files are empty, and counts that
differ in errors at most. Assumed: no other content that was read before has the digest of the empty
text. -/
theorem unreadable_files_isolated (strictJson : Bool) (earlier : List Tree)
    (apart : ∀ seen ∈ earlier, ∀ text, seen.Holds text →
      Digest.ofText text = Digest.ofText "" → text = "")
    (blanks : tree.BlanksOut unreadable blank) :
    let index := earlier.foldl refresh (empty strictJson)
    (index.refresh tree).artifacts = (index.refresh blank).artifacts ∧
      (index.refresh tree).usageTable = (index.refresh blank).usageTable ∧
      (index.refresh tree).stats =
        { (index.refresh blank).stats with errors := (index.refresh tree).stats.errors } := by
  intro index
  have forgotten : ∀ file parsed, index.routeCache.get? file = some parsed →
      parsed.digest = Digest.ofText "" → parsed.routes = [] := by
    intro file parsed kept isEmptys
    obtain ⟨text, ⟨seen, listed, held⟩, rfl⟩ :=
      readFrom_foldl (fun text => ∃ seen ∈ earlier, seen.Holds text) strictJson
        (fun seen listed _ held => ⟨seen, listed, held⟩) file parsed kept
    rw [apart seen listed text held isEmptys]
    exact Route.routesOf_empty file
  obtain ⟨artifacts, usages, files⟩ := refresh_blanksOut blanks forgotten
  refine ⟨artifacts, usages, ?_⟩
  have counted : ∀ tree, (index.refresh tree).stats =
      statsOf (index.refresh tree).artifacts (index.refresh tree).usageTable
        { files := (index.refresh tree).stats.files, errors := (index.refresh tree).stats.errors } :=
    fun _ => rfl
  rw [counted tree, counted blank, artifacts, usages, files]
  rfl

end Index

/-- The project with some files that are no text. -/
def Tree.garbled (tree : Tree) (files : List String) : Tree :=
  { tree with read := fun path => if path ∈ files then .error (.notUtf8 path) else tree.read path }

theorem Tree.blanksOut_garbled {blank : Tree} {files : List String}
    (isEmpty : ∀ path ∈ files, blank.read path = .ok "") :
    (blank.garbled files).BlanksOut (· ∈ files) blank :=
  ⟨rfl, rfl, rfl, rfl, rfl, fun _ isOther => if_neg isOther, fun _ isLost => ⟨_, if_pos isLost⟩, isEmpty⟩

/-- A route file that was read before and a language file, neither of which is a text any more. -/
theorem Index.unreadable_files_isolated_garbled :
    let files := ["lang/en/m.php", "routes/web.php"]
    let holding := fun texts => (MemoryFiles.mk ⟨files.zip texts⟩).toTree
    let before := holding ["<?php return ['k' => 'v'];", "<?php Route::get('/a', fn () => 1);"]
    let blank := holding ["", ""]
    let index := (Index.empty false).refresh before
    let refreshed := index.refresh (blank.garbled files)
    (refreshed.stats.errors = 4 ∧ (index.refresh blank).stats.errors = 0) ∧
      (∀ seen ∈ [before], ∀ text, seen.Holds text → Digest.ofText text = Digest.ofText "" → text = "") ∧
      (blank.garbled files).BlanksOut (· ∈ files) blank ∧
      refreshed.artifacts = (index.refresh blank).artifacts ∧
      refreshed.usageTable = (index.refresh blank).usageTable ∧
      refreshed.stats = { (index.refresh blank).stats with errors := refreshed.stats.errors } := by
  intro files holding before blank index refreshed
  have apart : ∀ seen ∈ [before], ∀ text, seen.Holds text →
      Digest.ofText text = Digest.ofText "" → text = "" := by
    intro seen listed text held same
    rw [List.mem_singleton.mp listed] at held
    obtain ⟨path, found⟩ := MemoryFiles.holds_toTree held
    have isText : text ∈ ["<?php return ['k' => 'v'];", "<?php Route::get('/a', fn () => 1);"] :=
      (List.of_mem_zip found).2
    exact List.inj_on_of_nodup_map nodup_digests
      (.tail _ (List.mem_append_left ["<?php Route::get('/b', fn () => 1);"] isText)) (.head _) same
  have blanks : (blank.garbled files).BlanksOut (· ∈ files) blank :=
    Tree.blanksOut_garbled (by decide +kernel)
  exact ⟨by decide +kernel, apart, blanks,
    unreadable_files_isolated false [before] apart blanks⟩

end ArtifactIndex
