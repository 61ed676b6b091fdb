/-
**Translations are listed in order.**

The scan goes from root to root. In a root it takes the programs in its locale directories first, then the
files at the root itself, each by name. The roots may lie inside one another, but no file has two places. So
the translations of a key are listed by their places, each once, and the last of them is the key's record.

* `FilePlace.Holds`, `FilePlace.Before`: the places of language files, and their order;
* `IsRootWay.not_inside`: no root is a locale directory of another one;
* `pairwise_placedFiles`, `FilePlace.eq_of_path_eq`: files are taken in the order of their places, and the
  path of a file tells its place;
* `placedLeaves`: the translations of a key with their places, in the order of the scan;
* `TranslationTable.inScanOrder_scan`: so they are listed, and the last of them wins.
-/

import ArtifactIndex.Proofs.Text.Bytes
import ArtifactIndex.Proofs.Translation.Positions
import ArtifactIndex.Proofs.Tree.Directories
import ArtifactIndex.Proofs.Usage.Keys

namespace ArtifactIndex

/-! ### Places -/

/-- Where a language file stands: the position of its root among the roots, the locale directory in that
root, unless the file stands at the root itself, and its name. -/
structure FilePlace where
  root : Nat
  locale : Option String
  name : String

/-- Locale directories by name; what stands in none of them comes behind. -/
def LocaleBefore : Option String → Option String → Prop
  | some left, some right => left < right
  | some _, none => True
  | none, _ => False

/-- **The order of files:** by root, then by locale directory, then by name. -/
def FilePlace.Before (left right : FilePlace) : Prop :=
  left.root < right.root ∨ left.root = right.root ∧
    (LocaleBefore left.locale right.locale ∨ left.locale = right.locale ∧ left.name < right.name)

/-- **The file at a place:** a program in a locale directory of a root, or a language file at the root. -/
inductive FilePlace.Holds (tree : Tree) : FilePlace → LanguageFile → Prop
  | inLocale {index : Nat} {root : String} {directory file : DirectoryEntry}
      (isRoot : (languageRoots tree)[index]? = some root)
      (isLocale : directory ∈ tree.childDirectories root) (isFile : file ∈ tree.childFiles directory.path)
      (isProgram : Path.extension? file.path = some "php") :
      Holds tree ⟨index, some directory.name, file.name⟩ ⟨file.path, directory.name, .program⟩
  | atRoot {index : Nat} {root : String} {file : DirectoryEntry} {found : LanguageFile}
      (isRoot : (languageRoots tree)[index]? = some root) (isFile : file ∈ tree.childFiles root)
      (isLanguageFile : rootFile? file.path = some found) :
      Holds tree ⟨index, none, file.name⟩ found

/-- Where a translation stands: the place of its file, and where its key starts in the file. -/
structure LeafPlace where
  file : FilePlace
  start : Nat

/-- **The order of translations:** by file, then by position in the file. -/
def LeafPlace.Before (left right : LeafPlace) : Prop :=
  left.file.Before right.file ∨ left.file = right.file ∧ left.start < right.start

/-- The translation that is declared at a place, in a file that can be read. -/
def LeafPlace.Declares (tree : Tree) (strict : Bool) (place : LeafPlace) (record : TranslationRecord) :
    Prop :=
  ∃ file, place.file.Holds tree file ∧ file.Declares tree strict record ∧
    record.declaration.start = place.start

/-- All translations of a key stand in locale directories. -/
def DeclaredInLocales (tree : Tree) (strict : Bool) (key : String) : Prop :=
  ∀ (place : LeafPlace) (record : TranslationRecord), record.key = key →
    place.Declares tree strict record → place.file.locale ≠ none

theorem LocaleBefore.irrefl (locale : Option String) : ¬ LocaleBefore locale locale := by
  cases locale with
  | none => exact id
  | some name => exact lt_irrefl name

theorem FilePlace.Before.irrefl (place : FilePlace) : ¬ place.Before place := by
  rintro (ahead | ⟨-, before | ⟨-, below⟩⟩)
  · exact Nat.lt_irrefl _ ahead
  · exact LocaleBefore.irrefl _ before
  · exact lt_irrefl _ below

/-! ### Roots -/

/-- The names on the ways to language roots. -/
inductive IsRootWay : List String → Prop
  | resources : IsRootWay ["resources", "lang"]
  | lang : IsRootWay ["lang"]
  | app : IsRootWay ["app", "lang"]
  | framework : IsRootWay ["vendor", "laravel", "lang"]
  | inModule (name : String) : IsRootWay ["Modules", name, "Resources", "lang"]
  | inPackage (name : String) : IsRootWay ["lang", "vendor", name]

/-- **No root is a locale directory of another one.** The directory `lang/vendor` is one of `lang`, but only
the directories in it are roots. -/
theorem IsRootWay.not_inside {way outer : List String} (isWay : IsRootWay way) (isOuter : IsRootWay outer)
    (name : String) : way ≠ outer ++ [name] := by
  cases isWay <;> cases isOuter <;> simp

theorem IsRootWay.ne_dot {way : List String} (isWay : IsRootWay way) : way ≠ ["."] := by
  cases isWay <;> simp

theorem IsRootWay.append_ne_dot {way : List String} (isWay : IsRootWay way) (name : String) :
    way ++ [name] ≠ ["."] := by
  cases isWay <;> simp

section Roots

variable {tree : Tree} {root : String} {entry : DirectoryEntry}

/-- An entry of a directory has the names on the way to it, and its own; under a dot there are none. -/
theorem Tree.Lists.directoryWay (lists : tree.Lists) {directory : String} {names : List String}
    (isEntry : entry ∈ tree.childDirectories directory) (way : nonemptySegments '/' directory = names)
    (noDot : names ≠ ["."]) : nonemptySegments '/' entry.path = names ++ [entry.name] := by
  subst way
  exact lists.way (List.mem_filter.mp isEntry).1 noDot

theorem moduleWay (lists : tree.Lists) (isModule : entry ∈ tree.childDirectories modulesDirectory) :
    nonemptySegments '/' (entry.path ++ "/Resources/lang") =
      ["Modules", entry.name, "Resources", "lang"] := by
  have way : nonemptySegments '/' entry.path = ["Modules"] ++ [entry.name] :=
    lists.directoryWay isModule (by decide) (by decide)
  have split := nonemptySegments_append '/' entry.path "Resources/lang"
  rw [way, String.append_assoc] at split
  exact split

theorem packageWay (lists : tree.Lists) (isPackage : entry ∈ tree.childDirectories "lang/vendor") :
    nonemptySegments '/' entry.path = ["lang", "vendor", entry.name] := by
  have way : nonemptySegments '/' entry.path = ["lang", "vendor"] ++ [entry.name] :=
    lists.directoryWay isPackage (by decide) (by decide)
  exact way

/-- The ways that roots can have: the four fixed ones, those of modules and those of packages. -/
def rootWays (tree : Tree) : List (List String) :=
  [["resources", "lang"], ["lang"], ["app", "lang"], ["vendor", "laravel", "lang"]] ++
    ((tree.childDirectories modulesDirectory).map fun entry =>
      ["Modules", entry.name, "Resources", "lang"]) ++
    (tree.childDirectories "lang/vendor").map fun entry => ["lang", "vendor", entry.name]

theorem sublist_rootWays (lists : tree.Lists) :
    ((languageRoots tree).map (nonemptySegments '/')).Sublist (rootWays tree) := by
  rw [languageRoots, List.map_append, List.map_append, rootWays]
  refine List.Sublist.append (List.Sublist.append ?_ ?_) ?_
  · exact List.filter_sublist.map _
  · apply (List.filter_sublist.map _).trans
    rw [List.map_map, ← List.map_congr_left fun entry isEntry => moduleWay lists isEntry]
    exact .refl _
  · rw [List.map_map, ← List.map_congr_left fun entry isEntry => packageWay lists isEntry]
    exact .refl _

theorem isRootWay_of_mem_rootWays {way : List String} (listed : way ∈ rootWays tree) : IsRootWay way := by
  simp only [rootWays, List.mem_append, List.mem_map, List.mem_cons, List.not_mem_nil, or_false] at listed
  rcases listed with ((rfl | rfl | rfl | rfl) | ⟨entry, -, rfl⟩) | ⟨entry, -, rfl⟩
  · exact .resources
  · exact .lang
  · exact .app
  · exact .framework
  · exact .inModule _
  · exact .inPackage _

/-- **The roots are distinct:** the ways to them are. -/
theorem nodup_rootWays (lists : tree.Lists) : (rootWays tree).Nodup := by
  -- The names of modules ascend, and so do those of packages.
  have modules : ((tree.childDirectories modulesDirectory).map fun entry =>
      ["Modules", entry.name, "Resources", "lang"]).Nodup := by
    refine List.pairwise_map.mpr ((lists.directories _).imp fun below same => ?_)
    simp only [List.cons.injEq] at same
    exact ne_of_lt below same.2.1
  have packages : ((tree.childDirectories "lang/vendor").map fun entry =>
      ["lang", "vendor", entry.name]).Nodup := by
    refine List.pairwise_map.mpr ((lists.directories _).imp fun below same => ?_)
    simp only [List.cons.injEq] at same
    exact ne_of_lt below same.2.2.1
  have fixed : [["resources", "lang"], ["lang"], ["app", "lang"], ["vendor", "laravel", "lang"]].Nodup := by
    decide
  -- The three kinds differ in their first name or in the number of names.
  refine List.nodup_append.mpr ⟨List.nodup_append.mpr ⟨fixed, modules, ?_⟩, packages, ?_⟩
  · intro left isFixed right isModule
    obtain ⟨entry, -, rfl⟩ := List.mem_map.mp isModule
    rintro rfl
    simp at isFixed
  · intro left isEarlier right isPackage
    obtain ⟨entry, -, rfl⟩ := List.mem_map.mp isPackage
    rintro rfl
    simp at isEarlier

/-- Where a root stands among the roots, its way tells. -/
theorem index_eq_of_way_eq (lists : tree.Lists) {left right : Nat} {leftRoot rightRoot : String}
    (isLeft : (languageRoots tree)[left]? = some leftRoot)
    (isRight : (languageRoots tree)[right]? = some rightRoot)
    (same : nonemptySegments '/' leftRoot = nonemptySegments '/' rightRoot) : left = right := by
  have distinct := (sublist_rootWays lists).nodup (nodup_rootWays lists)
  have bound : left < ((languageRoots tree).map (nonemptySegments '/')).length := by
    rw [List.length_map]
    exact (List.getElem?_eq_some_iff.mp isLeft).1
  apply (List.getElem?_inj bound distinct).mp
  rw [List.getElem?_map, List.getElem?_map, isLeft, isRight, Option.map_some, Option.map_some, same]

theorem isRootWay (lists : tree.Lists) (isRoot : root ∈ languageRoots tree) :
    IsRootWay (nonemptySegments '/' root) :=
  isRootWay_of_mem_rootWays ((sublist_rootWays lists).subset (List.mem_map_of_mem isRoot))

end Roots

/-! ### Files -/

section Files

variable {tree : Tree} {place : FilePlace} {file : LanguageFile}

/-- The language files of a root with their places, in the order of the scan. -/
def placedFilesOf (tree : Tree) (index : Nat) (root : String) : List (FilePlace × LanguageFile) :=
  ((tree.childDirectories root).flatMap fun directory =>
    ((tree.childFiles directory.path).filter fun file => Path.extension? file.path == some "php").map
      fun file => (⟨index, some directory.name, file.name⟩, ⟨file.path, directory.name, .program⟩)) ++
    (tree.childFiles root).filterMap fun file =>
      (rootFile? file.path).map fun found => (⟨index, none, file.name⟩, found)

/-- The language files with their places, in the order of the scan. -/
def placedFiles (tree : Tree) : List (FilePlace × LanguageFile) :=
  (languageRoots tree).zipIdx.flatMap fun root => placedFilesOf tree root.2 root.1

theorem map_snd_placedFiles (hasRoot : languageRoots tree ≠ []) :
    (placedFiles tree).map Prod.snd = languageFiles tree := by
  have files : languageFiles tree = (languageRoots tree).flatMap fun root =>
      localeFiles tree root ++ (tree.childFiles root).filterMap fun file => rootFile? file.path := by
    unfold languageFiles
    split
    · next isNil => exact absurd isNil hasRoot
    · rfl
  have ofRoot : ∀ index root, (placedFilesOf tree index root).map Prod.snd =
      localeFiles tree root ++ (tree.childFiles root).filterMap fun file => rootFile? file.path := by
    intro index root
    simp only [placedFilesOf, localeFiles, List.map_append, List.map_flatMap, List.map_map,
      List.map_filterMap, Option.map_map, Function.comp_def, Option.map_id']
  rw [files, placedFiles, List.map_flatMap]
  simp only [ofRoot]
  conv => rhs; rw [← List.zipIdx_map_fst 0 (languageRoots tree), List.flatMap_map]

/-- **The places of files** are those at which the scan finds them. -/
theorem mem_placedFiles : (place, file) ∈ placedFiles tree ↔ place.Holds tree file := by
  rw [placedFiles, List.mem_flatMap]
  constructor
  · rintro ⟨⟨root, index⟩, isRoot, listed⟩
    rw [List.mk_mem_zipIdx_iff_getElem?] at isRoot
    rcases List.mem_append.mp listed with inLocale | atRoot
    · obtain ⟨directory, isLocale, listed⟩ := List.mem_flatMap.mp inLocale
      obtain ⟨entry, isEntry, same⟩ := List.mem_map.mp listed
      obtain ⟨isFile, isProgram⟩ := List.mem_filter.mp isEntry
      cases same
      exact .inLocale isRoot isLocale isFile (beq_iff_eq.mp isProgram)
    · obtain ⟨entry, isFile, same⟩ := List.mem_filterMap.mp atRoot
      obtain ⟨found, isFound, same⟩ := Option.map_eq_some_iff.mp same
      cases same
      exact .atRoot isRoot isFile isFound
  · rintro (⟨isRoot, isLocale, isFile, isProgram⟩ | ⟨isRoot, isFile, isFound⟩)
    · refine ⟨_, List.mk_mem_zipIdx_iff_getElem?.mpr isRoot, List.mem_append_left _ ?_⟩
      refine List.mem_flatMap.mpr ⟨_, isLocale, List.mem_map.mpr ⟨_, ?_, rfl⟩⟩
      exact List.mem_filter.mpr ⟨isFile, beq_iff_eq.mpr isProgram⟩
    · refine ⟨_, List.mk_mem_zipIdx_iff_getElem?.mpr isRoot, List.mem_append_right _ ?_⟩
      refine List.mem_filterMap.mpr ⟨_, isFile, ?_⟩
      rw [isFound]
      rfl

/-- The files of a root are taken by locale directory and by name, those at the root itself last. -/
theorem pairwise_placedFilesOf (lists : tree.Lists) (index : Nat) (root : String) :
    (placedFilesOf tree index root).Pairwise fun left right => left.1.Before right.1 := by
  refine List.pairwise_append.mpr ⟨List.pairwise_flatMap.mpr ⟨?_, ?_⟩, ?_, ?_⟩
  · intro directory _
    refine List.pairwise_map.mpr (((lists.files directory.path).filter _).imp fun below => ?_)
    exact .inr ⟨rfl, .inr ⟨rfl, below⟩⟩
  · refine (lists.directories root).imp fun below left isLeft right isRight => ?_
    obtain ⟨leftFile, -, rfl⟩ := List.mem_map.mp isLeft
    obtain ⟨rightFile, -, rfl⟩ := List.mem_map.mp isRight
    exact .inr ⟨rfl, .inl below⟩
  · refine List.pairwise_filterMap.mpr ((lists.files root).imp fun below left isLeft right isRight => ?_)
    obtain ⟨leftFile, -, rfl⟩ := Option.map_eq_some_iff.mp isLeft
    obtain ⟨rightFile, -, rfl⟩ := Option.map_eq_some_iff.mp isRight
    exact .inr ⟨rfl, .inr ⟨rfl, below⟩⟩
  · intro left isLeft right isRight
    obtain ⟨directory, -, isLeft⟩ := List.mem_flatMap.mp isLeft
    obtain ⟨leftFile, -, rfl⟩ := List.mem_map.mp isLeft
    obtain ⟨rightEntry, -, isRight⟩ := List.mem_filterMap.mp isRight
    obtain ⟨rightFile, -, rfl⟩ := Option.map_eq_some_iff.mp isRight
    exact .inr ⟨rfl, .inl trivial⟩

/-- **The files are taken in the order of their places.** -/
theorem pairwise_placedFiles (lists : tree.Lists) :
    (placedFiles tree).Pairwise fun left right => left.1.Before right.1 := by
  refine List.pairwise_flatMap.mpr ⟨fun root _ => pairwise_placedFilesOf lists root.2 root.1, ?_⟩
  have ascending : ((languageRoots tree).zipIdx.map Prod.snd).Pairwise (· < ·) := by
    rw [List.zipIdx_map_snd]
    exact List.pairwise_lt_range'
  have atIndex : ∀ (root : String × Nat) (placed : FilePlace × LanguageFile),
      placed ∈ placedFilesOf tree root.2 root.1 → placed.1.root = root.2 := by
    intro root placed listed
    rcases List.mem_append.mp listed with inLocale | atRoot
    · obtain ⟨directory, -, listed⟩ := List.mem_flatMap.mp inLocale
      obtain ⟨file, -, rfl⟩ := List.mem_map.mp listed
      rfl
    · obtain ⟨entry, -, same⟩ := List.mem_filterMap.mp atRoot
      obtain ⟨found, -, rfl⟩ := Option.map_eq_some_iff.mp same
      rfl
  refine (List.pairwise_map.mp ascending).imp fun {left right} ahead first isFirst second isSecond => ?_
  left
  rw [atIndex left first isFirst, atIndex right second isSecond]
  exact ahead

theorem path_of_rootFile? {path : String} (isFound : rootFile? path = some file) : file.path = path := by
  unfold rootFile? at isFound
  split at isFound
  · cases isFound
    rfl
  · cases isFound
    rfl
  · cases isFound

/-- The names on the way to a file: those of its root, its locale directory and its own. -/
theorem FilePlace.Holds.exists_way (lists : tree.Lists) (holds : place.Holds tree file) :
    ∃ root, (languageRoots tree)[place.root]? = some root ∧ IsRootWay (nonemptySegments '/' root) ∧
      nonemptySegments '/' file.path =
        nonemptySegments '/' root ++ place.locale.toList ++ [place.name] := by
  cases holds with
  | @inLocale index root directory file isRoot isLocale isFile isProgram =>
    have isWay := isRootWay lists (List.mem_of_getElem? isRoot)
    have inRoot : nonemptySegments '/' directory.path = nonemptySegments '/' root ++ [directory.name] :=
      lists.directoryWay isLocale rfl isWay.ne_dot
    have noDot : nonemptySegments '/' directory.path ≠ ["."] := by
      rw [inRoot]
      exact isWay.append_ne_dot directory.name
    refine ⟨root, isRoot, isWay, ?_⟩
    rw [lists.way (List.mem_filter.mp isFile).1 noDot, inRoot]
    rfl
  | @atRoot index root file found isRoot isFile isFound =>
    have isWay := isRootWay lists (List.mem_of_getElem? isRoot)
    refine ⟨root, isRoot, isWay, ?_⟩
    rw [path_of_rootFile? isFound, lists.way (List.mem_filter.mp isFile).1 isWay.ne_dot,
      Option.toList_none, List.append_nil]

/-- **No file has two places.** The ways to two places part at a root, at a locale directory or at the name;
a root is no locale directory. -/
theorem FilePlace.eq_of_path_eq (lists : tree.Lists) {left right : FilePlace}
    {leftFile rightFile : LanguageFile} (isLeft : left.Holds tree leftFile)
    (isRight : right.Holds tree rightFile) (same : leftFile.path = rightFile.path) : left = right := by
  obtain ⟨leftRoot, leftIndex, leftWay, leftNames⟩ := isLeft.exists_way lists
  obtain ⟨rightRoot, rightIndex, rightWay, rightNames⟩ := isRight.exists_way lists
  rw [same, rightNames] at leftNames
  obtain ⟨directories, names⟩ := List.append_inj' leftNames rfl
  obtain ⟨leftAt, leftLocale, leftName⟩ := left
  obtain ⟨rightAt, rightLocale, rightName⟩ := right
  cases names
  cases leftLocale with
  | none =>
    cases rightLocale with
    | none =>
      simp only [Option.toList_none, List.append_nil] at directories
      cases index_eq_of_way_eq lists leftIndex rightIndex directories.symm
      rfl
    | some locale =>
      simp only [Option.toList_none, Option.toList_some, List.append_nil] at directories
      exact absurd directories.symm (leftWay.not_inside rightWay locale)
  | some locale =>
    cases rightLocale with
    | none =>
      simp only [Option.toList_none, Option.toList_some, List.append_nil] at directories
      exact absurd directories (rightWay.not_inside leftWay locale)
    | some other =>
      obtain ⟨roots, locales⟩ := List.append_inj' directories rfl
      cases index_eq_of_way_eq lists leftIndex rightIndex roots.symm
      cases locales
      rfl

/-- **No language file is scanned twice.** -/
theorem nodup_languageFiles (lists : tree.Lists) (hasRoot : languageRoots tree ≠ []) :
    ((languageFiles tree).map (·.path)).Nodup := by
  rw [← map_snd_placedFiles hasRoot, List.map_map]
  refine List.pairwise_map.mpr ((pairwise_placedFiles lists).imp_of_mem ?_)
  rintro ⟨left, leftFile⟩ ⟨right, rightFile⟩ isLeft isRight before same
  have one := FilePlace.eq_of_path_eq lists (mem_placedFiles.mp isLeft) (mem_placedFiles.mp isRight) same
  subst one
  exact before.irrefl

end Files

/-! ### Translations -/

section Leaves

variable {tree : Tree} {strict : Bool} {key : String} {place : LeafPlace} {record : TranslationRecord}

/-- The translations of a key with their places, in the order of the scan. -/
def placedLeaves (tree : Tree) (strict : Bool) (key : String) : List (LeafPlace × TranslationRecord) :=
  (placedFiles tree).flatMap fun placed =>
    ((scanLanguageFile tree strict placed.2).1.filter (·.key == key)).map fun record =>
      (⟨placed.1, record.declaration.start⟩, record)

theorem map_snd_placedLeaves (hasRoot : languageRoots tree ≠ []) :
    (placedLeaves tree strict key).map Prod.snd = (scanTranslations tree strict).1.all key := by
  have split : (scanTranslations tree strict).1.all key = (languageFiles tree).flatMap fun file =>
      (scanLanguageFile tree strict file).1.filter (·.key == key) := by
    simp only [TranslationTable.all, scanTranslations, List.flatMap_map, List.filter_flatMap]
  rw [split, ← map_snd_placedFiles hasRoot, List.flatMap_map, placedLeaves, List.map_flatMap]
  simp only [List.map_map, Function.comp_def, List.map_id']

theorem mem_placedLeaves :
    (place, record) ∈ placedLeaves tree strict key ↔
      record.key = key ∧ place.Declares tree strict record := by
  constructor
  · intro listed
    obtain ⟨⟨filePlace, file⟩, isPlaced, listed⟩ := List.mem_flatMap.mp listed
    obtain ⟨found, isFound, same⟩ := List.mem_map.mp listed
    obtain ⟨isScanned, ofKey⟩ := List.mem_filter.mp isFound
    cases same
    exact ⟨beq_iff_eq.mp ofKey, file, mem_placedFiles.mp isPlaced, mem_scanLanguageFile.mp isScanned, rfl⟩
  · rintro ⟨rfl, file, holds, declares, starts⟩
    refine List.mem_flatMap.mpr ⟨(place.file, file), mem_placedFiles.mpr holds, ?_⟩
    refine List.mem_map.mpr ⟨record, ?_, ?_⟩
    · exact List.mem_filter.mpr ⟨mem_scanLanguageFile.mpr declares, beq_self_eq_true _⟩
    · rw [starts]

theorem pairwise_placedLeaves (lists : tree.Lists) (strict : Bool) (key : String) :
    (placedLeaves tree strict key).Pairwise fun left right => left.1.Before right.1 := by
  refine List.pairwise_flatMap.mpr ⟨?_, ?_⟩
  · intro placed _
    refine List.pairwise_map.mpr ((pairwise_scanLanguageFile tree strict placed.2 key).imp fun ahead => ?_)
    exact .inr ⟨rfl, ahead⟩
  · refine (pairwise_placedFiles lists).imp fun before left isLeft right isRight => ?_
    obtain ⟨leftRecord, -, rfl⟩ := List.mem_map.mp isLeft
    obtain ⟨rightRecord, -, rfl⟩ := List.mem_map.mp isRight
    exact .inl before

/-- A translation in a locale directory is one of that locale. -/
theorem LeafPlace.Declares.locale_eq {locale : String} (declares : place.Declares tree strict record)
    (isLocale : place.file.locale = some locale) : record.locale = locale := by
  obtain ⟨file, holds, declared, -⟩ := declares
  have ofFile : record.locale = file.locale := by
    cases declared with
    | text => rfl
    | pair => rfl
  rw [ofFile]
  obtain ⟨⟨root, place, name⟩, start⟩ := place
  cases holds with
  | inLocale =>
    cases isLocale
    rfl
  | atRoot => cases isLocale

/-- Of two translations in locale directories the later one has the later root, or else no smaller
locale. -/
theorem LeafPlace.Before.locale_le {left right : LeafPlace} {locale other : String}
    (before : left.Before right) (isLeft : left.file.locale = some locale)
    (isRight : right.file.locale = some other) :
    left.file.root ≤ right.file.root ∧ (left.file.root = right.file.root → locale ≤ other) := by
  rcases before with (ahead | ⟨sameRoot, inOrder⟩) | ⟨sameFile, -⟩
  · exact ⟨ahead.le, fun same => absurd same ahead.ne⟩
  · refine ⟨sameRoot.le, fun _ => ?_⟩
    rw [isLeft, isRight] at inOrder
    rcases inOrder with below | ⟨same, -⟩
    · exact le_of_lt below
    · exact (Option.some.inj same).le
  · rw [sameFile] at isLeft ⊢
    cases isLeft.symm.trans isRight
    exact ⟨le_rfl, fun _ => le_rfl⟩

end Leaves

/-- **A table lists the translations of a project in order.** Places are those of the language files below
the roots of the project. -/
structure TranslationTable.InScanOrder (table : TranslationTable) (tree : Tree) (strict : Bool) : Prop where
  /-- No language file is scanned twice. -/
  filesOnce : ((languageFiles tree).map (·.path)).Nodup
  /-- A file has one place, although the roots may lie inside one another. -/
  placesApart : ∀ {left right : FilePlace} {leftFile rightFile : LanguageFile},
    left.Holds tree leftFile → right.Holds tree rightFile → leftFile.path = rightFile.path → left = right
  /-- The translations of a key are those that are declared somewhere, each place once and in order. -/
  inOrder : ∀ key : String, ∃ placed : List (LeafPlace × TranslationRecord),
    placed.map Prod.snd = table.all key ∧
      (placed.Pairwise fun left right => left.1.Before right.1) ∧
      ∀ place record, (place, record) ∈ placed ↔ record.key = key ∧ place.Declares tree strict record
  /-- The record of a key is its last translation. -/
  last : ∀ key : String, table.get? key = (table.all key).getLast?
  /-- Both know the same keys, those that are listed. -/
  sameKeys : ∀ key : String,
    ((table.get? key).isSome ↔ table.all key ≠ []) ∧ (key ∈ table.keys ↔ table.all key ≠ [])
  /-- Of a key that is declared in locale directories only, the record is in the last root that declares
  it, and in that root in the greatest locale, by the bytes of its name. -/
  winner : ∀ {key : String} {record : TranslationRecord}, table.get? key = some record →
    DeclaredInLocales tree strict key →
    ∃ place : LeafPlace, place.Declares tree strict record ∧ place.file.locale = some record.locale ∧
      ∀ (rival : LeafPlace) (other : TranslationRecord), other.key = key →
        rival.Declares tree strict other → rival.file.root ≤ place.file.root ∧
          (rival.file.root = place.file.root →
            other.locale.toByteArray.toList ≤ record.locale.toByteArray.toList)

namespace TranslationTable

variable {tree : Tree} {strict : Bool} {key : String} {record : TranslationRecord}

theorem get?_eq_getLast? (table : TranslationTable) (key : String) :
    table.get? key = (table.all key).getLast? :=
  List.getLast?_filter.symm

theorem mem_keys_iff {table : TranslationTable} : key ∈ table.keys ↔ table.all key ≠ [] := by
  rw [keys, mem_ascendingDistinct, List.mem_map, Ne, all, List.filter_eq_nil_iff]
  simp only [beq_iff_eq, not_forall, not_not, exists_prop]

/-- The last of the placed translations of a key wins, as all others stand before it. -/
theorem winner_scan (lists : tree.Lists) (hasRoot : languageRoots tree ≠ [])
    (isWinner : (scanTranslations tree strict).1.get? key = some record)
    (inLocales : DeclaredInLocales tree strict key) :
    ∃ place : LeafPlace, place.Declares tree strict record ∧ place.file.locale = some record.locale ∧
      ∀ (rival : LeafPlace) (other : TranslationRecord), other.key = key →
        rival.Declares tree strict other → rival.file.root ≤ place.file.root ∧
          (rival.file.root = place.file.root → other.locale ≤ record.locale) := by
  have ofLocale : ∀ (place : LeafPlace) (other : TranslationRecord), other.key = key →
      place.Declares tree strict other → place.file.locale = some other.locale := by
    intro place other ofKey declares
    obtain ⟨locale, isLocale⟩ := Option.ne_none_iff_exists'.mp (inLocales place other ofKey declares)
    rw [isLocale, declares.locale_eq isLocale]
  rw [get?_eq_getLast?, ← map_snd_placedLeaves hasRoot, List.getLast?_map] at isWinner
  obtain ⟨⟨place, _⟩, isLast, rfl⟩ := Option.map_eq_some_iff.mp isWinner
  obtain ⟨earlier, split⟩ := List.getLast?_eq_some_iff.mp isLast
  have ordered := pairwise_placedLeaves lists strict key
  obtain ⟨ofKey, declares⟩ := mem_placedLeaves.mp (List.mem_of_getLast? isLast)
  have isLocale := ofLocale place _ ofKey declares
  refine ⟨place, declares, isLocale, fun rival other ofKey declares => ?_⟩
  have isRival := ofLocale rival other ofKey declares
  have listed := mem_placedLeaves.mpr ⟨ofKey, declares⟩
  -- All other places stand before the last one.
  rw [split] at ordered listed
  rcases List.mem_append.mp listed with isEarlier | same
  · have before := (List.pairwise_append.mp ordered).2.2 _ isEarlier _ List.mem_cons_self
    exact before.locale_le isRival isLocale
  · cases List.mem_singleton.mp same
    exact ⟨le_rfl, fun _ => le_rfl⟩

/-- **Translations are listed in order.** A scan of a project with language roots lists the translations of
each key by root, locale directory, file and position; the last one wins. -/
theorem inScanOrder_scan {tree : Tree} (strict : Bool) (isProject : tree.IsProject) (plain : tree.PlainPaths)
    (hasRoot : languageRoots tree ≠ []) : (scanTranslations tree strict).1.InScanOrder tree strict := by
  have lists := isProject.lists plain
  constructor
  case filesOnce => exact nodup_languageFiles lists hasRoot
  case placesApart => exact FilePlace.eq_of_path_eq lists
  case inOrder =>
    intro key
    exact ⟨placedLeaves tree strict key, map_snd_placedLeaves hasRoot, pairwise_placedLeaves lists strict key,
      fun place record => mem_placedLeaves⟩
  case last => exact get?_eq_getLast? _
  case sameKeys =>
    intro key
    refine ⟨?_, mem_keys_iff⟩
    rw [get?_eq_getLast?, Option.isSome_iff_ne_none, Ne, List.getLast?_eq_none_iff]
  case winner =>
    intro key record isWinner inLocales
    obtain ⟨place, declares, isLocale, greatest⟩ := winner_scan lists hasRoot isWinner inLocales
    refine ⟨place, declares, isLocale, fun rival other ofKey isOther => ?_⟩
    obtain ⟨rootLast, localeLast⟩ := greatest rival other ofKey isOther
    refine ⟨rootLast, fun sameRoot => ?_⟩
    rw [← List.not_lt, bytes_lt_iff]
    exact (localeLast sameRoot).not_gt

/-- A key in two locales, and once more in a package, whose root lies inside the other. -/
theorem inScanOrder_scan_nested :
    let source := "<?php return ['k'=>''];"
    let files := ((MemoryFiles.empty.write "lang/fr/m.php" source).write "lang/en/m.php" source).write
      "lang/vendor/p/de/m.php" source
    let table := (scanTranslations files.toTree false).1
    files.toTree.IsProject ∧ files.toTree.PlainPaths ∧ languageRoots files.toTree ≠ [] ∧
      table.InScanOrder files.toTree false ∧ (table.all "m.k").map (·.locale) = ["en", "fr", "de"] := by
  intro source files table
  have isProject : files.toTree.IsProject :=
    .memory (((MemoryFiles.Written.empty.write _ _).write _ _).write _ _)
  have plain : files.toTree.PlainPaths := by
    unfold Tree.PlainPaths
    decide +kernel
  have hasRoot : languageRoots files.toTree ≠ [] := by decide +kernel
  exact ⟨isProject, plain, hasRoot, inScanOrder_scan false isProject plain hasRoot, by decide +kernel⟩

end TranslationTable

end ArtifactIndex
