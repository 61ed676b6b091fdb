/-
**Declarations of translations.**

A key is searched for in the language files as they are now: its namespace names the file, and the rest
is the path of an entry in the array that the file returns. This finds every text that a scan of the file
records, and nothing but keys of the array.

* `splitKey?_joinWith`: the namespace of a key that is joined from a file's name and further keys;
* `declared_of_entryAt`: the entries of a language file are found, and so the texts of a scan;
* `isKey_of_site_eq`: at the site of a key there is no literal in another position;
* `TranslationTable.searchAgrees`: the search and the scan of a project agree.
-/

import ArtifactIndex.Proofs.Translation.Entries
import ArtifactIndex.Proofs.Usage.Programs
import ArtifactIndex.Tree.Memory

namespace ArtifactIndex

/-! ### Keys and files -/

/-- The file of a namespace in a locale directory. -/
def namespaceFile (directory name : String) : String := directory ++ "/" ++ name ++ ".php"

section Names

variable {name : String} {keys : List String}

theorem joinWith_ne_empty (hasKeys : keys ≠ []) (given : ∀ key ∈ keys, key ≠ "") :
    joinWith "." keys ≠ "" := by
  obtain ⟨first, rest, rfl⟩ := List.exists_cons_of_ne_nil hasKeys
  have nonempty := given first List.mem_cons_self
  cases rest with
  | nil =>
    rw [joinWith_singleton]
    exact nonempty
  | cons second rest =>
    rw [joinWith_cons_cons]
    simp [nonempty]

/-- **A joined key** has the file's name as its namespace, as long as the name has no dot. -/
theorem splitKey?_joinWith (named : name ≠ "") (free : '.' ∉ name.toList) (hasKeys : keys ≠ [])
    (given : ∀ key ∈ keys, key ≠ "") :
    Translation.splitKey? (joinWith "." (name :: keys)) = some (name, joinWith "." keys) := by
  have nonempty := joinWith_ne_empty hasKeys given
  have cut : splitFirst? '.' (name ++ "." ++ joinWith "." keys) = some (name, joinWith "." keys) :=
    splitFirst?_append free _
  rw [joinWith_cons name hasKeys, Translation.splitKey?, cut]
  simp only [String.isEmpty_iff, named, nonempty, Bool.or_eq_true, or_self, if_false]

/-- The name of a language file without its ending. -/
theorem stemOf_namespaceFile (directory : String) (free : '/' ∉ name.toList) :
    stemOf (namespaceFile directory name) = name := by
  have isName : Path.fileName (directory ++ "/" ++ (name ++ ".php")) = name ++ ".php" := by
    refine Path.fileName_append directory ?_
    simpa using free
  have ending : splitLast? '.' (name ++ ".php") = some (name, "php") := by
    have cut : splitLast? '.' (name ++ "." ++ "php") = some (name, "php") :=
      splitLast?_append name (by decide)
    rwa [String.append_assoc] at cut
  rw [stemOf, namespaceFile, String.append_assoc, isName, ending]

end Names

/-! ### What the search finds -/

section Search

variable {tree : Tree} {table : TranslationTable} {key name rest source : String} {site : Site}
  {root array keyNode value : Node} {keys : List String}

theorem declarations_of_mem_currentSites (isCurrent : site ∈ currentSites tree key) :
    table.declarations tree key = currentSites tree key := by
  unfold TranslationTable.declarations
  split
  · next none =>
    rw [none] at isCurrent
    cases isCurrent
  · rfl

/-- The sites in a locale directory are those of entries in the file of the namespace. -/
theorem mem_localeSites_iff {directory : String} :
    site ∈ localeSites tree directory name rest ↔
      tree.isFile (namespaceFile directory name) = true ∧ ∃ source array,
        tree.read (namespaceFile directory name) = .ok source ∧
        (Node.ofSource source).returnedArray? = some array ∧
        site ∈ keySites (Origin.ofText (namespaceFile directory name) source) array rest := by
  unfold localeSites namespaceFile
  dsimp only
  generalize directory ++ "/" ++ name ++ ".php" = path
  constructor
  · intro listed
    split at listed
    · cases listed
    · next isFile =>
      split at listed
      · cases listed
      · next source isRead =>
        split at listed
        · cases listed
        · next array returned =>
          rw [Bool.not_eq_true', Bool.not_eq_false] at isFile
          exact ⟨isFile, source, array, isRead, returned, listed⟩
  · rintro ⟨isFile, source, array, isRead, returned, listed⟩
    simp only [isFile, isRead, returned]
    exact listed

/-- The sites of a key in a locale directory are among its current ones. -/
theorem mem_currentSites_of_locale {root : String} {directory : DirectoryEntry}
    (isRoot : root ∈ languageRoots tree) (isLocale : directory ∈ tree.childDirectories root)
    (split : Translation.splitKey? key = some (name, rest))
    (listed : site ∈ localeSites tree directory.path name rest) : site ∈ currentSites tree key := by
  refine List.mem_flatMap.mpr ⟨root, isRoot, List.mem_append_left _ ?_⟩
  rw [split]
  exact List.mem_flatMap.mpr ⟨directory, isLocale, listed⟩

/-- **An entry of a language file is declared** under the file's name and its keys. -/
theorem declared_of_entryAt {root : String} {directory : DirectoryEntry}
    (isRoot : root ∈ languageRoots tree) (isLocale : directory ∈ tree.childDirectories root)
    (named : name ≠ "") (free : '.' ∉ name.toList)
    (isFile : tree.isFile (namespaceFile directory.path name) = true)
    (isRead : tree.read (namespaceFile directory.path name) = .ok source)
    (returned : (Node.ofSource source).returnedArray? = some array)
    (entry : array.EntryAt keys keyNode value) (given : ∀ key ∈ keys, key ≠ "") :
    (Origin.ofText (namespaceFile directory.path name) source).site keyNode.span ∈
      table.declarations tree (joinWith "." (name :: keys)) := by
  have current : (Origin.ofText (namespaceFile directory.path name) source).site keyNode.span ∈
      currentSites tree (joinWith "." (name :: keys)) := by
    refine mem_currentSites_of_locale isRoot isLocale (splitKey?_joinWith named free entry.ne_nil given) ?_
    exact mem_localeSites_iff.mpr ⟨isFile, source, array, isRead, returned, mem_keySites_of_entryAt entry⟩
  rw [declarations_of_mem_currentSites current]
  exact current

theorem exists_record_of_leaf (file : LanguageFile) {leaf : Leaf}
    (returned : (Node.ofSource source).returnedArray? = some array) (isLeaf : leaf ∈ leavesOf "" array) :
    ∃ record ∈ programTranslations file source,
      record.key = dottedPath (stemOf file.path) leaf.path ∧
      record.declaration = (Origin.ofText file.path source).site leaf.span := by
  unfold programTranslations
  rw [returned]
  dsimp only
  -- The projections are reduced first: comparing the keys as they stand would compute them.
  refine ⟨_, List.mem_map_of_mem isLeaf, ?_⟩
  dsimp only
  exact ⟨rfl, rfl⟩

/-- The scan of the file gives an entry that is no array the same key. -/
theorem exists_record_of_entryAt {directory locale : String} (named : name ≠ "")
    (free : '/' ∉ name.toList) (returned : (Node.ofSource source).returnedArray? = some array)
    (entry : array.EntryAt keys keyNode value) (isText : value.isArray = false)
    (given : ∀ key ∈ keys, key ≠ "") :
    ∃ record ∈ programTranslations ⟨namespaceFile directory name, locale, .program⟩ source,
      record.key = joinWith "." (name :: keys) ∧
      record.declaration = (Origin.ofText (namespaceFile directory name) source).site keyNode.span := by
  have sameKey : dottedPath (stemOf (namespaceFile directory name)) (keys.foldl dottedPath "") =
      joinWith "." (name :: keys) := by
    rw [stemOf_namespaceFile directory free, foldl_dottedPath_empty given, dottedPath, if_neg,
      joinWith_cons name entry.ne_nil]
    rwa [String.isEmpty_iff]
  obtain ⟨record, isRecord, isKey, isSite⟩ := exists_record_of_leaf
    ⟨namespaceFile directory name, locale, .program⟩ returned (mem_leavesOf_of_entryAt entry isText "")
  exact ⟨record, isRecord, isKey.trans sameKey, isSite⟩

theorem not_program_of_mem_flatSites {path : String} (listed : site ∈ flatSites tree key path) :
    Path.extension? site.file ≠ some "php" := by
  unfold flatSites at listed
  split at listed
  · cases listed
  · next isFlat =>
    split at listed
    · cases listed
    · next source _ =>
      obtain ⟨span, -, rfl⟩ := Option.map_eq_some_iff.mp (Option.mem_toList.mp listed)
      have isJson : Path.extension? path = some "json" := by simpa using isFlat
      show Path.extension? path ≠ some "php"
      rw [isJson]
      decide

/-- A site in a program is one that the search of locale directories finds. -/
theorem exists_locale_of_mem_currentSites (isCurrent : site ∈ currentSites tree key)
    (inProgram : Path.extension? site.file = some "php") :
    ∃ root ∈ languageRoots tree, ∃ directory ∈ tree.childDirectories root, ∃ name rest,
      Translation.splitKey? key = some (name, rest) ∧ site ∈ localeSites tree directory.path name rest := by
  obtain ⟨root, isRoot, listed⟩ := List.mem_flatMap.mp isCurrent
  rcases List.mem_append.mp listed with inLocale | inFlat
  · split at inLocale
    · cases inLocale
    · next name rest split =>
      obtain ⟨directory, isLocale, isSite⟩ := List.mem_flatMap.mp inLocale
      exact ⟨root, isRoot, directory, isLocale, name, rest, split, isSite⟩
  · obtain ⟨file, -, isSite⟩ := List.mem_flatMap.mp inFlat
    exact absurd inProgram (not_program_of_mem_flatSites isSite)

/-! ### Key positions -/

/-- The key of an entry of the returned array is a literal of the program, in key position. -/
theorem exists_place_of_returned (isTree : root.IsTreeOf source)
    (returned : root.returnedArray? = some array) (entry : array.EntryAt keys keyNode value) :
    ∃ place ∈ root.literals, place.node = keyNode ∧
      ∃ around, place.enclosingArray? = some (around, true) := by
  obtain ⟨statement, isStatement, found⟩ := List.exists_of_findSome?_eq_some returned
  rw [Option.ite_none_right_eq_some, beq_iff_eq] at found
  obtain ⟨isReturn, isFirst⟩ := found
  obtain ⟨index, atIndex⟩ := List.mem_iff_getElem?.mp isStatement
  obtain ⟨position, atPosition⟩ := List.mem_iff_getElem?.mp (List.mem_of_find?_eq_some isFirst)
  obtain ⟨place, listed, isKey⟩ :=
    exists_key_place entry [⟨statement, position⟩, ⟨root, index⟩]
  refine ⟨place, ?_, isKey⟩
  refine Node.mem_literalsFrom_of_child ?_ atIndex (Node.mem_literalsFrom_of_child ?_ atPosition listed)
  · rw [isTree.kind]
    nofun
  · rw [isReturn]
    nofun

/-- **Only keys are at the site of a key.** A literal with the range of another one is the same. -/
theorem isKey_of_site_eq (isTree : root.IsTreeOf source) (returned : root.returnedArray? = some array)
    (entry : array.EntryAt keys keyNode value) {origin : Origin} {place : Place}
    (listed : place ∈ root.literals)
    (atKey : origin.site place.node.span = origin.site keyNode.span) :
    ∃ around, place.enclosingArray? = some (around, true) := by
  obtain ⟨other, isOther, rfl, isKey⟩ := exists_place_of_returned isTree returned entry
  obtain ⟨key, hasValue⟩ := entry.exists_key
  rw [isTree.eq_of_span_eq listed isOther hasValue (Origin.span_eq_of_site_eq atKey)]
  exact isKey

end Search

/-! ### The scan and the search -/

/-- **The search agrees with the scan.** -/
structure TranslationTable.SearchAgrees (table : TranslationTable) (tree : Tree) : Prop where
  /-- Every text that a scan finds in the file of a namespace stands under some keys. When these are not
  empty, the site of the last one is among the declarations of the joined key. -/
  scanned : ∀ {root name source : String} {directory : DirectoryEntry} {array : Node},
    root ∈ languageRoots tree → directory ∈ tree.childDirectories root → name ≠ "" → '.' ∉ name.toList →
    tree.isFile (namespaceFile directory.path name) = true →
    tree.read (namespaceFile directory.path name) = .ok source →
    (Node.ofSource source).returnedArray? = some array →
    ∀ leaf ∈ leavesOf "" array, (∃ keys, leaf.Under "" array keys) ∧
      ∀ keys, leaf.Under "" array keys → (∀ key ∈ keys, key ≠ "") →
        (Origin.ofText (namespaceFile directory.path name) source).site leaf.span ∈
          table.declarations tree (joinWith "." (name :: keys))
  /-- The joined key is also the one under which the scan records the text. -/
  recorded : ∀ {directory name locale source : String} {array : Node} {leaf : Leaf} {keys : List String},
    name ≠ "" → '/' ∉ name.toList → (Node.ofSource source).returnedArray? = some array →
    leaf.Under "" array keys → (∀ key ∈ keys, key ≠ "") →
    ∃ record ∈ programTranslations ⟨namespaceFile directory name, locale, .program⟩ source,
      record.key = joinWith "." (name :: keys) ∧
      record.declaration = (Origin.ofText (namespaceFile directory name) source).site leaf.span
  /-- A site that the search of a locale directory yields is that of a key in the returned array, whose
  path is the searched key without its namespace. A literal at that site is in key position. -/
  searched : ∀ {directory name rest : String} {site : Site},
    site ∈ localeSites tree directory name rest →
    ∃ source array keys keyNode value, tree.read (namespaceFile directory name) = .ok source ∧
      (Node.ofSource source).returnedArray? = some array ∧ array.EntryAt keys keyNode value ∧
      joinWith "." keys = rest ∧
      site = (Origin.ofText (namespaceFile directory name) source).site keyNode.span ∧
      ∀ place ∈ (Node.ofSource source).literals,
        (Origin.ofText (namespaceFile directory name) source).site place.node.span = site →
        ∃ around, place.enclosingArray? = some (around, true)
  /-- A declaration in a program comes from such a search, unless those of the last scan are taken. -/
  inPrograms : ∀ {key : String} {site : Site}, currentSites tree key ≠ [] →
    site ∈ table.declarations tree key → Path.extension? site.file = some "php" →
    ∃ root ∈ languageRoots tree, ∃ directory ∈ tree.childDirectories root, ∃ name rest,
      Translation.splitKey? key = some (name, rest) ∧ site ∈ localeSites tree directory.path name rest

/-- **The declarations of a translation** are those that the scan records, for every project. -/
theorem TranslationTable.searchAgrees (table : TranslationTable) (tree : Tree) :
    table.SearchAgrees tree where
  scanned := by
    intro root name source directory array isRoot isLocale named free isFile isRead returned leaf isLeaf
    refine ⟨mem_leavesOf_iff.mp isLeaf, ?_⟩
    rintro keys ⟨keyNode, value, entry, -, rfl⟩ given
    exact declared_of_entryAt isRoot isLocale named free isFile isRead returned entry given
  recorded := by
    rintro directory name locale source array leaf keys named free returned
      ⟨keyNode, value, entry, isText, rfl⟩ given
    exact exists_record_of_entryAt named free returned entry isText given
  searched := by
    intro directory name rest site listed
    obtain ⟨-, source, array, isRead, returned, isSite⟩ := mem_localeSites_iff.mp listed
    obtain ⟨keys, keyNode, value, entry, isPath, rfl⟩ := mem_keySites_iff.mp isSite
    refine ⟨source, array, keys, keyNode, value, isRead, returned, entry, isPath, rfl, ?_⟩
    intro place isLiteral atKey
    exact isKey_of_site_eq (Node.isTreeOf_ofSource source) returned entry isLiteral atKey
  inPrograms := by
    intro key site current isDeclared inProgram
    obtain ⟨first, isFirst⟩ := List.exists_mem_of_ne_nil _ current
    rw [declarations_of_mem_currentSites isFirst] at isDeclared
    exact exists_locale_of_mem_currentSites isDeclared inProgram

/-- A key with a dot of its own below another key. The scan records its text, the search finds the key,
and the value that is written like the outer key is at no site that the search yields. -/
theorem TranslationTable.searchAgrees_dotted :
    let file := "lang/en/m.php"
    let source := "<?php return ['a' => ['b.c' => 'a']];"
    let tree := (MemoryFiles.mk ⟨[(file, source)]⟩).toTree
    let site : Site := { file, line := 0, start := 22, stop := 27 }
    site ∈ empty.declarations tree "m.a.b.c" ∧
      (∃ record ∈ programTranslations ⟨file, "en", .program⟩ source,
        record.key = "m.a.b.c" ∧ record.declaration = site) ∧
      (∃ root ∈ languageRoots tree, ∃ directory ∈ tree.childDirectories root, ∃ name rest,
        Translation.splitKey? "m.a.b.c" = some (name, rest) ∧ site ∈ localeSites tree directory.path name rest) ∧
      ∃ value ∈ (Node.ofSource source).literals, value.node.literal? = some "a" ∧
        ∀ rest, (Origin.ofText file source).site value.node.span ∉ localeSites tree "lang/en" "m" rest := by
  intro file source tree site
  have agrees := TranslationTable.searchAgrees empty tree
  have isRoot : "lang" ∈ languageRoots tree := by decide +kernel
  have isLocale : ⟨"en", "lang/en", true⟩ ∈ tree.childDirectories "lang" := by decide +kernel
  have isRead : tree.read (namespaceFile "lang/en" "m") = .ok source := by rfl
  -- The inner entry of the returned array, under both keys, and the literal behind these.
  obtain ⟨shape, third⟩ : ((Node.ofSource source).returnedArray?.bind fun array =>
      array.arrayEntries.head?.bind fun outer => outer.key.bind fun outerNode =>
        outer.value.arrayEntries.head?.bind fun inner => inner.key.map fun keyNode =>
          (outerNode.literal?, outer.value.isArray, keyNode.literal?, inner.value.isArray, keyNode.span)) =
        some (some "a", true, some "b.c", false, ⟨22, 27⟩) ∧
      ((Node.ofSource source).literals[2]?.map fun place =>
        (place.node.literal?, place.enclosingArray?.map (·.2))) = some (some "a", some false) := by
    decide +kernel
  obtain ⟨array, returned, shape⟩ := Option.bind_eq_some_iff.mp shape
  obtain ⟨⟨outerKey, inner⟩, isFirst, shape⟩ := Option.bind_eq_some_iff.mp shape
  obtain ⟨outerNode, rfl, shape⟩ := Option.bind_eq_some_iff.mp shape
  obtain ⟨⟨innerKey, text⟩, isSecond, shape⟩ := Option.bind_eq_some_iff.mp shape
  obtain ⟨keyNode, rfl, shape⟩ := Option.map_eq_some_iff.mp shape
  simp only [Prod.mk.injEq] at shape
  obtain ⟨isOuter, isArray, isInner, isText, isSpan⟩ := shape
  have entry : array.EntryAt ["a", "b.c"] keyNode text :=
    .within (List.mem_of_mem_head? isFirst) isOuter isArray (.own (List.mem_of_mem_head? isSecond) isInner)
  have given : ∀ key ∈ ["a", "b.c"], key ≠ "" := by decide
  have under : Leaf.Under "" array ["a", "b.c"]
      ⟨["a", "b.c"].foldl dottedPath "", keyNode.span, leafValue text⟩ := ⟨keyNode, text, entry, isText, rfl⟩
  have isSite : (Origin.ofText file source).site keyNode.span = site := by
    rw [isSpan]
    decide +kernel
  have declared := (agrees.scanned isRoot isLocale (by decide) (by decide) (by decide +kernel) isRead
    returned _ (mem_leavesOf_iff.mpr ⟨_, under⟩)).2 _ under given
  have isDeclared : site ∈ empty.declarations tree "m.a.b.c" := isSite ▸ declared
  refine ⟨isDeclared, ?_, ?_, ?_⟩
  · obtain ⟨record, isRecord, isKey, isOwn⟩ :
        ∃ record ∈ programTranslations ⟨namespaceFile "lang/en" "m", "en", .program⟩ source,
          record.key = joinWith "." ["m", "a", "b.c"] ∧
          record.declaration = (Origin.ofText (namespaceFile "lang/en" "m") source).site keyNode.span :=
      agrees.recorded (by decide) (by decide) returned under given
    exact ⟨record, isRecord, isKey, isOwn.trans isSite⟩
  · refine agrees.inPrograms ?_ isDeclared (by decide +kernel)
    decide +kernel
  · obtain ⟨value, isThird, shape⟩ := Option.map_eq_some_iff.mp third
    injection shape with isValue isNoKey
    refine ⟨value, List.mem_of_getElem? isThird, isValue, fun rest found => ?_⟩
    obtain ⟨_, _, _, _, _, isSame, _, _, _, atSite, inKeyPosition⟩ := agrees.searched found
    cases isRead.symm.trans isSame
    obtain ⟨around, isKey⟩ := inKeyPosition value (List.mem_of_getElem? isThird) rfl
    rw [isKey] at isNoKey
    cases isNoKey

end ArtifactIndex
