/-
**Directories list their entries in order.**

The directories in a directory have names of their own, and so have the files; both ascend. The path of an
entry is taken apart into the names of its directory and its own name.

* `Tree.Lists`: these rules;
* `MemoryFiles.lists_toTree`: files in memory follow them when no path has an empty part;
* `DiskEntry.lists_toTree`: a directory on a disk follows them;
* `Tree.IsProject.lists`: so does every project.
-/

import ArtifactIndex.Proofs.Text.Cuts
import ArtifactIndex.Proofs.Text.Slices
import ArtifactIndex.Proofs.Tree.Listing

namespace ArtifactIndex

/-- **The rules of listing.** The directory of the project itself, under a dot, is left out of the first. -/
structure Tree.Lists (tree : Tree) : Prop where
  /-- An entry has the names on the way to its directory, and its own. -/
  way : ∀ {directory : String} {entry : DirectoryEntry}, entry ∈ tree.children directory →
    nonemptySegments '/' directory ≠ ["."] →
    nonemptySegments '/' entry.path = nonemptySegments '/' directory ++ [entry.name]
  directories : ∀ directory : String,
    (tree.childDirectories directory).Pairwise fun left right => left.name < right.name
  files : ∀ directory : String,
    (tree.childFiles directory).Pairwise fun left right => left.name < right.name

/-- The paths of the files have no empty parts. -/
def Tree.PlainPaths (tree : Tree) : Prop := ∀ path ∈ tree.filesBelow "", "" ∉ segments '/' path

/-! ### Order -/

namespace DirectoryEntry

theorem inOrder_perm (entries : List DirectoryEntry) : (inOrder entries).Perm entries :=
  sortBy_perm entries

theorem pairwise_inOrder (entries : List DirectoryEntry) :
    (inOrder entries).Pairwise fun left right => left.name ≤ right.name :=
  pairwise_sortBy_text (·.name) entries

/-- Some of the entries ascend when they are listed in order, if they have distinct names. -/
theorem pairwise_filter_inOrder {entries : List DirectoryEntry} {test : DirectoryEntry → Bool}
    (distinct : ((entries.filter test).map (·.name)).Nodup) :
    ((inOrder entries).filter test).Pairwise fun left right => left.name < right.name := by
  have kept : (((inOrder entries).filter test).map (·.name)).Nodup :=
    (((inOrder_perm entries).filter test).map _).nodup_iff.mpr distinct
  apply (((pairwise_inOrder entries).filter test).and (List.pairwise_map.mp kept)).imp
  rintro left right ⟨atMost, differ⟩
  exact lt_of_le_of_ne atMost differ

end DirectoryEntry

/-! ### In memory -/

theorem splitFirst?_eq_some {separator : Char} {text left right : String}
    (found : splitFirst? separator text = some (left, right)) :
    text = left ++ String.singleton separator ++ right ∧ separator ∉ left.toList := by
  unfold splitFirst? at found
  dsimp only at found
  split at found
  · cases found
  · next c rest shape =>
    cases found
    have isSeparator : c = separator := by
      have fails := List.head?_dropWhile_not (· != separator) text.toList
      rw [shape] at fails
      simpa using fails
    subst isSeparator
    constructor
    · rw [← String.toList_inj]
      simp only [String.toList_append, String.toList_ofList, String.toList_singleton, List.append_assoc,
        List.singleton_append]
      rw [← shape, List.takeWhile_append_dropWhile]
    · rw [String.toList_ofList]
      intro inside
      simpa using List.all_eq_true.mp List.all_takeWhile c inside

namespace MemoryFiles

variable {files : MemoryFiles} {directory name inner : String}

/-- What stands below a directory has the names on the way to it, except under a dot. -/
theorem nonemptySegments_beginningOf (inner : String) (noDot : nonemptySegments '/' directory ≠ ["."]) :
    nonemptySegments '/' (beginningOf directory ++ inner) =
      nonemptySegments '/' directory ++ nonemptySegments '/' inner := by
  rw [← nonemptySegments_trimmedOf '/' directory] at noDot ⊢
  unfold beginningOf
  dsimp only
  generalize trimmedOf '/' directory = bare at noDot ⊢
  split
  · next isShort =>
    rw [Bool.or_eq_true, String.isEmpty_iff, beq_iff_eq] at isShort
    rcases isShort with rfl | rfl
    · rw [String.empty_append, nonemptySegments_empty, List.nil_append]
    · exact absurd (by decide) noDot
  · exact nonemptySegments_append '/' bare inner

/-- A path below a directory, without the directory, has no empty parts if the path has none. -/
theorem plain_of_mem_innerPaths (plain : files.toTree.PlainPaths) (isInner : inner ∈ files.innerPaths directory) :
    "" ∉ segments '/' inner := by
  obtain ⟨path, isPath, found⟩ := List.mem_filterMap.mp isInner
  rw [afterStart?_eq_some_iff] at found
  have isPlain : "" ∉ segments '/' path := by
    apply plain
    refine List.mem_filter.mpr ⟨isPath, ?_⟩
    rfl
  subst found
  unfold beginningOf at isPlain
  dsimp only at isPlain
  split at isPlain
  · rwa [String.empty_append] at isPlain
  · rw [show "/" = String.singleton '/' from rfl, segments_append, List.mem_append, not_or] at isPlain
    exact isPlain.2

/-- The names in a directory are names indeed: not empty, and without slashes. -/
theorem isName_of_mem_directoryNames (plain : files.toTree.PlainPaths)
    (isName : name ∈ files.directoryNames directory) : nonemptySegments '/' name = [name] := by
  rw [directoryNames, List.mem_eraseDups] at isName
  obtain ⟨inner, isInner, cut⟩ := List.mem_filterMap.mp isName
  obtain ⟨⟨_, rest⟩, found, rfl⟩ := Option.map_eq_some_iff.mp cut
  obtain ⟨rfl, free⟩ := splitFirst?_eq_some found
  have isPlain := plain_of_mem_innerPaths plain isInner
  rw [segments_append, segments_of_free free, List.singleton_append, List.mem_cons, not_or] at isPlain
  apply nonemptySegments_of_free _ free
  intro isNil
  exact isPlain.1 (String.toList_eq_nil_iff.mp isNil).symm

theorem isName_of_mem_fileNames (plain : files.toTree.PlainPaths)
    (isName : name ∈ files.fileNames directory) : nonemptySegments '/' name = [name] := by
  obtain ⟨isInner, isFree⟩ := List.mem_filter.mp isName
  have free : '/' ∉ name.toList := by simpa [hasChar] using isFree
  have isPlain := plain_of_mem_innerPaths plain isInner
  rw [segments_of_free free, List.mem_singleton] at isPlain
  apply nonemptySegments_of_free _ free
  intro isNil
  exact isPlain (String.toList_eq_nil_iff.mp isNil).symm

theorem nodup_innerPaths (written : files.Written) (directory : String) :
    (files.innerPaths directory).Nodup := by
  refine List.Nodup.filterMap ?_ written.inOrder.nodup_keys
  intro left right inner isLeft isRight
  rw [Option.mem_def, afterStart?_eq_some_iff] at isLeft isRight
  rw [isLeft, isRight]

/-- **Files in memory** are listed by the rules, when no path has an empty part. -/
theorem lists_toTree (written : files.Written) (plain : files.toTree.PlainPaths) : files.toTree.Lists where
  way := by
    intro directory entry isEntry noDot
    have isEntry := (DirectoryEntry.inOrder_perm _).mem_iff.mp isEntry
    rcases List.mem_append.mp isEntry with isDirectory | isFile
    · obtain ⟨name, isName, rfl⟩ := List.mem_map.mp isDirectory
      exact (nonemptySegments_beginningOf name noDot).trans
        (congrArg _ (isName_of_mem_directoryNames plain isName))
    · obtain ⟨name, isName, rfl⟩ := List.mem_map.mp isFile
      exact (nonemptySegments_beginningOf name noDot).trans
        (congrArg _ (isName_of_mem_fileNames plain isName))
  directories := by
    intro directory
    apply DirectoryEntry.pairwise_filter_inOrder
    simp only [List.filter_append, List.filter_map, Function.comp_def, List.filter_true,
      List.filter_false, List.map_nil, List.append_nil, List.map_map, List.map_id']
    exact nodup_eraseDups _
  files := by
    intro directory
    apply DirectoryEntry.pairwise_filter_inOrder
    simp only [List.filter_append, List.filter_map, Function.comp_def, Bool.not_true, Bool.not_false,
      List.filter_true, List.filter_false, List.map_nil, List.nil_append, List.map_map, List.map_id']
    exact (nodup_innerPaths written directory).filter _

end MemoryFiles

/-! ### On a disk -/

namespace DiskEntry

theorem nonemptySegments_trimmedEndOf (separator : Char) (text : String) :
    nonemptySegments separator (trimmedEndOf separator text) = nonemptySegments separator text := by
  simp only [nonemptySegments_eq, trimmedEndOf, String.toList_ofList, nonemptyParts_dropEndWhile]

theorem trimmedStartOf_of_isName {name : String} (isName : IsName name) :
    trimmedStartOf '/' name = name := by
  have keeps : ∀ c ∈ name.toList.head?, (c == '/') = false := by
    intro c isFirst
    apply beq_false_of_ne
    rintro rfl
    exact isName.free (List.mem_of_mem_head? isFirst)
  rw [trimmedStartOf, dropWhile_eq_self keeps, String.ofList_toList]

/-- A directory joined with a name has the names of both, except under a dot. -/
theorem nonemptySegments_join {directory name : String} (isName : IsName name)
    (noDot : nonemptySegments '/' directory ≠ ["."]) :
    nonemptySegments '/' (Path.join directory name) = nonemptySegments '/' directory ++ [name] := by
  have own : nonemptySegments '/' name = [name] := nonemptySegments_of_free isName.nonempty isName.free
  have given : ¬ name.isEmpty = true := by
    rw [String.isEmpty_iff]
    rintro rfl
    exact isName.nonempty rfl
  rw [← nonemptySegments_trimmedEndOf '/' directory] at noDot ⊢
  unfold Path.join
  dsimp only
  rw [trimmedStartOf_of_isName isName, if_neg given]
  generalize trimmedEndOf '/' directory = bare at noDot ⊢
  split
  · next isShort =>
    rw [Bool.or_eq_true, String.isEmpty_iff, beq_iff_eq] at isShort
    rcases isShort with rfl | rfl
    · exact own
    · exact absurd (by decide) noDot
  · rw [← own]
    exact nonemptySegments_append '/' bare name

/-- The entries of a directory have distinct names, which are names indeed. -/
theorem Proper.names_listing? {root : DiskEntry} (proper : root.Proper) (path : String) :
    (((root.listing? path).getD []).map Prod.fst).Nodup ∧
      ∀ entry ∈ (root.listing? path).getD [], IsName entry.1 := by
  cases isListed : root.listing? path with
  | none => exact ⟨.nil, nofun⟩
  | some entries =>
    cases proper.listing? isListed with
    | directory distinct named _ => exact ⟨distinct, named⟩

theorem filesBelow_toTree (root : DiskEntry) (outer : List IgnoreLevel) (options : Options) :
    (root.toTree outer options).filesBelow = root.filesBelow := by
  rw [toTree]

theorem children_toTree (root : DiskEntry) (outer : List IgnoreLevel) (options : Options) (path : String) :
    (root.toTree outer options).children path =
      DirectoryEntry.inOrder (((root.listing? path).getD []).map fun entry =>
        { name := entry.1, path := Path.join path entry.1, isDirectory := entry.2.isDirectory }) := by
  rw [toTree]

/-- **A directory on a disk** is listed by the rules. -/
theorem lists_toTree {root : DiskEntry} (proper : root.Proper) (outer : List IgnoreLevel)
    (options : Options) : (root.toTree outer options).Lists := by
  have ordered : ∀ (path : String) (test : DirectoryEntry → Bool),
      (((root.toTree outer options).children path).filter test).Pairwise
        fun left right => left.name < right.name := by
    intro path test
    rw [children_toTree]
    apply DirectoryEntry.pairwise_filter_inOrder
    apply (List.filter_sublist.map _).nodup
    rw [List.map_map]
    exact (proper.names_listing? path).1
  refine ⟨?_, fun path => ordered path _, fun path => ordered path _⟩
  intro directory entry isEntry noDot
  rw [children_toTree, (DirectoryEntry.inOrder_perm _).mem_iff] at isEntry
  obtain ⟨found, isFound, rfl⟩ := List.mem_map.mp isEntry
  dsimp only
  exact nonemptySegments_join ((proper.names_listing? directory).2 found isFound) noDot

end DiskEntry

/-- **Every project lists its directories by the rules**, when no path has an empty part. -/
theorem Tree.IsProject.lists {tree : Tree} (isProject : tree.IsProject) (plain : tree.PlainPaths) :
    tree.Lists := by
  cases isProject with
  | memory written => exact MemoryFiles.lists_toTree written plain
  | disk proper outer options => exact DiskEntry.lists_toTree proper outer options

end ArtifactIndex
