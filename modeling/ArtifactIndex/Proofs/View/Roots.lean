/-
**The roots of views.**

Templates are looked for below a few fixed directories and below one in each module. No file stands below two
of them, so a file tells its root, and with it the view that it holds.

* `Tree.ListsViews`: what a project says about the roots and the files below them;
* `Tree.IsProject.listsViews`: every project does, in memory and on a disk;
* `ViewRoot.eq_of_below`: two roots with a file in common are the same;
* `view_eq_of_file_eq`, `slash_not_mem_name`: the view of a file, and its name.
-/

import ArtifactIndex.Proofs.Tree.Files
import ArtifactIndex.View.Table

namespace ArtifactIndex

/-- **What roots of views need of a project.** -/
structure Tree.ListsViews (tree : Tree) : Prop where
  /-- A module's directory is named by one part of a path. -/
  modules : ∀ entry ∈ tree.childDirectories modulesDirectory,
    '/' ∉ entry.name.toList ∧ entry.path = modulesDirectory ++ "/" ++ entry.name
  below : ∀ root ∈ viewRoots tree, ∀ file ∈ tree.filesBelow root.directory,
    ∃ inner, file = root.directory ++ "/" ++ inner
  isFile : ∀ root ∈ viewRoots tree, ∀ file ∈ tree.filesBelow root.directory, tree.isFile file = true
  ascends : ∀ directory, (tree.filesBelow directory).Pairwise (· ≤ ·)

/-- A root is one of those in any project, or that of a module. -/
theorem mem_viewRoots {tree : Tree} {root : ViewRoot} (isRoot : root ∈ viewRoots tree) :
    root ∈ commonViewRoots ∨ ∃ entry ∈ tree.childDirectories modulesDirectory, root = moduleViewRoot entry := by
  rcases List.mem_append.mp (List.mem_filter.mp isRoot).1 with isCommon | isModule
  · exact .inl isCommon
  · obtain ⟨entry, isEntry, rfl⟩ := List.mem_map.mp isModule
    exact .inr ⟨entry, isEntry, rfl⟩

theorem moduleViewRoot_directory {entry : DirectoryEntry}
    (isNamed : entry.path = modulesDirectory ++ "/" ++ entry.name) :
    (moduleViewRoot entry).directory = joinWith "/" ["Modules", entry.name, "Resources", "views"] := by
  rw [← String.toList_inj]
  simp [moduleViewRoot, isNamed, modulesDirectory, joinWith_cons_cons, joinWith_singleton]

/-! ### In memory -/

namespace MemoryFiles

variable {files : MemoryFiles}

/-- A directory without slashes around it starts the paths below it. -/
theorem beginningOf_eq {directory : String} {first last : Char} (starts : directory.toList.head? = some first)
    (ends : directory.toList.getLast? = some last) (noSlash : first ≠ '/' ∧ last ≠ '/') (noDot : first ≠ '.') :
    beginningOf directory = directory ++ "/" := by
  have bare : trimmedOf '/' directory = directory := by
    have keptStart : directory.toList.dropWhile (· == '/') = directory.toList := by
      apply dropWhile_eq_self
      rw [starts]
      rintro c ⟨⟩
      exact beq_false_of_ne noSlash.1
    have keptEnd : dropEndWhile (· == '/') directory.toList = directory.toList := by
      apply dropEndWhile_eq_self
      rw [ends]
      rintro c ⟨⟩
      exact beq_false_of_ne noSlash.2
    rw [trimmedOf, trimmedEndOf, trimmedStartOf, String.toList_ofList, keptStart, keptEnd, String.ofList_toList]
  unfold beginningOf
  rw [bare]
  dsimp only
  rw [if_neg]
  rw [Bool.or_eq_true, String.isEmpty_iff, beq_iff_eq]
  rintro (rfl | rfl)
  · cases starts
  · cases starts
    exact noDot rfl

theorem filesBelow_toTree (directory : String) :
    files.toTree.filesBelow directory = files.texts.keys.filter (startsWith (beginningOf directory)) := rfl

theorem exists_inner_of_mem_filesBelow {directory file : String}
    (listed : file ∈ files.toTree.filesBelow directory) : ∃ inner, file = beginningOf directory ++ inner := by
  rw [filesBelow_toTree, List.mem_filter, startsWith, List.isPrefixOf_iff_prefix] at listed
  obtain ⟨-, inner, chars⟩ := listed
  refine ⟨String.ofList inner, ?_⟩
  rw [← String.toList_inj, String.toList_append, String.toList_ofList, chars]

theorem module_named {entry : DirectoryEntry} (isEntry : entry ∈ files.toTree.childDirectories modulesDirectory) :
    '/' ∉ entry.name.toList ∧ entry.path = modulesDirectory ++ "/" ++ entry.name := by
  obtain ⟨isChild, isDirectory⟩ := List.mem_filter.mp isEntry
  have isChild := (DirectoryEntry.inOrder_perm _).mem_iff.mp isChild
  rcases List.mem_append.mp isChild with isNamed | isFile
  · obtain ⟨name, isName, rfl⟩ := List.mem_map.mp isNamed
    rw [directoryNames, List.mem_eraseDups] at isName
    obtain ⟨inner, -, cut⟩ := List.mem_filterMap.mp isName
    obtain ⟨⟨_, rest⟩, found, rfl⟩ := Option.map_eq_some_iff.mp cut
    exact ⟨(splitFirst?_eq_some found).2, rfl⟩
  · obtain ⟨name, -, rfl⟩ := List.mem_map.mp isFile
    cases isDirectory

/-- The paths below a root of views start with the root. -/
theorem beginningOf_viewRoot {root : ViewRoot} (isRoot : root ∈ viewRoots files.toTree) :
    beginningOf root.directory = root.directory ++ "/" := by
  rcases mem_viewRoots isRoot with isCommon | ⟨entry, isEntry, rfl⟩
  · have all : ∀ root ∈ commonViewRoots, beginningOf root.directory = root.directory ++ "/" := by
      decide
    exact all root isCommon
  · have chars : (moduleViewRoot entry).directory.toList =
        'M' :: ("odules/" ++ entry.name ++ "/Resources/view").toList ++ ['s'] := by
      rw [moduleViewRoot_directory (module_named isEntry).2]
      simp [joinWith_cons_cons, joinWith_singleton]
    have starts : (moduleViewRoot entry).directory.toList.head? = some 'M' := by
      rw [chars]
      rfl
    have ends : (moduleViewRoot entry).directory.toList.getLast? = some 's' := by
      rw [chars, List.getLast?_concat]
    exact beginningOf_eq starts ends (by decide) (by decide)

/-- **Files in memory** stand below their roots. -/
theorem listsViews_toTree (written : files.Written) : files.toTree.ListsViews where
  modules := fun _ => module_named
  below := by
    intro root isRoot file listed
    rw [← beginningOf_viewRoot isRoot]
    exact exists_inner_of_mem_filesBelow listed
  isFile := fun _ _ _ => isFile_of_mem_filesBelow written
  ascends := fun _ => (List.pairwise_map.mpr (written.inOrder.imp le_of_lt)).filter _

end MemoryFiles

/-! ### On a disk -/

namespace DiskEntry

variable {root : DiskEntry} {outer : List IgnoreLevel} {options : Options}

theorem module_named (proper : root.Proper) {entry : DirectoryEntry}
    (isEntry : entry ∈ (root.toTree outer options).childDirectories modulesDirectory) :
    IsName entry.name ∧ entry.path = modulesDirectory ++ "/" ++ entry.name := by
  have isChild := (List.mem_filter.mp isEntry).1
  rw [children_toTree, (DirectoryEntry.inOrder_perm _).mem_iff] at isChild
  obtain ⟨found, isFound, rfl⟩ := List.mem_map.mp isChild
  have isName := (proper.names_listing? modulesDirectory).2 found isFound
  refine ⟨isName, ?_⟩
  have given : ¬ found.1.isEmpty = true := by
    rw [String.isEmpty_iff]
    intro empty
    exact isName.nonempty (by rw [empty, String.toList_empty])
  have bare : trimmedEndOf '/' modulesDirectory = modulesDirectory := by decide
  have noStep : ¬ (modulesDirectory.isEmpty || modulesDirectory == ".") = true := by decide
  dsimp only [Path.join]
  rw [trimmedStartOf_of_isName isName, bare, if_neg noStep, if_neg given]

/-- The directory of a module is the entry under its name, also when the name is two dots. -/
theorem exists_at?_module (proper : root.Proper) {entry : DirectoryEntry}
    (isEntry : entry ∈ (root.toTree outer options).childDirectories modulesDirectory) :
    ∃ inner, root.at? ["Modules", entry.name] = some inner := by
  have isModules : IsName "Modules" := ⟨by decide, by decide, by decide⟩
  have isChild := (List.mem_filter.mp isEntry).1
  rw [children_toTree, (DirectoryEntry.inOrder_perm _).mem_iff] at isChild
  obtain ⟨found, isFound, rfl⟩ := List.mem_map.mp isChild
  have distinct := (proper.names_listing? modulesDirectory).1
  cases isListed : root.listing? modulesDirectory with
  | none =>
    rw [isListed] at isFound
    cases isFound
  | some entries =>
    rw [isListed, Option.getD_some] at isFound distinct
    have named : ∀ name ∈ [] ++ ["Modules"], IsName name := by simp [isModules]
    have isDirectory : root.at? ["Modules"] = some (.directory entries) := by
      refine at?_of_resolve named (List.cons_ne_nil _ _) rfl (by decide) ?_
      unfold listing? at isListed
      split at isListed
      · next isResolved =>
        cases isListed
        exact isResolved
      · cases isListed
    refine ⟨found.2, ?_⟩
    have isInner : (DiskEntry.directory entries).entries.lookup found.1 = some found.2 := lookup_of_mem distinct isFound
    rw [show ["Modules", found.1] = ["Modules"] ++ [found.1] from rfl, at?_append, isDirectory, Option.bind_some,
      DiskEntry.at?, isInner]
    rfl

/-- The directory of a root of views is a row of names, and leads to the entry under it. -/
theorem exists_row_of_viewRoot (proper : root.Proper) {viewRoot : ViewRoot}
    (isRoot : viewRoot ∈ viewRoots (root.toTree outer options)) :
    ∃ row : List String, row ≠ [] ∧ (∀ name ∈ row, IsName name) ∧ viewRoot.directory = joinWith "/" row ∧
      ∀ entry, root.resolve (joinWith "/" row) = .ok entry → root.at? row = some entry := by
  have isResources : IsName "Resources" := ⟨by decide, by decide, by decide⟩
  have isViews : IsName "views" := ⟨by decide, by decide, by decide⟩
  rcases mem_viewRoots isRoot with isCommon | ⟨entry, isEntry, rfl⟩
  · have first : ∃ name, IsName name ∧ name ≠ ".." ∧ viewRoot.directory = joinWith "/" [name, "views"] := by
      simp only [commonViewRoots, List.mem_cons, List.not_mem_nil, or_false] at isCommon
      rcases isCommon with rfl | rfl | rfl
      · exact ⟨"resources", ⟨by decide, by decide, by decide⟩, by decide, by decide⟩
      · exact ⟨"app", ⟨by decide, by decide, by decide⟩, by decide, by decide⟩
      · exact ⟨"vendor", ⟨by decide, by decide, by decide⟩, by decide, by decide⟩
    obtain ⟨name, isName, noUp, same⟩ := first
    have named : ∀ part ∈ [] ++ [name, "views"], IsName part := by simp [isName, isViews]
    refine ⟨[name, "views"], List.cons_ne_nil _ _, named, same, fun entry resolved => ?_⟩
    exact at?_of_resolve named (List.cons_ne_nil _ _) rfl (by simp [Ne.symm noUp]) resolved
  · obtain ⟨isName, isNamed⟩ := module_named proper isEntry
    obtain ⟨inner, reached⟩ := exists_at?_module proper isEntry
    have isModules : IsName "Modules" := ⟨by decide, by decide, by decide⟩
    have named : ∀ part ∈ ["Modules", entry.name] ++ ["Resources", "views"], IsName part := by
      simp [isName, isViews, isResources, isModules]
    refine ⟨["Modules", entry.name, "Resources", "views"], List.cons_ne_nil _ _, named,
      moduleViewRoot_directory isNamed, fun entry resolved => ?_⟩
    exact at?_of_resolve named (List.cons_ne_nil _ _) reached (by decide) resolved

/-- **A directory on a disk** has the files of its roots below them. -/
theorem listsViews_toTree (proper : root.Proper) : (root.toTree outer options).ListsViews where
  modules := fun entry isEntry => ⟨(module_named proper isEntry).1.free, (module_named proper isEntry).2⟩
  below := by
    intro viewRoot isRoot file listed
    obtain ⟨row, given, named, isRow, reaches⟩ := exists_row_of_viewRoot proper isRoot
    rw [filesBelow_toTree, isRow] at listed
    obtain ⟨inner, -, innerGiven, -, rfl, -⟩ := exists_row_of_mem_filesBelow proper given named reaches listed
    exact ⟨joinWith "/" inner, by rw [isRow, joinWith_append "/" given innerGiven]⟩
  isFile := by
    intro viewRoot isRoot file listed
    obtain ⟨row, given, named, isRow, reaches⟩ := exists_row_of_viewRoot proper isRoot
    rw [filesBelow_toTree, isRow] at listed
    exact isFile_of_mem_filesBelow proper outer options given named reaches listed
  ascends := by
    intro directory
    rw [filesBelow_toTree, filesBelow]
    split
    · exact .nil
    · exact pairwise_ascending _

end DiskEntry

/-- **Every project** has the files of its roots below them. -/
theorem Tree.IsProject.listsViews {tree : Tree} (isProject : tree.IsProject) : tree.ListsViews := by
  cases isProject with
  | memory written => exact MemoryFiles.listsViews_toTree written
  | disk proper outer options => exact DiskEntry.listsViews_toTree proper

/-! ### Roots apart -/

/-- The first part of a path. -/
def firstPart? (path : String) : Option String := (splitFirst? '/' path).map Prod.fst

/-- A path below a directory starts as the directory does. -/
theorem firstPart?_append {directory area : String} (starts : firstPart? directory = some area) (inner : String) :
    firstPart? (directory ++ inner) = some area := by
  obtain ⟨⟨_, rest⟩, found, rfl⟩ := Option.map_eq_some_iff.mp starts
  obtain ⟨rfl, free⟩ := splitFirst?_eq_some found
  rw [String.append_assoc, firstPart?, splitFirst?_append free]
  rfl

/-- A path below the root of a module starts with the module's name, inside the directory of all modules. -/
theorem splitFirst?_module {entry : DirectoryEntry} (isNamed : entry.path = modulesDirectory ++ "/" ++ entry.name)
    (inner : String) :
    splitFirst? '/' ((moduleViewRoot entry).directory ++ inner) =
      some (modulesDirectory, entry.name ++ String.singleton '/' ++ ("Resources/views" ++ inner)) := by
  have free : '/' ∉ modulesDirectory.toList := by decide
  rw [← splitFirst?_append free]
  congr 1
  rw [← String.toList_inj]
  simp [moduleViewRoot, isNamed]

theorem firstPart?_module {entry : DirectoryEntry} (isNamed : entry.path = modulesDirectory ++ "/" ++ entry.name) :
    firstPart? (moduleViewRoot entry).directory = some modulesDirectory := by
  have cut := splitFirst?_module isNamed ""
  rw [String.append_empty] at cut
  rw [firstPart?, cut]
  rfl

/-- The common roots start with different parts, none of them that of the modules. -/
theorem commonViewRoots_apart :
    (∀ root ∈ commonViewRoots, ∃ area, firstPart? root.directory = some area ∧ area ≠ modulesDirectory) ∧
      ∀ left ∈ commonViewRoots, ∀ right ∈ commonViewRoots,
        firstPart? left.directory = firstPart? right.directory → left = right := by
  constructor
  · have parts : ∀ root ∈ commonViewRoots,
        ∃ area ∈ firstPart? root.directory, area ≠ modulesDirectory := by
      decide
    exact parts
  · decide

section Apart

variable {tree : Tree}

/-- **Two roots with a file in common are the same.** Their directories start with different parts, or are
those of modules with different names. -/
theorem ViewRoot.eq_of_below (lists : tree.ListsViews) {left right : ViewRoot} (isLeft : left ∈ viewRoots tree)
    (isRight : right ∈ viewRoots tree) {inLeft inRight : String}
    (same : left.directory ++ "/" ++ inLeft = right.directory ++ "/" ++ inRight) : left = right := by
  obtain ⟨ofCommon, apart⟩ := commonViewRoots_apart
  have sameArea : ∀ {area other : String}, firstPart? left.directory = some area →
      firstPart? right.directory = some other → area = other := by
    intro area other isArea isOther
    have starts := firstPart?_append isArea ("/" ++ inLeft)
    rw [← String.append_assoc, same, String.append_assoc, firstPart?_append isOther] at starts
    exact (Option.some_inj.mp starts).symm
  rcases mem_viewRoots isLeft with isCommon | ⟨entry, isEntry, rfl⟩ <;>
    rcases mem_viewRoots isRight with isOtherCommon | ⟨other, isOther, rfl⟩
  · obtain ⟨area, isArea, -⟩ := ofCommon left isCommon
    obtain ⟨otherArea, isOtherArea, -⟩ := ofCommon right isOtherCommon
    apply apart left isCommon right isOtherCommon
    rw [isArea, isOtherArea, sameArea isArea isOtherArea]
  · obtain ⟨area, isArea, noModule⟩ := ofCommon left isCommon
    exact absurd (sameArea isArea (firstPart?_module (lists.modules other isOther).2)) noModule
  · obtain ⟨area, isArea, noModule⟩ := ofCommon right isOtherCommon
    exact absurd (sameArea (firstPart?_module (lists.modules entry isEntry).2) isArea).symm noModule
  · obtain ⟨free, isNamed⟩ := lists.modules entry isEntry
    obtain ⟨otherFree, isOtherNamed⟩ := lists.modules other isOther
    have cut := congrArg (splitFirst? '/') same
    rw [String.append_assoc, String.append_assoc, splitFirst?_module isNamed, splitFirst?_module isOtherNamed,
      Option.some_inj, Prod.mk.injEq] at cut
    have names := congrArg (splitFirst? '/') cut.2
    rw [splitFirst?_append free, splitFirst?_append otherFree, Option.some_inj, Prod.mk.injEq] at names
    rw [moduleViewRoot, moduleViewRoot, isNamed, isOtherNamed, names.1]

/-! ### Views of files -/

/-- A view is found in a file below a root. -/
theorem mem_scanViews {view : View} :
    view ∈ (scanViews tree).1.views ↔
      ∃ root ∈ viewRoots tree, ∃ file ∈ tree.filesBelow root.directory, root.view? file = some view := by
  simp only [scanViews, List.mem_flatMap, List.mem_filterMap]

theorem ViewRoot.file_of_view? {root : ViewRoot} {file : String} {view : View}
    (isView : root.view? file = some view) : view.file = file := by
  unfold ViewRoot.view? at isView
  split at isView
  · cases isView
  · cases isView
    rfl

/-- **A file holds one view.** -/
theorem view_eq_of_file_eq (lists : tree.ListsViews) {left right : View}
    (isLeft : left ∈ (scanViews tree).1.views) (isRight : right ∈ (scanViews tree).1.views)
    (same : left.file = right.file) : left = right := by
  obtain ⟨root, isRoot, file, isFile, isView⟩ := mem_scanViews.mp isLeft
  obtain ⟨otherRoot, isOtherRoot, otherFile, isOtherFile, isOtherView⟩ := mem_scanViews.mp isRight
  rw [ViewRoot.file_of_view? isView, ViewRoot.file_of_view? isOtherView] at same
  subst same
  obtain ⟨inner, shape⟩ := lists.below root isRoot file isFile
  obtain ⟨otherInner, otherShape⟩ := lists.below otherRoot isOtherRoot file isOtherFile
  obtain rfl := ViewRoot.eq_of_below lists isRoot isOtherRoot (shape.symm.trans otherShape)
  rw [isView] at isOtherView
  exact Option.some_inj.mp isOtherView

/-- The names of all views of a root start with its lead. -/
def ViewRoot.nameOf (root : ViewRoot) (relative : String) : String :=
  if root.lead.isEmpty then View.nameOfPath relative else root.lead ++ "." ++ View.nameOfPath relative

/-- **The view in a file below a root**, when the file ends as a template does. -/
theorem ViewRoot.view?_eq_some_iff {root : ViewRoot} {inner : String} {view : View} :
    root.view? (root.directory ++ "/" ++ inner) = some view ↔
      Path.extension? (root.directory ++ "/" ++ inner) = some "php" ∧
        view = ⟨root.nameOf inner, inner, if endsWith templateEnding inner then "blade.php" else "php",
          root.directory ++ "/" ++ inner⟩ := by
  have relative : afterStart? (root.directory ++ "/") (root.directory ++ "/" ++ inner) = some inner :=
    afterStart?_eq_some_iff.mpr rfl
  unfold ViewRoot.view? ViewRoot.nameOf
  rw [relative]
  dsimp only [Option.getD_some]
  split
  · next noProgram =>
    have differ : Path.extension? (root.directory ++ "/" ++ inner) ≠ some "php" := by simpa using noProgram
    exact iff_of_false nofun fun both => differ both.1
  · next isProgram =>
    have same : Path.extension? (root.directory ++ "/" ++ inner) = some "php" := by simpa using isProgram
    rw [Option.some_inj, eq_comm]
    exact (and_iff_right same).symm

theorem slash_not_mem_lead (lists : tree.ListsViews) {root : ViewRoot} (isRoot : root ∈ viewRoots tree) :
    '/' ∉ root.lead.toList := by
  rcases mem_viewRoots isRoot with isCommon | ⟨entry, isEntry, rfl⟩
  · have all : ∀ root ∈ commonViewRoots, '/' ∉ root.lead.toList := by decide
    exact all root isCommon
  · simp [moduleViewRoot, (lists.modules entry isEntry).1]

/-- The name of a view is put together with dots only. -/
theorem slash_not_mem_name (lists : tree.ListsViews) {view : View} (isView : view ∈ (scanViews tree).1.views) :
    '/' ∉ view.name.toList := by
  obtain ⟨root, isRoot, file, isFile, isFound⟩ := mem_scanViews.mp isView
  obtain ⟨inner, rfl⟩ := lists.below root isRoot file isFile
  obtain ⟨-, rfl⟩ := ViewRoot.view?_eq_some_iff.mp isFound
  have ofPath : '/' ∉ (View.nameOfPath inner).toList :=
    not_mem_joinWith (by decide) fun piece listed => (of_mem_nonemptySegments listed).2
  dsimp only
  unfold ViewRoot.nameOf
  split
  · exact ofPath
  · simp [ofPath, slash_not_mem_lead lists isRoot]

/-- **The name of a view** is the one that the root above its file gives. -/
theorem name_of_file_below (lists : tree.ListsViews) {root : ViewRoot} (isRoot : root ∈ viewRoots tree)
    {view : View} (isView : view ∈ (scanViews tree).1.views) {inner : String}
    (stands : view.file = root.directory ++ "/" ++ inner) : view.name = root.nameOf inner := by
  obtain ⟨other, isOther, file, isFile, isFound⟩ := mem_scanViews.mp isView
  obtain ⟨otherInner, rfl⟩ := lists.below other isOther file isFile
  rw [ViewRoot.file_of_view? isFound] at stands
  obtain rfl := ViewRoot.eq_of_below lists isOther isRoot stands
  rw [String.append_right_inj] at stands
  obtain ⟨-, rfl⟩ := ViewRoot.view?_eq_some_iff.mp isFound
  rw [stands]

end Apart

end ArtifactIndex
