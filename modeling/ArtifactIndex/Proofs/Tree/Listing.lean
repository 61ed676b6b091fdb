/-
**Files are listed once.**

A project in memory keeps its texts under distinct paths. On a disk the names in a directory are
distinct, and a path can be taken apart into its names again. Either way no path comes twice among the
project's own files.

* `Tree.IsProject`: the trees of projects in memory and on a disk;
* `MemoryFiles.Written.inOrder`: the paths in memory stay in order, whatever is written and removed;
* `DiskEntry.Proper.nodup_rows`: the ways to the files below a directory are distinct;
* `Tree.IsProject.nodup_ownFiles`: the project's own files.
-/

import ArtifactIndex.Proofs.Ordered
import ArtifactIndex.Proofs.Text.Segments
import ArtifactIndex.Tree.Disk
import ArtifactIndex.Tree.Memory
import Mathlib.Data.List.Nodup
import Mathlib.Data.String.Basic

namespace ArtifactIndex

/-! ### In memory -/

namespace Dict

variable {α : Type} {dict : Dict α} {key : String} {value : α} {entries : List (String × α)}

/-- The keys ascend, so that none comes twice. -/
def InOrder (dict : Dict α) : Prop :=
  dict.entries.Pairwise fun left right => left.1 < right.1

theorem mem_insertEntry {entry : String × α} (listed : entry ∈ insertEntry key value entries) :
    entry = (key, value) ∨ entry ∈ entries := by
  fun_induction insertEntry key value entries with
  | case1 => exact .inl (List.mem_singleton.mp listed)
  | case2 => exact (List.mem_cons.mp listed).imp_right (List.mem_cons_of_mem _)
  | case3 => exact List.mem_cons.mp listed
  | case4 other old rest _ _ ih =>
    rcases List.mem_cons.mp listed with same | later
    · exact .inr (same ▸ List.mem_cons_self)
    · exact (ih later).imp_right (List.mem_cons_of_mem _)

theorem pairwise_insertEntry (inOrder : entries.Pairwise fun left right => left.1 < right.1) :
    (insertEntry key value entries).Pairwise fun left right => left.1 < right.1 := by
  fun_induction insertEntry key value entries with
  | case1 => exact List.pairwise_singleton ..
  | case2 => exact List.pairwise_cons.mpr (List.pairwise_cons.mp inOrder)
  | case3 other old rest _ below =>
    refine List.pairwise_cons.mpr ⟨fun entry listed => ?_, inOrder⟩
    rcases List.mem_cons.mp listed with rfl | later
    · exact below
    · exact below.trans ((List.pairwise_cons.mp inOrder).1 entry later)
  | case4 other old rest differ above ih =>
    obtain ⟨first, later⟩ := List.pairwise_cons.mp inOrder
    refine List.pairwise_cons.mpr ⟨fun entry listed => ?_, ih later⟩
    rcases mem_insertEntry listed with rfl | isOld
    · exact lt_of_le_of_ne (not_lt.mp above) (Ne.symm differ)
    · exact first entry isOld

theorem InOrder.nodup_keys (inOrder : dict.InOrder) : dict.keys.Nodup :=
  List.pairwise_map.mpr (inOrder.imp fun below => ne_of_lt below)

end Dict

/-- **Projects in memory**: files written and removed one after another. -/
inductive MemoryFiles.Written : MemoryFiles → Prop
  | empty : Written .empty
  | write {files : MemoryFiles} (earlier : Written files) (path text : String) :
      Written (files.write path text)
  | remove {files : MemoryFiles} (earlier : Written files) (path : String) : Written (files.remove path)

/-- Writing and removing leave the paths in order. -/
theorem MemoryFiles.Written.inOrder {files : MemoryFiles} (written : files.Written) :
    files.texts.InOrder := by
  induction written with
  | empty => exact List.Pairwise.nil
  | write _ path text ih => exact Dict.pairwise_insertEntry ih
  | remove _ path ih => exact List.Pairwise.filter _ ih

/-! ### On a disk -/

namespace DiskEntry

/-- A name that a directory can give to an entry. -/
structure IsName (name : String) : Prop where
  nonempty : name.toList ≠ []
  noStep : name ≠ "."
  free : '/' ∉ name.toList

/-- **Proper directories**: each entry has a name of its own, at any depth. -/
inductive Proper : DiskEntry → Prop
  | file (bytes : ByteArray) : Proper (.file bytes)
  | directory {entries : List (String × DiskEntry)} (distinct : (entries.map Prod.fst).Nodup)
      (named : ∀ entry ∈ entries, IsName entry.1) (inner : ∀ entry ∈ entries, Proper entry.2) :
      Proper (.directory entries)

mutual

/-- The names on the ways to the files at or below an entry. -/
def rowsAt (name : String) : DiskEntry → List (List String)
  | .file _ => [[name]]
  | .directory entries => (rowsAmong entries).map (name :: ·)

/-- The names on the ways to the files at or below some entries. -/
def rowsAmong : List (String × DiskEntry) → List (List String)
  | [] => []
  | (name, entry) :: rest => rowsAt name entry ++ rowsAmong rest

end

/-- A way starts with the name of the entry that it leads to or through. -/
theorem head?_of_mem_rowsAt {name : String} {entry : DiskEntry} {row : List String}
    (listed : row ∈ rowsAt name entry) : row.head? = some name := by
  cases entry with
  | file bytes =>
    rw [rowsAt, List.mem_singleton] at listed
    rw [listed]
    rfl
  | directory entries =>
    rw [rowsAt, List.mem_map] at listed
    obtain ⟨inner, -, rfl⟩ := listed
    rfl

theorem head?_of_mem_rowsAmong {entries : List (String × DiskEntry)} {row : List String}
    (listed : row ∈ rowsAmong entries) : ∃ name ∈ entries.map Prod.fst, row.head? = some name := by
  induction entries with
  | nil =>
    rw [rowsAmong] at listed
    cases listed
  | cons entry rest ih =>
    rw [rowsAmong, List.mem_append] at listed
    rcases listed with here | further
    · exact ⟨entry.1, List.mem_cons_self, head?_of_mem_rowsAt here⟩
    · obtain ⟨name, isName, same⟩ := ih further
      exact ⟨name, List.mem_cons_of_mem _ isName, same⟩

theorem ne_nil_of_mem_rowsAmong {entries : List (String × DiskEntry)} {row : List String}
    (listed : row ∈ rowsAmong entries) : row ≠ [] := by
  obtain ⟨name, -, same⟩ := head?_of_mem_rowsAmong listed
  rintro rfl
  cases same

/-- What holds of the ways below each of some entries, whose names are distinct, holds of all of them:
they are distinct, and they lead through names. -/
theorem rowsAmong_of_rowsAt {entries : List (String × DiskEntry)}
    (distinct : (entries.map Prod.fst).Nodup)
    (below : ∀ entry ∈ entries, (rowsAt entry.1 entry.2).Nodup ∧
      ∀ row ∈ rowsAt entry.1 entry.2, ∀ name ∈ row, IsName name) :
    (rowsAmong entries).Nodup ∧ ∀ row ∈ rowsAmong entries, ∀ name ∈ row, IsName name := by
  induction entries with
  | nil =>
    rw [rowsAmong]
    exact ⟨.nil, nofun⟩
  | cons entry rest ih =>
    obtain ⟨fresh, distinct⟩ := List.nodup_cons.mp distinct
    obtain ⟨hereDistinct, hereNamed⟩ := below entry List.mem_cons_self
    obtain ⟨laterDistinct, laterNamed⟩ :=
      ih distinct fun other later => below other (List.mem_cons_of_mem _ later)
    rw [rowsAmong]
    constructor
    · refine List.nodup_append.mpr ⟨hereDistinct, laterDistinct, fun row here other later same => ?_⟩
      obtain ⟨name, isName, first⟩ := head?_of_mem_rowsAmong later
      rw [← same, head?_of_mem_rowsAt here] at first
      cases first
      exact fresh isName
    · intro row listed
      rcases List.mem_append.mp listed with here | later
      · exact hereNamed row here
      · exact laterNamed row later

/-- **The ways below a proper entry** are distinct, and lead through names. -/
theorem Proper.nodup_rows {entry : DiskEntry} (proper : entry.Proper) :
    ∀ name, IsName name →
      (rowsAt name entry).Nodup ∧ ∀ row ∈ rowsAt name entry, ∀ part ∈ row, IsName part := by
  induction proper with
  | file bytes =>
    intro name isName
    rw [rowsAt]
    refine ⟨List.nodup_singleton _, fun row listed part isPart => ?_⟩
    rw [List.mem_singleton.mp listed, List.mem_singleton] at isPart
    rw [isPart]
    exact isName
  | directory distinct named inner ih =>
    -- The name in front is the same for all ways, so they differ behind it.
    intro name isName
    obtain ⟨apart, allNames⟩ :=
      rowsAmong_of_rowsAt distinct fun other listed => ih other listed other.1 (named other listed)
    rw [rowsAt]
    refine ⟨List.Nodup.map (List.cons_injective) apart, fun row listed part isPart => ?_⟩
    obtain ⟨rest, isRest, rfl⟩ := List.mem_map.mp listed
    rcases List.mem_cons.mp isPart with rfl | inRest
    · exact isName
    · exact allNames rest isRest part inRest

theorem Proper.nodup_rowsAmong {entries : List (String × DiskEntry)}
    (proper : (DiskEntry.directory entries).Proper) :
    (rowsAmong entries).Nodup ∧ ∀ row ∈ rowsAmong entries, ∀ name ∈ row, IsName name := by
  cases proper with
  | directory distinct named inner =>
    exact rowsAmong_of_rowsAt distinct fun entry listed =>
      (inner entry listed).nodup_rows entry.1 (named entry listed)

/-! ### From names to paths -/

theorem nonemptySegments_of_row {row : List String} (named : ∀ name ∈ row, IsName name) :
    nonemptySegments '/' (joinWith "/" row) = row := by
  rw [show "/" = String.singleton '/' from rfl, nonemptySegments_joinWith]
  exact flatMap_nonemptySegments '/' fun name listed =>
    ⟨(named name listed).nonempty, (named name listed).free⟩

/-- The names on a path are its pieces, without the steps that stay. -/
theorem entryNames_components (path : String) :
    Path.entryNames (Path.components path) = (nonemptySegments '/' path).filter (· != ".") := by
  have names : ∀ pieces : List String, Path.entryNames (pieces.map Path.Component.entry) = pieces := by
    intro pieces
    rw [Path.entryNames, List.filterMap_map]
    exact List.filterMap_some
  have kept : (segments '/' path).filter (fun piece => piece != "" && piece != ".") =
      (nonemptySegments '/' path).filter (· != ".") := by
    rw [nonemptySegments, List.filter_filter]
    refine List.filter_congr fun piece _ => ?_
    have isEmpty : piece.isEmpty = (piece == "") := by
      rw [Bool.eq_iff_iff, String.isEmpty_iff, beq_iff_eq]
    rw [isEmpty, Bool.and_comm]
    rfl
  unfold Path.components
  dsimp only
  rw [kept]
  split
  · exact names _
  · exact names _
  · exact names _

/-- A path whose pieces are names is these names joined, in its relative form. -/
theorem normalize_of_pieces {path : String} {row : List String} (pieces : nonemptySegments '/' path = row)
    (given : row ≠ []) (named : ∀ name ∈ row, IsName name) : Path.normalize path = joinWith "/" row := by
  have names : Path.entryNames (Path.components path) = row := by
    rw [entryNames_components, pieces, List.filter_eq_self]
    intro name listed
    exact bne_iff_ne.mpr (named name listed).noStep
  unfold Path.normalize Path.ofComponents
  rw [names]
  split
  · exact absurd rfl given
  · rfl

/-- The path of a way is in its relative form, also behind a slash. -/
theorem normalize_of_row {row : List String} (given : row ≠ []) (named : ∀ name ∈ row, IsName name) :
    Path.normalize ("/" ++ joinWith "/" row) = joinWith "/" row := by
  have pieces : nonemptySegments '/' ("/" ++ joinWith "/" row) = row := by
    have behind := nonemptySegments_append '/' "" (joinWith "/" row)
    rw [nonemptySegments_empty, List.nil_append, nonemptySegments_of_row named] at behind
    exact behind
  exact normalize_of_pieces pieces given named

/-! ### Listed files -/

/-- The path behind a lead and the path below one of its directories. -/
theorem map_lead_rowsAt (lead name : String) (entries : List (String × DiskEntry)) :
    (rowsAt name (.directory entries)).map (fun row => lead ++ joinWith "/" row) =
      (rowsAmong entries).map fun row => lead ++ name ++ "/" ++ joinWith "/" row := by
  rw [rowsAt, List.map_map]
  refine List.map_congr_left fun row listed => ?_
  obtain ⟨first, rest, rfl⟩ := List.exists_cons_of_ne_nil (ne_nil_of_mem_rowsAmong listed)
  rw [Function.comp_apply, joinWith_cons_cons]
  simp only [String.append_assoc]

mutual

theorem sublist_filesAt (lead name : String) (entry : DiskEntry) :
    (filesAt lead name entry).Sublist ((rowsAt name entry).map fun row => lead ++ joinWith "/" row) := by
  match entry with
  | .file bytes =>
    rw [filesAt, rowsAt, List.map_singleton, joinWith_singleton]
  | .directory entries =>
    rw [filesAt, map_lead_rowsAt]
    split
    · exact List.nil_sublist _
    · exact sublist_filesAmong _ entries

theorem sublist_filesAmong (lead : String) (entries : List (String × DiskEntry)) :
    (filesAmong lead entries).Sublist ((rowsAmong entries).map fun row => lead ++ joinWith "/" row) := by
  match entries with
  | [] =>
    rw [filesAmong]
    exact List.nil_sublist _
  | (name, entry) :: rest =>
    rw [filesAmong, rowsAmong, List.map_append]
    exact (sublist_filesAt lead name entry).append (sublist_filesAmong lead rest)

end

mutual

theorem sublist_ownFilesAt (excluded : List String) (levels : List IgnoreLevel) (lead name : String)
    (entry : DiskEntry) :
    (ownFilesAt excluded levels lead name entry).Sublist
      ((rowsAt name entry).map fun row => lead ++ joinWith "/" row) := by
  match entry with
  | .file bytes =>
    rw [ownFilesAt, rowsAt, List.map_singleton, joinWith_singleton]
    split
    · exact List.nil_sublist _
    · exact .refl _
  | .directory entries =>
    rw [ownFilesAt, map_lead_rowsAt]
    split
    · exact List.nil_sublist _
    · exact sublist_ownFilesAmong excluded _ _ entries

theorem sublist_ownFilesAmong (excluded : List String) (levels : List IgnoreLevel) (lead : String)
    (entries : List (String × DiskEntry)) :
    (ownFilesAmong excluded levels lead entries).Sublist
      ((rowsAmong entries).map fun row => lead ++ joinWith "/" row) := by
  match entries with
  | [] =>
    rw [ownFilesAmong]
    exact List.nil_sublist _
  | (name, entry) :: rest =>
    rw [ownFilesAmong, rowsAmong, List.map_append]
    exact (sublist_ownFilesAt excluded levels lead name entry).append
      (sublist_ownFilesAmong excluded levels lead rest)

end

/-- The paths of distinct ways are distinct, since a path gives back its names. -/
theorem Proper.nodup_paths {entries : List (String × DiskEntry)}
    (proper : (DiskEntry.directory entries).Proper) :
    ((rowsAmong entries).map (joinWith "/")).Nodup := by
  obtain ⟨distinct, named⟩ := proper.nodup_rowsAmong
  refine List.Nodup.map_on (fun left isLeft right isRight same => ?_) distinct
  rw [← nonemptySegments_of_row (named left isLeft), same, nonemptySegments_of_row (named right isRight)]

/-- What a path leads to inside a proper entry is proper. -/
theorem Proper.at? {root entry : DiskEntry} (proper : root.Proper) {names : List String}
    (found : root.at? names = some entry) : entry.Proper := by
  induction names generalizing root with
  | nil =>
    cases found
    exact proper
  | cons name rest ih =>
    rw [DiskEntry.at?] at found
    split at found
    · next inner isInner =>
      refine ih ?_ found
      cases proper with
      | file bytes => cases isInner
      | directory _ _ inside =>
        obtain ⟨before, behind, rfl, -⟩ := List.lookup_eq_some_iff.mp isInner
        exact inside (name, inner) (List.mem_append_right _ List.mem_cons_self)
    · cases found

theorem Proper.listing? {root : DiskEntry} (proper : root.Proper) {path : String}
    {entries : List (String × DiskEntry)} (listed : root.listing? path = some entries) :
    (DiskEntry.directory entries).Proper := by
  have resolved : root.resolve path = .ok (.directory entries) := by
    unfold DiskEntry.listing? at listed
    split at listed
    · next found =>
      cases listed
      exact found
    · cases listed
  unfold DiskEntry.resolve at resolved
  split at resolved
  · cases resolved
  · cases resolved
    exact .directory List.nodup_nil nofun nofun
  · split at resolved
    · next found =>
      cases resolved
      exact proper.at? found
    · cases resolved

/-- **The files below a project's root** are listed once. Their paths are in relative form already. -/
theorem Proper.nodup_filesBelow {root : DiskEntry} (proper : root.Proper) :
    (root.filesBelow "").Nodup := by
  unfold filesBelow
  split
  · exact List.nodup_nil
  · next entries listed =>
    have inside := proper.listing? listed
    have paths := sublist_filesAmong "" entries
    simp only [String.empty_append] at paths
    have relative : ∀ path ∈ filesAmong "" entries, Path.normalize ("/" ++ path) = path := by
      intro path isListed
      obtain ⟨row, isRow, rfl⟩ := List.mem_map.mp (paths.subset isListed)
      exact normalize_of_row (ne_nil_of_mem_rowsAmong isRow) (inside.nodup_rowsAmong.2 row isRow)
    rw [show trimmedStartOf '/' "" ++ "/" = "/" from rfl, List.map_congr_left relative, List.map_id']
    exact (sortBy_perm _).nodup_iff.mpr (paths.nodup inside.nodup_paths)

/-- **The project's own files** are listed once, with and without rules that leave files out. -/
theorem Proper.nodup_ownFiles {root : DiskEntry} (proper : root.Proper) (outer : List IgnoreLevel)
    (options : Options) : (root.ownFiles outer options).Nodup := by
  unfold ownFiles
  split
  · exact proper.nodup_filesBelow.filter _
  · have inside : (DiskEntry.directory root.entries).Proper := by
      cases proper with
      | file bytes => exact .directory List.nodup_nil nofun nofun
      | directory distinct named inner => exact .directory distinct named inner
    have paths := sublist_ownFilesAmong options.excludedDirectories (⟨rulesOf root.entries, ""⟩ :: outer)
      "" root.entries
    simp only [String.empty_append] at paths
    exact (sortBy_perm _).nodup_iff.mpr (paths.nodup inside.nodup_paths)

end DiskEntry

/-! ### Projects -/

/-- **The trees of projects**, in memory and on a disk. -/
inductive Tree.IsProject : Tree → Prop
  | memory {files : MemoryFiles} (written : files.Written) : IsProject files.toTree
  | disk {root : DiskEntry} (proper : root.Proper) (outer : List IgnoreLevel) (options : Options) :
      IsProject (root.toTree outer options)

/-- **The own files of a project** are listed once. -/
theorem Tree.IsProject.nodup_ownFiles {tree : Tree} (isProject : tree.IsProject) :
    tree.ownFiles.Nodup := by
  cases isProject with
  | memory written => exact written.inOrder.nodup_keys.filter _
  | disk proper outer options => exact proper.nodup_ownFiles outer options

end ArtifactIndex
