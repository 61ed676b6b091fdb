/-
**Listed files are files.**

What a project lists below a directory can be asked for by its path again. In memory the paths are those
under which the texts are kept; on a disk the names on a path are followed to the entry from which the path
was made.

* `DiskEntry.resolve_of_at?`, `DiskEntry.at?_of_resolve`: a row of names leads to the entry under it;
* `DiskEntry.Proper.exists_file_of_mem_rowsAt`: the ways below a directory lead to files;
* `DiskEntry.exists_row_of_mem_filesBelow`: a listed path is a row of names that leads to a file;
* `MemoryFiles.isFile_of_mem_filesBelow`, `DiskEntry.isFile_of_mem_filesBelow`: so it is the path of a file.
-/

import ArtifactIndex.Proofs.Tree.Directories

namespace ArtifactIndex

/-! ### In memory -/

namespace MemoryFiles

variable {files : MemoryFiles}

/-- Texts are kept under paths without slashes in front. -/
theorem Written.head?_ne_slash (written : files.Written) :
    ∀ path ∈ files.texts.keys, ∀ c ∈ path.toList.head?, (c == '/') = false := by
  induction written with
  | empty => nofun
  | write _ path text ih =>
    intro other isPath c isFirst
    obtain ⟨entry, isEntry, rfl⟩ := List.mem_map.mp isPath
    rcases Dict.mem_insertEntry isEntry with rfl | isOld
    · rw [trimmedStartOf, String.toList_ofList] at isFirst
      have fails := List.head?_dropWhile_not (· == '/') path.toList
      rw [isFirst] at fails
      simpa using fails
    · exact ih entry.1 (List.mem_map_of_mem isOld) c isFirst
  | remove _ path ih =>
    intro other isPath
    obtain ⟨entry, isEntry, rfl⟩ := List.mem_map.mp isPath
    exact ih entry.1 (List.mem_map_of_mem (List.mem_filter.mp isEntry).1)

/-- **Listed files in memory** are files. -/
theorem isFile_of_mem_filesBelow (written : files.Written) {directory file : String}
    (listed : file ∈ files.toTree.filesBelow directory) : files.toTree.isFile file = true := by
  have isPath : file ∈ files.texts.keys := (List.mem_filter.mp listed).1
  have bare : trimmedStartOf '/' file = file := by
    rw [trimmedStartOf, dropWhile_eq_self (written.head?_ne_slash file isPath), String.ofList_toList]
  obtain ⟨entry, isEntry, rfl⟩ := List.mem_map.mp isPath
  show (files.texts.entries.lookup (trimmedStartOf '/' entry.1)).isSome = true
  rw [bare, Option.isSome_iff_ne_none, Ne, List.lookup_eq_none_iff]
  intro absent
  simpa using absent entry isEntry

end MemoryFiles

/-! ### On a disk -/

namespace DiskEntry

variable {root entry : DiskEntry} {row : List String}

theorem at?_append (first second : List String) :
    root.at? (first ++ second) = (root.at? first).bind fun inner => inner.at? second := by
  induction first generalizing root with
  | nil => rfl
  | cons name rest ih =>
    rw [List.cons_append, at?, at?]
    cases root.entries.lookup name with
    | none => rfl
    | some inner => exact ih

/-- **A row of names** is followed to the entry under it, and from there further on. -/
theorem follow_append_of_at? {done names : List String} (rest : List String)
    (found : root.at? (done.reverse ++ names) = some entry) :
    root.follow (some done) (names ++ rest) = root.follow (some (names.reverse ++ done)) rest := by
  induction names generalizing done with
  | nil => rfl
  | cons name names ih =>
    obtain ⟨above, isAbove, below⟩ := Option.bind_eq_some_iff.mp (at?_append done.reverse _ ▸ found)
    rw [at?] at below
    split at below
    · next inner isInner =>
      cases above with
      | file bytes => cases isInner
      | directory entries =>
        have later : root.at? ((name :: done).reverse ++ names) = some entry := by
          rw [List.reverse_cons, List.append_assoc]
          exact found
        have isEntry : (entries.lookup name).isSome = true := Option.isSome_of_eq_some isInner
        rw [List.cons_append, follow, isAbove]
        dsimp only
        rw [if_pos isEntry, ih later, List.reverse_cons, List.append_assoc]
        rfl
    · cases below

/-- Names other than two dots lead down, as long as they lead anywhere. -/
theorem place_of_follow {done names : List String} {place : Option (List String)}
    (named : ∀ name ∈ names, IsName name) (noUp : ".." ∉ names)
    (followed : root.follow (some done) names = .ok place) : place = some (names.reverse ++ done) := by
  induction names generalizing done with
  | nil =>
    cases followed
    rfl
  | cons name rest ih =>
    obtain ⟨isName, restNamed⟩ := List.forall_mem_cons.mp named
    rw [List.mem_cons, not_or] at noUp
    have nonempty : name ≠ "" := by
      rintro rfl
      exact isName.nonempty rfl
    rw [follow] at followed
    split at followed
    · cases followed
    · cases followed
    · split at followed
      · rw [ih restNamed noUp.2 followed, List.reverse_cons, List.append_assoc]
        rfl
      · rw [if_neg (by simp [nonempty, isName.noStep]), if_neg (by simpa using Ne.symm noUp.1)] at followed
        cases followed

theorem trimmedStartOf_joinWith {row : List String} (given : row ≠ []) (named : ∀ name ∈ row, IsName name) :
    trimmedStartOf '/' (joinWith "/" row) = joinWith "/" row := by
  obtain ⟨first, rest, rfl⟩ := List.exists_cons_of_ne_nil given
  obtain ⟨isName, -⟩ := List.forall_mem_cons.mp named
  obtain ⟨c, behind, chars⟩ := List.exists_cons_of_ne_nil isName.nonempty
  have starts : (joinWith "/" (first :: rest)).toList.head? = some c := by
    cases rest with
    | nil => rw [joinWith_singleton, chars, List.head?_cons]
    | cons second rest => simp [joinWith_cons_cons, chars]
  rw [trimmedStartOf, dropWhile_eq_self, String.ofList_toList]
  rw [starts]
  rintro _ ⟨⟩
  apply beq_false_of_ne
  rintro rfl
  exact isName.free (chars ▸ List.mem_cons_self)

/-- A path made of names is followed along them. -/
theorem resolve_eq (given : row ≠ []) (named : ∀ name ∈ row, IsName name) :
    root.resolve (joinWith "/" row) =
      match root.follow (some []) row with
      | .error fault => .error (if hasChar (Char.ofNat 0) (joinWith "/" row) then .zeroByte else fault)
      | .ok none => .ok empty
      | .ok (some names) =>
        match root.at? names.reverse with
        | some entry => .ok entry
        | none => .error .notFound := by
  have steps : segments '/' (joinWith "/" row) = row :=
    segments_joinWith given fun name listed => (named name listed).free
  rw [resolve, trimmedStartOf_joinWith given named, locate, steps]
  cases root.follow (some []) row with
  | error fault => rfl
  | ok place => cases place <;> rfl

/-- **A row of names** leads to the entry under it. -/
theorem resolve_of_at? (given : row ≠ []) (named : ∀ name ∈ row, IsName name) (found : root.at? row = some entry) :
    root.resolve (joinWith "/" row) = .ok entry := by
  have followed : root.follow (some []) (row ++ []) = root.follow (some (row.reverse ++ [])) [] :=
    follow_append_of_at? [] found
  rw [List.append_nil, List.append_nil] at followed
  rw [resolve_eq given named, followed, follow]
  dsimp only
  rw [List.reverse_reverse, found]

/-- And to no other one, when the two dots that would lead up again are a name that is there. -/
theorem at?_of_resolve {first rest : List String} {above : DiskEntry} (named : ∀ name ∈ first ++ rest, IsName name)
    (given : first ++ rest ≠ []) (reached : root.at? first = some above) (noUp : ".." ∉ rest)
    (resolved : root.resolve (joinWith "/" (first ++ rest)) = .ok entry) : root.at? (first ++ rest) = some entry := by
  have followed : root.follow (some []) (first ++ rest) = root.follow (some (first.reverse ++ [])) rest :=
    follow_append_of_at? rest reached
  rw [resolve_eq given named, followed] at resolved
  split at resolved
  · cases resolved
  · next isOutside =>
    have place := place_of_follow (fun name listed => named name (List.mem_append_right _ listed)) noUp isOutside
    cases place
  · next names isPlace =>
    have place := place_of_follow (fun name listed => named name (List.mem_append_right _ listed)) noUp isPlace
    cases place
    split at resolved
    · next found =>
      cases resolved
      rwa [List.append_nil, List.reverse_append, List.reverse_reverse, List.reverse_reverse] at found
    · cases resolved

/-! ### Ways to files -/

theorem mem_rowsAmong {entries : List (String × DiskEntry)} (listed : row ∈ rowsAmong entries) :
    ∃ inner ∈ entries, row ∈ rowsAt inner.1 inner.2 := by
  induction entries with
  | nil =>
    rw [rowsAmong] at listed
    cases listed
  | cons first rest ih =>
    rw [rowsAmong, List.mem_append] at listed
    rcases listed with here | further
    · exact ⟨first, List.mem_cons_self, here⟩
    · obtain ⟨inner, isInner, isRow⟩ := ih further
      exact ⟨inner, List.mem_cons_of_mem _ isInner, isRow⟩

/-- What a directory with distinct names has under the name of one of its entries. -/
theorem lookup_of_mem {entries : List (String × DiskEntry)} (distinct : (entries.map Prod.fst).Nodup)
    {inner : String × DiskEntry} (isInner : inner ∈ entries) : entries.lookup inner.1 = some inner.2 := by
  obtain ⟨before, behind, rfl⟩ := List.append_of_mem isInner
  refine List.lookup_eq_some_iff.mpr ⟨before, behind, rfl, fun other isOther => ?_⟩
  rw [List.map_append, List.map_cons] at distinct
  have apart := (List.nodup_append.mp distinct).2.2 other.1 (List.mem_map_of_mem isOther) inner.1 List.mem_cons_self
  exact bne_iff_ne.mpr apart.symm

/-- **The ways at a proper entry** lead to files, behind the name of the entry. -/
theorem Proper.exists_file_of_mem_rowsAt (proper : entry.Proper) :
    ∀ name, ∀ row ∈ rowsAt name entry,
      ∃ inner bytes, row = name :: inner ∧ entry.at? inner = some (.file bytes) := by
  induction proper with
  | file bytes =>
    intro name row listed
    rw [rowsAt, List.mem_singleton] at listed
    exact ⟨[], bytes, listed, rfl⟩
  | @directory entries distinct named inside ih =>
    intro name row listed
    rw [rowsAt, List.mem_map] at listed
    obtain ⟨rest, isRest, rfl⟩ := listed
    obtain ⟨inner, isInner, isRow⟩ := mem_rowsAmong isRest
    obtain ⟨further, bytes, rfl, found⟩ := ih inner isInner inner.1 rest isRow
    refine ⟨_, bytes, rfl, ?_⟩
    have isEntry : (DiskEntry.directory entries).entries.lookup inner.1 = some inner.2 :=
      lookup_of_mem distinct isInner
    rw [DiskEntry.at?, isEntry]
    exact found

/-- **A path listed below a row of names** is a longer row, and leads to a file. -/
theorem exists_row_of_mem_filesBelow (proper : root.Proper) (given : row ≠ []) (named : ∀ name ∈ row, IsName name)
    (reaches : ∀ entry, root.resolve (joinWith "/" row) = .ok entry → root.at? row = some entry) {file : String}
    (listed : file ∈ root.filesBelow (joinWith "/" row)) :
    ∃ inner bytes, inner ≠ [] ∧ (∀ name ∈ row ++ inner, IsName name) ∧ file = joinWith "/" (row ++ inner) ∧
      root.at? (row ++ inner) = some (.file bytes) := by
  unfold filesBelow at listed
  split at listed
  · cases listed
  · next entries isListing =>
    have inside := proper.listing? isListing
    have paths := sublist_filesAmong "" entries
    simp only [String.empty_append] at paths
    obtain ⟨path, isPath, rfl⟩ := List.mem_map.mp ((mem_ascending _ _).mp listed)
    obtain ⟨inner, isRow, rfl⟩ := List.mem_map.mp (paths.subset isPath)
    have innerGiven := ne_nil_of_mem_rowsAmong isRow
    have allNamed : ∀ name ∈ row ++ inner, IsName name := by
      intro name isName
      rcases List.mem_append.mp isName with isOuter | isInner
      · exact named name isOuter
      · exact inside.nodup_rowsAmong.2 inner isRow name isInner
    have isDirectory : root.at? row = some (.directory entries) := by
      apply reaches
      unfold listing? at isListing
      split at isListing
      · next found =>
        cases isListing
        exact found
      · cases isListing
    obtain ⟨_, bytes, isInner, found⟩ := inside.exists_file_of_mem_rowsAt "" ("" :: inner) <| by
      rw [rowsAt]
      exact List.mem_map_of_mem isRow
    cases isInner
    refine ⟨inner, bytes, innerGiven, allNamed, ?_, ?_⟩
    · rw [trimmedStartOf_joinWith given named, ← joinWith_append "/" given innerGiven]
      exact normalize_of_pieces (nonemptySegments_of_row allNamed) (by simp [given]) allNamed
    · rw [at?_append, isDirectory]
      exact found

/-- **Files listed on a disk** are files. -/
theorem isFile_of_mem_filesBelow (proper : root.Proper) (outer : List IgnoreLevel) (options : Options)
    (given : row ≠ []) (named : ∀ name ∈ row, IsName name)
    (reaches : ∀ entry, root.resolve (joinWith "/" row) = .ok entry → root.at? row = some entry) {file : String}
    (listed : file ∈ root.filesBelow (joinWith "/" row)) : (root.toTree outer options).isFile file = true := by
  obtain ⟨inner, bytes, -, allNamed, rfl, found⟩ := exists_row_of_mem_filesBelow proper given named reaches listed
  have resolved := resolve_of_at? (by simp [given]) allNamed found
  rw [toTree]
  dsimp only
  rw [resolved]

end DiskEntry

end ArtifactIndex
