/-
**Translations of a file stand in their order.**

A scan of a language file yields its translations as they stand in the file: the texts of an array at the
places of their keys, arrays inside it at the places of theirs; pairs of a flat file at their own places.
Read strictly, a flat file gives each key once.

* `Ascends`: offsets in ascending order between two others;
* `ascends_leavesOf`, `ascends_pairsFrom`: the texts of arrays, and the pairs of a flat file;
* `LanguageFile.Declares`: what a file declares, stated without the scan;
* `mem_scanLanguageFile`, `pairwise_scanLanguageFile`: the scan finds just that, and for each key in the
  order of the file.
-/

import ArtifactIndex.Proofs.Code.Source
import ArtifactIndex.Proofs.Json.Members
import ArtifactIndex.Proofs.Route.Chains
import ArtifactIndex.Proofs.Translation.Entries

namespace ArtifactIndex

/-- **Offsets in ascending order**, none before the first bound and all before the second. -/
structure Ascends (lo hi : Nat) (offsets : List Nat) : Prop where
  pairwise : offsets.Pairwise (· < ·)
  bounds : ∀ offset ∈ offsets, lo ≤ offset ∧ offset < hi

namespace Ascends

variable {lo mid hi : Nat} {first second : List Nat}

theorem nil : Ascends lo hi [] := ⟨.nil, nofun⟩

theorem singleton (ordered : lo < hi) : Ascends lo hi [lo] := by
  refine ⟨List.pairwise_singleton .., fun offset listed => ?_⟩
  rw [List.mem_singleton.mp listed]
  exact ⟨Nat.le_refl _, ordered⟩

theorem mono {lo' hi' : Nat} (ascends : Ascends lo hi first) (below : lo' ≤ lo) (above : hi ≤ hi') :
    Ascends lo' hi' first := by
  refine ⟨ascends.pairwise, fun offset listed => ?_⟩
  have := ascends.bounds offset listed
  omega

theorem append (ascends : Ascends lo mid first) (further : Ascends mid hi second) (below : lo ≤ mid)
    (above : mid ≤ hi) : Ascends lo hi (first ++ second) := by
  constructor
  · refine List.pairwise_append.mpr ⟨ascends.pairwise, further.pairwise, fun left isLeft right isRight => ?_⟩
    have := (ascends.bounds left isLeft).2
    have := (further.bounds right isRight).1
    omega
  · intro offset listed
    rcases List.mem_append.mp listed with isFirst | isSecond
    · exact (ascends.mono (Nat.le_refl _) above).bounds offset isFirst
    · exact (further.mono below (Nat.le_refl _)).bounds offset isSecond

end Ascends

/-! ### Arrays -/

open Node (Row ReadFrom)

/-- The texts that an entry of an array gives. -/
def entryLeaves (outer : String) (entry : ArrayEntry) : List Leaf :=
  match entry.key with
  | none => []
  | some keyNode =>
    match keyNode.literal? with
    | none => []
    | some key =>
      let path := dottedPath outer key
      if entry.value.isArray then leavesOf path entry.value
      else [{ path, span := keyNode.span, value := leafValue entry.value }]

theorem leavesOf_eq (outer : String) (array : Node) :
    leavesOf outer array = array.arrayEntries.flatMap (entryLeaves outer) := by
  rw [leavesOf]
  conv => rhs; rw [← List.attach_map_subtype_val array.arrayEntries, List.flatMap_map]
  rfl

/-- What each of some nodes gives in its own range, all of them give in theirs. -/
theorem Ascends.flatMap_row {holds : Node → Prop} {lo hi : Nat} {nodes : List Node}
    {offsets : Node → List Nat} (row : Row holds lo hi nodes)
    (each : ∀ node ∈ nodes, ∀ lo hi, Row holds lo hi [node] → Ascends lo hi (offsets node)) :
    Ascends lo hi (nodes.flatMap offsets) := by
  induction row with
  | nil _ => exact .nil
  | cons behind held inner later _ ih =>
    rw [List.flatMap_cons]
    have here := each _ List.mem_cons_self _ _
      (Row.cons_iff.mpr ⟨behind, held, inner, .nil (Nat.le_refl _)⟩)
    have := inner.le
    refine here.append (ih fun node listed => each node (List.mem_cons_of_mem _ listed)) ?_ later.le
    simp only [Node.span]
    omega

/-- A literal with a value takes up room, its quotes at least. -/
theorem lt_of_literal? {source value : String} {lo hi : Nat} {node : Node}
    (row : Row (ReadFrom source) lo hi [node]) (found : node.literal? = some value) :
    node.span.start < node.span.stop := by
  apply Route.lt_of_text_ne row
  intro isEmpty
  have hasValue := (Node.bare_of_literal? found).2.2
  rw [isEmpty] at hasValue
  cases hasValue

/-- The texts of an element stand at its key, or in its value when that is an array. -/
theorem ascends_element {source outer : String} {lo hi : Nat} {element : Node}
    (row : Row (ReadFrom source) lo hi [element])
    (inner : ∀ value ∈ element.children, ∀ outer lo hi, Row (ReadFrom source) lo hi [value] →
      Ascends lo hi ((leavesOf outer value).map (·.span.start))) :
    Ascends lo hi (((Node.entry? element).toList.flatMap (entryLeaves outer)).map (·.span.start)) := by
  unfold Node.entry?
  split
  · exact .nil
  · exact .nil
  · next keyNode value rest shape =>
    have children := row.children
    rw [shape] at children
    obtain ⟨behind, read, ofKey, later⟩ := Row.cons_iff.mp children
    have keyRow : Row (ReadFrom source) keyNode.span.start keyNode.span.stop [keyNode] :=
      (Row.cons_iff.mpr ⟨behind, read, ofKey, later.sublist (List.nil_sublist _)⟩ : Row _ lo hi _).own
    have valueRow : Row (ReadFrom source) keyNode.span.stop hi [value] := later.of_mem List.mem_cons_self
    rw [Option.toList_some, List.flatMap_singleton, entryLeaves]
    dsimp only
    split
    · exact .nil
    · next key isKey =>
      have room := lt_of_literal? keyRow isKey
      split
      · have isChild : value ∈ element.children := by
          rw [shape]
          exact List.mem_cons_of_mem _ List.mem_cons_self
        exact (inner value isChild _ _ _ valueRow).mono (by omega) (Nat.le_refl _)
      · exact (Ascends.singleton room).mono behind later.le

/-- **The texts of an array** stand at the places of their keys, in ascending order. -/
theorem ascends_leavesOf {source : String} {lo hi : Nat} (outer : String) (array : Node)
    (row : Row (ReadFrom source) lo hi [array]) :
    Ascends lo hi ((leavesOf outer array).map (·.span.start)) := by
  rw [leavesOf_eq, Node.arrayEntries]
  split
  · rw [List.filterMap_eq_flatMap_toList, List.flatMap_assoc, List.map_flatMap]
    apply Ascends.flatMap_row (row.children.sublist List.filter_sublist)
    intro element isElement lo hi row
    have inArray := Node.nodeCount_lt_of_mem_children (List.mem_filter.mp isElement).1
    apply ascends_element row
    intro value isChild outer lo hi row
    have inElement := Node.nodeCount_lt_of_mem_children isChild
    exact ascends_leavesOf outer value row
  · exact .nil
termination_by array.nodeCount

/-- The array that a program returns stands in its tree. -/
theorem row_returnedArray? {source : String} {root array : Node} (isTree : root.IsTreeOf source)
    (returned : root.returnedArray? = some array) : Row (ReadFrom source) 0 (byteLength source) [array] := by
  obtain ⟨statement, isStatement, found⟩ := List.exists_of_findSome?_eq_some returned
  rw [Option.ite_none_right_eq_some] at found
  exact (isTree.row.of_mem isStatement).children.of_mem (List.mem_of_find?_eq_some found.2)

/-! ### Flat files -/

namespace FlatEntry

/-- Where the entry stands; at the start of the file when its place is not known. -/
def start (entry : FlatEntry) : Nat := (entry.span.map (·.start)).getD 0

/-- **The pairs of a flat file** stand in ascending order. -/
theorem ascends_pairsFrom (offset : Nat) (chars : List Char) :
    Ascends offset (offset + byteCount chars) ((pairsFrom offset chars).map start) := by
  fun_induction pairsFrom offset chars with
  | case1 => exact .nil
  | case2 offset c rest _ ih =>
    refine ih.mono (Nat.le_add_right _ _) ?_
    rw [byteCount_cons]
    omega
  | case3 offset c rest key value behind found taken ih =>
    have nonempty : (c :: rest).take taken ≠ [] := by
      rw [Ne, List.take_eq_nil_iff]
      have : 1 ≤ taken := Nat.le_max_left ..
      simp only [List.cons_ne_nil, or_false]
      omega
    have room := byteCount_pos nonempty
    have total : byteCount (c :: rest) =
        byteCount ((c :: rest).take taken) + byteCount ((c :: rest).drop taken) := by
      rw [← byteCount_append, List.take_append_drop]
    have here : Ascends offset (offset + byteCount ((c :: rest).take taken)) [offset] :=
      .singleton (by omega)
    apply here.append _ (by omega) (by omega : _ ≤ offset + byteCount (c :: rest))
    exact ih.mono (Nat.le_refl _) (by omega)

/-- The keys of a file that is read strictly are distinct. -/
theorem pairwise_ofObject? {text : String} {entries : List FlatEntry}
    (isRead : ofObject? text = some entries) :
    entries.Pairwise fun left right => left.key ≠ right.key := by
  unfold ofObject? at isRead
  split at isRead
  · cases isRead
  · next members isObject =>
    cases isRead
    refine List.pairwise_filterMap.mpr ((Json.pairwise_of_parse isObject).imp ?_)
    rintro ⟨name, value⟩ ⟨other, otherValue⟩ below left isLeft right isRight
    dsimp only at below isLeft isRight
    split at isLeft
    · split at isRight
      · cases isLeft
        cases isRight
        exact ne_of_lt below
      · cases isRight
    · cases isLeft
  · cases isRead
    exact .nil

/-- **The entries of a file under one key** stand in ascending order. -/
theorem pairwise_filter_read? {strict : Bool} {text : String} {entries : List FlatEntry}
    (isRead : read? strict text = some entries) (key : String) :
    (entries.filter (·.key == key)).Pairwise fun left right => left.start < right.start := by
  unfold read? at isRead
  split at isRead
  · -- There is one such entry at most.
    refine ((pairwise_ofObject? isRead).filter _).imp_of_mem fun isLeft isRight differ => ?_
    have left := beq_iff_eq.mp (List.mem_filter.mp isLeft).2
    have right := beq_iff_eq.mp (List.mem_filter.mp isRight).2
    exact absurd (left.trans right.symm) differ
  · cases isRead
    exact (List.pairwise_map.mp (ascends_pairsFrom 0 text.toList).pairwise).filter _

end FlatEntry

/-! ### Language files -/

/-- **What a language file declares:** a text under keys of the array that a program returns, or a pair of
a flat file. -/
inductive LanguageFile.Declares (tree : Tree) (strict : Bool) (file : LanguageFile) :
    TranslationRecord → Prop
  | text {source : String} {array : Node} {keys : List String} {leaf : Leaf}
      (isProgram : file.format = .program) (isRead : tree.read file.path = .ok source)
      (returned : (Node.ofSource source).returnedArray? = some array) (under : leaf.Under "" array keys) :
      file.Declares tree strict
        { key := dottedPath (stemOf file.path) leaf.path, locale := file.locale, file := file.path
          value := leaf.value, declaration := (Origin.ofText file.path source).site leaf.span }
  | pair {source : String} {entries : List FlatEntry} {entry : FlatEntry} (isFlat : file.format = .flat)
      (isRead : tree.read file.path = .ok source) (pairs : FlatEntry.read? strict source = some entries)
      (listed : entry ∈ entries) :
      file.Declares tree strict
        { key := entry.key, locale := file.locale, file := file.path, value := entry.value
          declaration :=
            (entry.span.map (Origin.ofText file.path source).site).getD (Site.ofFile file.path) }

section Files

variable {tree : Tree} {strict : Bool} {file : LanguageFile} {record : TranslationRecord}

/-- What a scan of a file finds, by what is read of it. -/
theorem scanLanguageFile_eq : (scanLanguageFile tree strict file).1 =
    match tree.read file.path, file.format with
    | .error _, _ => []
    | .ok source, .program => programTranslations file source
    | .ok source, .flat => (flatTranslations? strict file source).getD [] := by
  unfold scanLanguageFile Tree.scan
  cases tree.read file.path with
  | error error => rfl
  | ok source =>
    cases file.format with
    | program => rfl
    | flat =>
      dsimp only
      cases flatTranslations? strict file source with
      | none => rfl
      | some records => rfl

/-- **The scan of a file** finds what the file declares. -/
theorem mem_scanLanguageFile :
    record ∈ (scanLanguageFile tree strict file).1 ↔ file.Declares tree strict record := by
  rw [scanLanguageFile_eq]
  constructor
  · intro listed
    split at listed
    · cases listed
    · next source isRead isProgram =>
      unfold programTranslations at listed
      split at listed
      · cases listed
      · next array returned =>
        obtain ⟨leaf, isLeaf, rfl⟩ := List.mem_map.mp listed
        obtain ⟨keys, under⟩ := mem_leavesOf_iff.mp isLeaf
        exact .text isProgram isRead returned under
    · next source isRead isFlat =>
      unfold flatTranslations? at listed
      cases pairs : FlatEntry.read? strict source with
      | none =>
        rw [pairs] at listed
        cases listed
      | some entries =>
        rw [pairs] at listed
        obtain ⟨entry, isEntry, rfl⟩ := List.mem_map.mp listed
        exact .pair isFlat isRead pairs isEntry
  · rintro (⟨isProgram, isRead, returned, under⟩ | ⟨isFlat, isRead, pairs, listed⟩)
    · rw [isRead, isProgram]
      dsimp only
      rw [programTranslations, returned]
      exact List.mem_map_of_mem (mem_leavesOf_iff.mpr ⟨_, under⟩)
    · rw [isRead, isFlat]
      dsimp only
      rw [flatTranslations?, pairs]
      exact List.mem_map_of_mem listed

/-- **The translations of a file under one key** stand in ascending order. -/
theorem pairwise_scanLanguageFile (tree : Tree) (strict : Bool) (file : LanguageFile) (key : String) :
    ((scanLanguageFile tree strict file).1.filter (·.key == key)).Pairwise
      fun left right => left.declaration.start < right.declaration.start := by
  rw [scanLanguageFile_eq]
  split
  · exact .nil
  · next source _ _ =>
    unfold programTranslations
    split
    · exact .nil
    · next array returned =>
      have row := row_returnedArray? (Node.isTreeOf_ofSource source) returned
      have ascends := (ascends_leavesOf "" array row).pairwise
      apply List.Pairwise.filter
      exact List.pairwise_map.mpr (List.pairwise_map.mp ascends)
  · next source _ _ =>
    unfold flatTranslations?
    cases pairs : FlatEntry.read? strict source with
    | none => exact .nil
    | some entries =>
      rw [Option.map_some, Option.getD_some, List.filter_map]
      refine List.pairwise_map.mpr ((FlatEntry.pairwise_filter_read? pairs key).imp ?_)
      intro left right ahead
      have site : ∀ entry : FlatEntry,
          ((entry.span.map (Origin.ofText file.path source).site).getD (Site.ofFile file.path)).start =
            entry.start := by
        intro entry
        unfold FlatEntry.start
        cases entry.span <;> rfl
      rwa [site, site]

end Files

end ArtifactIndex
