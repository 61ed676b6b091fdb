/-
**Entries of nested arrays.**

An entry of a language file stands under a row of keys, one for each array around it. The scan writes
the keys with dots between them on its way down; the search takes them off a dotted path one by one. Both
come to the same entries, although a key may have dots of its own.

* `Node.EntryAt`: the entries of an array and of the arrays in it;
* `mem_leavesOf_iff`: the texts that a scan finds are the entries that are no arrays;
* `mem_keySites_iff`: the search finds the entries whose keys, joined by dots, are the path;
* `exists_key_place`: their keys stand in key position.
-/

import ArtifactIndex.Proofs.Code.Places
import ArtifactIndex.Proofs.Text.Cuts
import ArtifactIndex.Proofs.Text.Segments
import ArtifactIndex.Translation.Scan

namespace ArtifactIndex

/-- **Entries under keys.** An entry of an array under its own key, or one of an array that is the value
under a key. Keys are literals. -/
inductive Node.EntryAt : Node → List String → Node → Node → Prop
  | own {array keyNode value : Node} {key : String} (listed : ⟨some keyNode, value⟩ ∈ array.arrayEntries)
      (isKey : keyNode.literal? = some key) : EntryAt array [key] keyNode value
  | within {array outerNode inner keyNode value : Node} {key : String} {keys : List String}
      (listed : ⟨some outerNode, inner⟩ ∈ array.arrayEntries) (isKey : outerNode.literal? = some key)
      (isArray : inner.isArray = true) (further : EntryAt inner keys keyNode value) :
      EntryAt array (key :: keys) keyNode value

section Entries

variable {array keyNode value : Node} {keys : List String} {outer path : String} {origin : Origin}

theorem Node.EntryAt.ne_nil (entry : array.EntryAt keys keyNode value) : keys ≠ [] := by
  cases entry with
  | own => nofun
  | within => nofun

theorem Node.EntryAt.exists_key (entry : array.EntryAt keys keyNode value) :
    ∃ key, keyNode.literal? = some key := by
  induction entry with
  | own _ isKey => exact ⟨_, isKey⟩
  | within _ _ _ _ ih => exact ih

/-! ### The scan -/

/-- A text of an array, under its keys. -/
def Leaf.Under (outer : String) (array : Node) (keys : List String) (leaf : Leaf) : Prop :=
  ∃ keyNode value, array.EntryAt keys keyNode value ∧ value.isArray = false ∧
    leaf = ⟨keys.foldl dottedPath outer, keyNode.span, leafValue value⟩

theorem exists_under_of_mem_leavesOf (outer : String) (array : Node) {leaf : Leaf}
    (listed : leaf ∈ leavesOf outer array) : ∃ keys, leaf.Under outer array keys := by
  rw [leavesOf] at listed
  obtain ⟨⟨⟨key?, value⟩, isEntry⟩, -, isLeaf⟩ := List.mem_flatMap.mp listed
  -- An array that is the value of an entry is smaller, and its texts have one more key in front.
  have smaller := Node.nodeCount_lt_of_mem_arrayEntries isEntry
  dsimp only at isLeaf
  split at isLeaf
  · cases isLeaf
  · next keyNode =>
    split at isLeaf
    · cases isLeaf
    · next key isKey =>
      split at isLeaf
      · next isArray =>
        obtain ⟨keys, keyNode, value, entry, isText, rfl⟩ := exists_under_of_mem_leavesOf _ _ isLeaf
        exact ⟨key :: keys, keyNode, value, .within isEntry isKey isArray entry, isText, rfl⟩
      · next isText =>
        rw [List.mem_singleton.mp isLeaf]
        exact ⟨[key], keyNode, value, .own isEntry isKey, Bool.eq_false_iff.mpr isText, rfl⟩
termination_by array.nodeCount

theorem mem_leavesOf_of_entryAt (entry : array.EntryAt keys keyNode value)
    (isText : value.isArray = false) (outer : String) :
    ⟨keys.foldl dottedPath outer, keyNode.span, leafValue value⟩ ∈ leavesOf outer array := by
  induction entry generalizing outer with
  | own listed isKey =>
    rw [leavesOf]
    refine List.mem_flatMap.mpr ⟨⟨_, listed⟩, List.mem_attach .., ?_⟩
    simp only [isKey, isText]
    exact List.mem_singleton.mpr rfl
  | within listed isKey isArray _ ih =>
    rw [leavesOf]
    refine List.mem_flatMap.mpr ⟨⟨_, listed⟩, List.mem_attach .., ?_⟩
    simp only [isKey, isArray, if_true]
    exact ih isText _

/-- **What the scan finds** are the entries that are no arrays, under the dotted path of their keys. -/
theorem mem_leavesOf_iff {leaf : Leaf} :
    leaf ∈ leavesOf outer array ↔ ∃ keys, leaf.Under outer array keys := by
  constructor
  · exact exists_under_of_mem_leavesOf outer array
  · rintro ⟨keys, keyNode, value, entry, isText, rfl⟩
    exact mem_leavesOf_of_entryAt entry isText outer

theorem joinWith_cons (first : String) (given : keys ≠ []) :
    joinWith "." (first :: keys) = first ++ "." ++ joinWith "." keys := by
  obtain ⟨second, rest, rfl⟩ := List.exists_cons_of_ne_nil given
  exact joinWith_cons_cons ..

/-- The path of keys that are not empty has a dot between each two. -/
theorem foldl_dottedPath (started : outer ≠ "") :
    keys.foldl dottedPath outer = joinWith "." (outer :: keys) := by
  induction keys generalizing outer with
  | nil => rw [List.foldl_nil, joinWith_singleton]
  | cons key rest ih =>
    have next : dottedPath outer key = outer ++ "." ++ key := by
      rw [dottedPath, if_neg]
      rwa [String.isEmpty_iff]
    rw [List.foldl_cons, ih (by simp [next]), next, joinWith_cons_cons]
    cases rest with
    | nil => rw [joinWith_singleton, joinWith_singleton]
    | cons second rest => simp only [joinWith_cons_cons, String.append_assoc]

theorem foldl_dottedPath_empty (given : ∀ key ∈ keys, key ≠ "") :
    keys.foldl dottedPath "" = joinWith "." keys := by
  cases keys with
  | nil => rfl
  | cons key rest => exact foldl_dottedPath (given key List.mem_cons_self)

/-! ### The search -/

theorem exists_entry_of_mem_keySites (origin : Origin) (array : Node) (path : String) {site : Site}
    (listed : site ∈ keySites origin array path) :
    ∃ keys keyNode value, array.EntryAt keys keyNode value ∧ joinWith "." keys = path ∧
      site = origin.site keyNode.span := by
  rw [keySites] at listed
  obtain ⟨⟨⟨key?, value⟩, isEntry⟩, -, isSite⟩ := List.mem_flatMap.mp listed
  have smaller := Node.nodeCount_lt_of_mem_arrayEntries isEntry
  dsimp only at isSite
  split at isSite
  · cases isSite
  · next keyNode =>
    split at isSite
    · cases isSite
    · next key isKey =>
      split at isSite
      · next same =>
        rw [List.mem_singleton.mp isSite]
        exact ⟨[key], keyNode, value, .own isEntry isKey, (joinWith_singleton ..).trans same, rfl⟩
      · split at isSite
        · cases isSite
        · next rest isRest =>
          split at isSite
          · next isArray =>
            obtain ⟨keys, innerNode, innerValue, entry, rfl, rfl⟩ :=
              exists_entry_of_mem_keySites origin value rest isSite
            refine ⟨key :: keys, innerNode, innerValue, .within isEntry isKey isArray entry, ?_, rfl⟩
            rw [joinWith_cons key entry.ne_nil, afterStart?_eq_some_iff.mp isRest]
          · cases isSite
termination_by array.nodeCount

theorem mem_keySites_of_entryAt (entry : array.EntryAt keys keyNode value) :
    origin.site keyNode.span ∈ keySites origin array (joinWith "." keys) := by
  induction entry with
  | own listed isKey =>
    rw [keySites]
    refine List.mem_flatMap.mpr ⟨⟨_, listed⟩, List.mem_attach .., ?_⟩
    simp only [isKey, joinWith_singleton, if_true]
    exact List.mem_singleton.mpr rfl
  | @within array outerNode inner keyNode value key keys listed isKey isArray further ih =>
    -- The whole path is compared with the key first, and would end the search there.
    have longer : key ≠ key ++ "." ++ joinWith "." keys := by
      intro same
      have sameLength := congrArg String.length same
      rw [String.length_append, String.length_append, show ".".length = 1 from rfl] at sameLength
      omega
    have behind : afterStart? (key ++ ".") (key ++ "." ++ joinWith "." keys) = some (joinWith "." keys) :=
      afterStart?_eq_some_iff.mpr rfl
    rw [keySites, joinWith_cons key further.ne_nil]
    refine List.mem_flatMap.mpr ⟨⟨_, listed⟩, List.mem_attach .., ?_⟩
    simp only [isKey, if_neg longer, behind, isArray, if_true]
    exact ih

/-- **What the search finds** are the entries whose keys, joined by dots, are the path. -/
theorem mem_keySites_iff {site : Site} :
    site ∈ keySites origin array path ↔
      ∃ keys keyNode value, array.EntryAt keys keyNode value ∧ joinWith "." keys = path ∧
        site = origin.site keyNode.span := by
  constructor
  · exact exists_entry_of_mem_keySites origin array path
  · rintro ⟨keys, keyNode, value, entry, rfl, rfl⟩
    exact mem_keySites_of_entryAt entry

/-! ### Key positions -/

/-- An entry with a key is read off an element of the array that has the key and the value as its first
two children. -/
theorem element_of_mem_arrayEntries (listed : ⟨some keyNode, value⟩ ∈ array.arrayEntries) :
    array.isArray = true ∧ ∃ (index : Nat) (element : Node) (rest : List Node),
      array.children[index]? = some element ∧ element.kind = .element ∧
        element.children = keyNode :: value :: rest := by
  unfold Node.arrayEntries at listed
  split at listed
  · next isArray =>
    obtain ⟨element, isElement, isEntry⟩ := List.mem_filterMap.mp listed
    obtain ⟨isChild, hasKind⟩ := List.mem_filter.mp isElement
    obtain ⟨index, found⟩ := List.mem_iff_getElem?.mp isChild
    unfold Node.entry? at isEntry
    split at isEntry
    · cases isEntry
    · cases isEntry
    · next rest shape =>
      cases isEntry
      exact ⟨isArray, index, element, rest, found, beq_iff_eq.mp hasKind, shape⟩
  · cases listed

/-- The literals in a key or a value are listed for the array. -/
theorem mem_literalsFrom_of_part {element part : Node} {index position : Nat} {trail : List Descent}
    {place : Place} (isArray : array.isArray = true) (found : array.children[index]? = some element)
    (isElement : element.kind = .element) (isPart : element.children[position]? = some part)
    (listed : place ∈ part.literalsFrom (⟨element, position⟩ :: ⟨array, index⟩ :: trail)) :
    place ∈ array.literalsFrom trail := by
  refine Node.mem_literalsFrom_of_child ?_ found (Node.mem_literalsFrom_of_child ?_ isPart listed)
  · rw [beq_iff_eq.mp isArray]
    nofun
  · rw [isElement]
    nofun

theorem literalsFrom_of_literal? {node : Node} {key : String} (isKey : node.literal? = some key)
    (trail : List Descent) : node.literalsFrom trail = [⟨node, trail⟩] := by
  cases node with
  | mk kind span text children =>
    obtain rfl : kind = .string := (Node.bare_of_literal? isKey).1
    rw [Node.literalsFrom]
    rfl

/-- **Keys stand in key position.** The key of an entry is listed among the literals of the array, as a
key of the array around it. -/
theorem exists_key_place (entry : array.EntryAt keys keyNode value) (trail : List Descent) :
    ∃ place ∈ array.literalsFrom trail, place.node = keyNode ∧
      ∃ around, place.enclosingArray? = some (around, true) := by
  induction entry generalizing trail with
  | @own array keyNode value key listed isKey =>
    obtain ⟨isArray, index, element, rest, found, isElement, shape⟩ := element_of_mem_arrayEntries listed
    refine ⟨⟨keyNode, ⟨element, 0⟩ :: ⟨array, index⟩ :: trail⟩, ?_, rfl, ⟨array, trail⟩, ?_⟩
    · refine mem_literalsFrom_of_part isArray found isElement (congrArg (·[0]?) shape) ?_
      rw [literalsFrom_of_literal? isKey]
      exact List.mem_singleton.mpr rfl
    · simp [Place.enclosingArray?, Place.up?, Place.indexInParent, isElement, isArray, shape]
  | @within array outerNode inner keyNode value key keys listed isKey isArray further ih =>
    obtain ⟨outerIsArray, index, element, rest, found, isElement, shape⟩ :=
      element_of_mem_arrayEntries listed
    obtain ⟨place, isListed, isNode, isKeyOf⟩ := ih (⟨element, 1⟩ :: ⟨array, index⟩ :: trail)
    refine ⟨place, ?_, isNode, isKeyOf⟩
    exact mem_literalsFrom_of_part outerIsArray found isElement (congrArg (·[1]?) shape) isListed

end Entries

end ArtifactIndex
