/-
**Cutting and joining texts.**

Paths and names are cut at a separator, and the pieces that are not empty are joined again. What can be
said about such texts is said about their pieces:

* `segments_append`, `segments_of_free`: the pieces of two texts around a separator, and of a text without one;
* `nonemptySegments_append`, `nonemptySegments_joinWith`: the pieces of a joined text are those of its
  parts, one after another;
* `nonemptySegments_trimmedOf`: separators at the ends do not count;
* `nonemptySegments_eq_nil_iff`: a text without pieces has nothing but separators;
* `exchange_exchange`, `exchange_joinWith`: one separator in place of another;
* `mem_distinctNonempty`, `findSome?_distinctNonempty`: the candidates of a look-up.
-/

import ArtifactIndex.Proofs.Ordered
import ArtifactIndex.Text.Basic
import Mathlib.Data.List.Induction

namespace ArtifactIndex

/-! ### Texts and their characters -/

@[simp]
theorem isEmpty_ofList (chars : List Char) : (String.ofList chars).isEmpty = chars.isEmpty := by
  rw [Bool.eq_iff_iff, String.isEmpty_iff, List.isEmpty_iff]
  constructor
  · intro empty
    exact String.ofList_injective empty
  · rintro rfl
    rfl

/-! ### Pieces of a list of characters -/

/-- The pieces between the separators that are not empty. -/
def nonemptyParts (separator : Char) (chars : List Char) : List (List Char) :=
  (chars.splitOn separator).filter (!·.isEmpty)

theorem nonemptySegments_eq (separator : Char) (text : String) :
    nonemptySegments separator text = (nonemptyParts separator text.toList).map String.ofList := by
  unfold nonemptySegments segments nonemptyParts
  rw [List.filter_map]
  congr 2
  funext chars
  rw [Function.comp_apply, isEmpty_ofList]

theorem nonemptyParts_append (separator : Char) (left right : List Char) :
    nonemptyParts separator (left ++ separator :: right) =
      nonemptyParts separator left ++ nonemptyParts separator right := by
  unfold nonemptyParts
  rw [List.splitOn_append_cons_self, List.filter_append]

theorem nonemptyParts_nil (separator : Char) : nonemptyParts separator [] = [] := rfl

theorem nonemptyParts_cons_self (separator : Char) (chars : List Char) :
    nonemptyParts separator (separator :: chars) = nonemptyParts separator chars :=
  nonemptyParts_append separator [] chars

theorem nonemptyParts_concat_self (separator : Char) (chars : List Char) :
    nonemptyParts separator (chars ++ [separator]) = nonemptyParts separator chars := by
  rw [nonemptyParts_append, nonemptyParts_nil, List.append_nil]

/-- A list without separators is its own only piece. -/
theorem nonemptyParts_of_not_mem {separator : Char} {chars : List Char} (free : separator ∉ chars)
    (nonempty : chars ≠ []) : nonemptyParts separator chars = [chars] := by
  unfold nonemptyParts
  rw [List.splitOn_eq_singleton free]
  simp [nonempty]

/-- Separators at the start do not count. -/
theorem nonemptyParts_dropWhile (separator : Char) (chars : List Char) :
    nonemptyParts separator (chars.dropWhile (· == separator)) = nonemptyParts separator chars := by
  induction chars with
  | nil => rfl
  | cons c rest ih =>
    by_cases same : c = separator
    · subst same
      rw [List.dropWhile_cons_of_pos (by simp), ih, nonemptyParts_cons_self]
    · rw [List.dropWhile_cons_of_neg (by simpa using same)]

/-- Separators at the end do not count. -/
theorem nonemptyParts_dropEndWhile (separator : Char) (chars : List Char) :
    nonemptyParts separator (dropEndWhile (· == separator) chars) = nonemptyParts separator chars := by
  induction chars using List.reverseRecOn with
  | nil => rfl
  | append_singleton rest c ih =>
    unfold dropEndWhile at ih ⊢
    rw [List.reverse_append, List.reverse_singleton, List.singleton_append]
    by_cases same : c = separator
    · subst same
      rw [List.dropWhile_cons_of_pos (by simp), ih, nonemptyParts_concat_self]
    · rw [List.dropWhile_cons_of_neg (by simpa using same), List.reverse_cons, List.reverse_reverse]

/-- A list that starts with no separator has a piece. -/
theorem nonemptyParts_cons_ne_nil {separator c : Char} (differ : c ≠ separator) (rest : List Char) :
    nonemptyParts separator (c :: rest) ≠ [] := by
  obtain ⟨first, others, shape⟩ := List.exists_cons_of_ne_nil (List.splitOn_ne_nil separator rest)
  unfold nonemptyParts
  rw [List.splitOn_cons_eq_if_modifyHead, shape]
  simp [differ]

/-- A list without pieces has nothing but separators. -/
theorem nonemptyParts_eq_nil_iff (separator : Char) (chars : List Char) :
    nonemptyParts separator chars = [] ↔ ∀ c ∈ chars, c = separator := by
  induction chars with
  | nil => simp [nonemptyParts_nil]
  | cons c rest ih =>
    by_cases same : c = separator
    · subst same
      rw [nonemptyParts_cons_self, ih]
      simp
    · constructor
      · intro none
        exact absurd none (nonemptyParts_cons_ne_nil same rest)
      · intro all
        exact absurd (all c List.mem_cons_self) same

/-- No piece holds a separator. -/
theorem not_mem_of_mem_splitOn {separator : Char} {chars piece : List Char}
    (listed : piece ∈ chars.splitOn separator) : separator ∉ piece := by
  induction chars generalizing piece with
  | nil =>
    rw [List.splitOn_nil, List.mem_singleton] at listed
    rw [listed]
    exact List.not_mem_nil
  | cons c rest ih =>
    rw [List.splitOn_cons_eq_if_modifyHead] at listed
    split at listed
    · rcases List.mem_cons.mp listed with rfl | later
      · exact List.not_mem_nil
      · exact ih later
    · next differ =>
      obtain ⟨first, others, shape⟩ := List.exists_cons_of_ne_nil (List.splitOn_ne_nil separator rest)
      rw [shape, List.modifyHead_cons, List.mem_cons] at listed
      rcases listed with rfl | later
      · have free : separator ∉ first := ih (shape ▸ List.mem_cons_self)
        intro inside
        rcases List.mem_cons.mp inside with same | inFirst
        · exact differ (by simp [same])
        · exact free inFirst
      · exact ih (shape ▸ List.mem_cons_of_mem _ later)

/-- A list is rebuilt from its pieces with a separator before each, and one more at the start. -/
theorem flatMap_splitOn (separator : Char) (chars : List Char) :
    (chars.splitOn separator).flatMap (separator :: ·) = separator :: chars := by
  induction chars with
  | nil => rfl
  | cons c rest ih =>
    rw [List.splitOn_cons_eq_if_modifyHead]
    split
    · next same => rw [List.flatMap_cons, ih, beq_iff_eq.mp same, List.singleton_append]
    · obtain ⟨first, others, shape⟩ := List.exists_cons_of_ne_nil (List.splitOn_ne_nil separator rest)
      rw [shape] at ih ⊢
      simpa using ih

/-- The characters of a piece are some of the list. -/
theorem mem_of_mem_splitOn {separator c : Char} {chars piece : List Char}
    (listed : piece ∈ chars.splitOn separator) (inside : c ∈ piece) : c ∈ chars := by
  have rebuilt : c ∈ separator :: chars := by
    rw [← flatMap_splitOn]
    exact List.mem_flatMap.mpr ⟨piece, listed, List.mem_cons_of_mem _ inside⟩
  rcases List.mem_cons.mp rebuilt with rfl | isInside
  · exact absurd inside (not_mem_of_mem_splitOn listed)
  · exact isInside

/-! ### Pieces of a text -/

theorem segments_append (separator : Char) (left right : String) :
    segments separator (left ++ String.singleton separator ++ right) =
      segments separator left ++ segments separator right := by
  simp only [segments, String.toList_append, String.toList_singleton, List.append_assoc,
    List.singleton_append, List.splitOn_append_cons_self, List.map_append]

theorem segments_of_free {separator : Char} {text : String} (free : separator ∉ text.toList) :
    segments separator text = [text] := by
  rw [segments, List.splitOn_eq_singleton free, List.map_singleton, String.ofList_toList]

/-- The pieces of two texts with a separator between them. -/
theorem nonemptySegments_append (separator : Char) (left right : String) :
    nonemptySegments separator (left ++ String.singleton separator ++ right) =
      nonemptySegments separator left ++ nonemptySegments separator right := by
  simp only [nonemptySegments_eq, String.toList_append, String.toList_singleton, List.append_assoc,
    List.singleton_append, nonemptyParts_append, List.map_append]

/-- Separators around a text do not count. -/
theorem nonemptySegments_trimmedOf (separator : Char) (text : String) :
    nonemptySegments separator (trimmedOf separator text) = nonemptySegments separator text := by
  simp only [nonemptySegments_eq, trimmedOf, trimmedEndOf, trimmedStartOf, String.toList_ofList,
    nonemptyParts_dropEndWhile, nonemptyParts_dropWhile]

theorem nonemptySegments_empty (separator : Char) : nonemptySegments separator "" = [] := rfl

/-- A text without pieces has nothing but separators. -/
theorem nonemptySegments_eq_nil_iff (separator : Char) (text : String) :
    nonemptySegments separator text = [] ↔ ∀ c ∈ text.toList, c = separator := by
  rw [nonemptySegments_eq, List.map_eq_nil_iff, nonemptyParts_eq_nil_iff]

/-- A piece is not empty and holds no separator. -/
theorem of_mem_nonemptySegments {separator : Char} {text piece : String}
    (listed : piece ∈ nonemptySegments separator text) :
    piece.toList ≠ [] ∧ separator ∉ piece.toList := by
  rw [nonemptySegments_eq] at listed
  obtain ⟨chars, member, rfl⟩ := List.mem_map.mp listed
  obtain ⟨inSplit, nonempty⟩ := List.mem_filter.mp member
  rw [String.toList_ofList]
  exact ⟨by simpa using nonempty, not_mem_of_mem_splitOn inSplit⟩

/-- A text that is not empty and holds no separator is its own only piece. -/
theorem nonemptySegments_of_free {separator : Char} {text : String} (nonempty : text.toList ≠ [])
    (free : separator ∉ text.toList) : nonemptySegments separator text = [text] := by
  rw [nonemptySegments_eq, nonemptyParts_of_not_mem free nonempty, List.map_singleton,
    String.ofList_toList]

/-- The pieces of the pieces of a text are its pieces. -/
theorem flatMap_nonemptySegments (separator : Char) {pieces : List String}
    (clean : ∀ piece ∈ pieces, piece.toList ≠ [] ∧ separator ∉ piece.toList) :
    pieces.flatMap (nonemptySegments separator) = pieces := by
  induction pieces with
  | nil => rfl
  | cons piece rest ih =>
    obtain ⟨nonempty, free⟩ := clean piece List.mem_cons_self
    rw [List.flatMap_cons, nonemptySegments_of_free nonempty free,
      ih fun other member => clean other (List.mem_cons_of_mem _ member), List.singleton_append]

/-! ### Joined texts -/

theorem joinWith_nil (separator : String) : joinWith separator [] = "" := rfl

theorem joinWith_singleton (separator piece : String) : joinWith separator [piece] = piece := by
  simp [joinWith]

theorem joinWith_cons_cons (separator first second : String) (rest : List String) :
    joinWith separator (first :: second :: rest) =
      first ++ separator ++ joinWith separator (second :: rest) := by
  simp [joinWith, List.intercalate_cons_cons, String.ofList_append, String.append_assoc]

/-- Two joined rows have one more separator between them. -/
theorem joinWith_append (separator : String) {left right : List String} (isLeft : left ≠ [])
    (isRight : right ≠ []) :
    joinWith separator (left ++ right) = joinWith separator left ++ separator ++ joinWith separator right := by
  induction left with
  | nil => exact absurd rfl isLeft
  | cons first rest ih =>
    cases rest with
    | nil =>
      obtain ⟨second, others, rfl⟩ := List.exists_cons_of_ne_nil isRight
      rw [List.singleton_append, joinWith_cons_cons, joinWith_singleton]
    | cons second rest =>
      rw [List.cons_append, List.cons_append, joinWith_cons_cons, ← List.cons_append,
        ih (List.cons_ne_nil second rest), joinWith_cons_cons]
      simp only [String.append_assoc]

/-- A joined row of texts without separators is cut into the row again. -/
theorem segments_joinWith {separator : Char} {parts : List String} (given : parts ≠ [])
    (free : ∀ part ∈ parts, separator ∉ part.toList) :
    segments separator (joinWith (String.singleton separator) parts) = parts := by
  induction parts with
  | nil => exact absurd rfl given
  | cons first rest ih =>
    obtain ⟨firstFree, restFree⟩ := List.forall_mem_cons.mp free
    cases rest with
    | nil => rw [joinWith_singleton, segments_of_free firstFree]
    | cons second rest =>
      rw [joinWith_cons_cons, segments_append, segments_of_free firstFree, ih (List.cons_ne_nil _ _) restFree]
      rfl

/-- **The pieces of a joined text** are those of its parts, one after another. -/
theorem nonemptySegments_joinWith (separator : Char) (parts : List String) :
    nonemptySegments separator (joinWith (String.singleton separator) parts) =
      parts.flatMap (nonemptySegments separator) := by
  induction parts with
  | nil => rfl
  | cons first rest ih =>
    cases rest with
    | nil => rw [joinWith_singleton, List.flatMap_singleton]
    | cons second rest =>
      rw [joinWith_cons_cons, nonemptySegments_append, ih, ← List.flatMap_cons]

theorem not_mem_joinWith {mark : Char} {separator : String} {pieces : List String}
    (apart : mark ∉ separator.toList) (free : ∀ piece ∈ pieces, mark ∉ piece.toList) :
    mark ∉ (joinWith separator pieces).toList := by
  induction pieces with
  | nil => exact List.not_mem_nil
  | cons first rest ih =>
    have firstFree := free first List.mem_cons_self
    cases rest with
    | nil =>
      rw [joinWith_singleton]
      exact firstFree
    | cons second rest =>
      have later := ih fun piece listed => free piece (List.mem_cons_of_mem _ listed)
      rw [joinWith_cons_cons]
      simp only [String.toList_append, List.mem_append, not_or]
      exact ⟨⟨firstFree, apart⟩, later⟩

/-! ### Exchanged separators -/

theorem exchange_eq_self {old new : Char} {text : String} (free : old ∉ text.toList) :
    exchange old new text = text := by
  rw [← String.toList_inj, exchange, String.toList_ofList]
  refine (List.map_congr_left fun c inside => ?_).trans (List.map_id _)
  rw [if_neg]
  · rfl
  · rw [beq_iff_eq]
    rintro rfl
    exact free inside

/-- A text without the new character is given back by the exchange the other way round. -/
theorem exchange_exchange {old new : Char} {text : String} (free : new ∉ text.toList) :
    exchange new old (exchange old new text) = text := by
  rw [← String.toList_inj, exchange, exchange, String.toList_ofList, String.toList_ofList, List.map_map]
  refine (List.map_congr_left fun c inside => ?_).trans (List.map_id _)
  by_cases isOld : c = old
  · simp [isOld]
  · have isNotNew : c ≠ new := by
      rintro rfl
      exact free inside
    simp [isOld, isNotNew]

theorem mem_exchange {old new c : Char} {text : String} (inside : c ∈ (exchange old new text).toList) :
    c ∈ text.toList ∨ c = new := by
  rw [exchange, String.toList_ofList] at inside
  obtain ⟨original, isOriginal, same⟩ := List.mem_map.mp inside
  split at same
  · exact .inr same.symm
  · exact .inl (same ▸ isOriginal)

theorem not_mem_exchange {old new : Char} (differ : old ≠ new) (text : String) :
    old ∉ (exchange old new text).toList := by
  rw [exchange, String.toList_ofList]
  intro inside
  obtain ⟨c, -, same⟩ := List.mem_map.mp inside
  split at same
  · exact differ same.symm
  · next isOther => exact isOther (beq_iff_eq.mpr same)

theorem exchange_eq_empty_iff {old new : Char} {text : String} : exchange old new text = "" ↔ text = "" := by
  rw [← String.toList_eq_nil_iff, exchange, String.toList_ofList, List.map_eq_nil_iff, String.toList_eq_nil_iff]

theorem exchange_append (old new : Char) (left right : String) :
    exchange old new (left ++ right) = exchange old new left ++ exchange old new right := by
  simp [exchange]

/-- The parts of a joined text stay as they are, when they have no separator in them. -/
theorem exchange_joinWith {old : Char} (new : Char) {pieces : List String}
    (free : ∀ piece ∈ pieces, old ∉ piece.toList) :
    exchange old new (joinWith (String.singleton old) pieces) = joinWith (String.singleton new) pieces := by
  induction pieces with
  | nil => rfl
  | cons first rest ih =>
    obtain ⟨firstFree, later⟩ := List.forall_mem_cons.mp free
    cases rest with
    | nil => rw [joinWith_singleton, joinWith_singleton, exchange_eq_self firstFree]
    | cons second rest =>
      have mark : exchange old new (String.singleton old) = String.singleton new := by simp [exchange]
      rw [joinWith_cons_cons, joinWith_cons_cons, exchange_append, exchange_append, ih later, mark,
        exchange_eq_self firstFree]

/-! ### Candidates -/

theorem mem_distinctNonempty {text : String} {candidates : List String} :
    text ∈ distinctNonempty candidates ↔ text ∈ candidates ∧ text ≠ "" := by
  rw [distinctNonempty, List.mem_eraseDups, List.mem_filter, Bool.not_eq_true', Bool.eq_false_iff, Ne,
    String.isEmpty_iff]

/-- The first candidate that gives something is found, whether or not it comes twice. -/
theorem findSome?_distinctNonempty {α : Type} (find : String → Option α) (candidates : List String) :
    (distinctNonempty candidates).findSome? find = (candidates.filter (!·.isEmpty)).findSome? find :=
  findSome?_eraseDups find _

/-- The first candidate decides, when it gives something. -/
theorem findSome?_distinctNonempty_of_first {α : Type} {find : String → Option α} {first : String}
    (candidates : List String) (given : first ≠ "") {value : α} (found : find first = some value) :
    (distinctNonempty (first :: candidates)).findSome? find = some value := by
  rw [findSome?_distinctNonempty, List.filter_cons_of_pos (by simpa [String.isEmpty_iff] using given),
    List.findSome?_cons, found]

end ArtifactIndex
