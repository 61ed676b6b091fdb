/-
**Slices of a text.**

Offsets count bytes while texts are read by characters. Both views meet at *boundaries*, the offsets
between two characters.

* `Boundary.exists_slice`: there is a slice between any two boundaries;
* `slice?_inner`: a slice of a part of a text is a slice of the text;
* `trimmed_eq_self`: a text without a blank at either end is not changed by trimming.
-/

import ArtifactIndex.Text.Basic
import Mathlib.Data.List.Infix

namespace ArtifactIndex

/-! ### Counting bytes -/

@[simp]
theorem byteCount_nil : byteCount [] = 0 := rfl

@[simp]
theorem byteCount_cons (c : Char) (rest : List Char) :
    byteCount (c :: rest) = c.utf8Size + byteCount rest := rfl

theorem byteCount_pos {chars : List Char} (nonempty : chars ≠ []) : 0 < byteCount chars := by
  obtain ⟨c, rest, rfl⟩ := List.exists_cons_of_ne_nil nonempty
  have := c.utf8Size_pos
  rw [byteCount_cons]
  omega

theorem size_utf8Encode (chars : List Char) : chars.utf8Encode.size = byteCount chars := by
  induction chars with
  | nil => rfl
  | cons c rest ih =>
    rw [List.utf8Encode_cons, ByteArray.size_append, ih, List.utf8Encode_singleton,
      List.size_toByteArray, String.length_utf8EncodeChar, byteCount_cons]

theorem byteLength_eq (text : String) : byteLength text = byteCount text.toList := by
  rw [← size_utf8Encode, String.utf8Encode_toList, String.size_toByteArray]

@[simp]
theorem byteLength_ofList (chars : List Char) : byteLength (String.ofList chars) = byteCount chars := by
  rw [byteLength_eq, String.toList_ofList]

/-! ### Slices -/

theorem slice?_eq_fromUTF8? {text : String} {start stop : Nat} (ordered : start ≤ stop)
    (inside : stop ≤ byteLength text) :
    slice? text start stop = String.fromUTF8? (text.toByteArray.extract start stop) :=
  if_pos ⟨ordered, inside⟩

theorem fromUTF8?_utf8Encode (chars : List Char) :
    String.fromUTF8? chars.utf8Encode = some (String.ofList chars) := by
  unfold String.fromUTF8?
  rw [dif_pos ByteArray.isValidUTF8_utf8Encode]
  rfl

/-- A slice of a part of a text, as a slice of the text. -/
theorem slice?_inner (before behind : List Char) {part : List Char} {start stop : Nat}
    (ordered : start ≤ stop) (inside : stop ≤ byteCount part) :
    slice? (String.ofList (before ++ part ++ behind)) (byteCount before + start)
        (byteCount before + stop) =
      slice? (String.ofList part) start stop := by
  rw [slice?_eq_fromUTF8? (by omega), slice?_eq_fromUTF8? ordered]
  · congr 1
    rw [String.toByteArray_ofList, String.toByteArray_ofList, List.append_assoc, List.utf8Encode_append,
      ByteArray.extract_append_size_add' (size_utf8Encode before).symm, List.utf8Encode_append,
      ByteArray.extract_append, size_utf8Encode]
    rw [Nat.sub_eq_zero_of_le (by omega : start ≤ byteCount part), Nat.sub_eq_zero_of_le inside,
      ByteArray.extract_same, ByteArray.append_empty]
  · rw [byteLength_ofList]
    exact inside
  · rw [byteLength_ofList, byteCount_append, byteCount_append]
    omega

/-- The whole of a text is a slice of it. -/
theorem slice?_whole (chars : List Char) :
    slice? (String.ofList chars) 0 (byteCount chars) = some (String.ofList chars) := by
  rw [slice?_eq_fromUTF8? (Nat.zero_le _) (byteLength_ofList chars).ge, String.toByteArray_ofList,
    ← size_utf8Encode, ByteArray.extract_zero_size, fromUTF8?_utf8Encode]

/-- The slice over a run of characters. -/
theorem slice?_middle {text : String} {before middle behind : List Char}
    (shape : text.toList = before ++ middle ++ behind) :
    slice? text (byteCount before) (byteCount before + byteCount middle) =
      some (String.ofList middle) := by
  have rebuilt : text = String.ofList (before ++ middle ++ behind) := by
    rw [← shape, String.ofList_toList]
  rw [rebuilt]
  exact (slice?_inner before behind (Nat.zero_le _) (Nat.le_refl _)).trans (slice?_whole middle)

/-! ### Boundaries -/

/-- The offset stands between two characters of the text, or at one of its ends. -/
def Boundary (text : String) (offset : Nat) : Prop :=
  ∃ before behind, text.toList = before ++ behind ∧ offset = byteCount before

namespace Boundary

variable {text : String}

theorem zero : Boundary text 0 := ⟨[], text.toList, rfl, rfl⟩

theorem atEnd : Boundary text (byteLength text) :=
  ⟨text.toList, [], (List.append_nil _).symm, byteLength_eq text⟩

theorem le {offset : Nat} (boundary : Boundary text offset) : offset ≤ byteLength text := by
  obtain ⟨before, behind, shape, rfl⟩ := boundary
  rw [byteLength_eq, shape, byteCount_append]
  exact Nat.le_add_right _ _

/-- Of two beginnings of a text, the one with fewer bytes is a beginning of the other. -/
theorem prefix_of_byteCount_le {short long : List Char} (first : short <+: text.toList)
    (second : long <+: text.toList) (fewer : byteCount short ≤ byteCount long) : short <+: long := by
  rcases List.prefix_or_prefix_of_prefix first second with known | ⟨extra, rfl⟩
  · exact known
  · have none : extra = [] := by
      by_contra nonempty
      have := byteCount_pos nonempty
      rw [byteCount_append] at fewer
      omega
    rw [none, List.append_nil]

/-- A boundary behind a beginning of the text is one of what follows. -/
theorem exists_middle {before rest : List Char} {stop : Nat} (shape : text.toList = before ++ rest)
    (boundary : Boundary text stop) (ordered : byteCount before ≤ stop) :
    ∃ middle behind, rest = middle ++ behind ∧ stop = byteCount before + byteCount middle := by
  obtain ⟨upTo, behind, shapeToo, rfl⟩ := boundary
  obtain ⟨middle, rfl⟩ := prefix_of_byteCount_le ⟨_, shape.symm⟩ ⟨_, shapeToo.symm⟩ ordered
  refine ⟨middle, behind, ?_, byteCount_append ..⟩
  rw [shape, List.append_assoc] at shapeToo
  exact List.append_cancel_left shapeToo

/-- **The slice between two boundaries.** It consists of whole characters. -/
theorem exists_slice {start stop : Nat} (first : Boundary text start) (second : Boundary text stop)
    (ordered : start ≤ stop) :
    ∃ middle, slice? text start stop = some middle ∧ stop = start + byteLength middle := by
  obtain ⟨before, rest, shape, rfl⟩ := first
  obtain ⟨middle, behind, rfl, rfl⟩ := second.exists_middle shape ordered
  refine ⟨String.ofList middle, slice?_middle (by rw [shape, List.append_assoc]), ?_⟩
  rw [byteLength_ofList]

end Boundary

/-! ### Ends -/

/-- A list whose first member fails the test loses nothing at its start. -/
theorem dropWhile_eq_self {test : Char → Bool} {chars : List Char}
    (keeps : ∀ c ∈ chars.head?, test c = false) : chars.dropWhile test = chars := by
  cases chars with
  | nil => rfl
  | cons c rest => rw [List.dropWhile_cons_of_neg (by rw [keeps c rfl]; exact Bool.false_ne_true)]

/-- A list whose last member fails the test loses nothing at its end. -/
theorem dropEndWhile_eq_self {test : Char → Bool} {chars : List Char}
    (keeps : ∀ c ∈ chars.getLast?, test c = false) : dropEndWhile test chars = chars := by
  rw [← List.head?_reverse] at keeps
  rw [dropEndWhile, dropWhile_eq_self keeps, List.reverse_reverse]

/-- A list whose first member fails the test keeps it when its end is dropped. -/
theorem head?_dropEndWhile {test : Char → Bool} {c : Char} {rest : List Char}
    (keeps : test c = false) : (dropEndWhile test (c :: rest)).head? = some c := by
  rw [dropEndWhile, List.head?_reverse, List.reverse_cons, List.dropWhile_append]
  split
  · rw [List.dropWhile_cons_of_neg (by rw [keeps]; exact Bool.false_ne_true)]
    rfl
  · rw [List.getLast?_concat]

/-- A text keeps its first character when it is trimmed, unless that is a blank. -/
theorem head?_trimmed {c : Char} {rest : List Char} (keeps : isBlank c = false) :
    (trimmed (String.ofList (c :: rest))).toList.head? = some c := by
  rw [trimmed, String.toList_ofList, String.toList_ofList,
    List.dropWhile_cons_of_neg (by rw [keeps]; exact Bool.false_ne_true)]
  exact head?_dropEndWhile keeps

/-- A text without a blank at either end is trimmed. -/
theorem trimmed_eq_self {text : String} (first : ∀ c ∈ text.toList.head?, isBlank c = false)
    (last : ∀ c ∈ text.toList.getLast?, isBlank c = false) : trimmed text = text := by
  rw [trimmed, dropWhile_eq_self first, dropEndWhile_eq_self last, String.ofList_toList]

end ArtifactIndex
