/-
**Texts as bytes.**

A text is stored as the UTF-8 codes of its characters, one behind the other. The codes are chosen so that
greater characters have greater codes, so texts are in the same order by characters and by bytes.

* `toByteArray_toList`: the bytes of a text are the codes of its characters;
* `bytes_lt_iff`: the order of texts is that of their bytes.
-/

import ArtifactIndex.Proofs.Text.Slices
import Mathlib.Data.String.Basic
import Mathlib.Tactic.SplitIfs

namespace ArtifactIndex

/-! ### Bytes -/

theorem byteArray_toList_loop (bytes : ByteArray) (index : Nat) (collected : List UInt8) :
    ByteArray.toList.loop bytes index collected =
      collected.reverse ++ bytes.data.toList.drop index := by
  fun_induction ByteArray.toList.loop bytes index collected with
  | case1 index collected inside ih =>
    have isByte : index < bytes.data.toList.length := by simpa using inside
    rw [ih, List.drop_eq_getElem_cons isByte]
    simp [ByteArray.get!, inside]
  | case2 index collected outside =>
    rw [List.drop_eq_nil_of_le (by simpa using outside), List.append_nil]

/-- **The bytes of a text** are the codes of its characters. -/
theorem toByteArray_toList (text : String) :
    text.toByteArray.toList = text.toList.flatMap String.utf8EncodeChar := by
  rw [← String.ofList_toList (s := text), String.toByteArray_ofList, String.toList_ofList,
    ByteArray.toList, byteArray_toList_loop, List.utf8Encode]
  simp

theorem length_flatMap_utf8EncodeChar (chars : List Char) :
    (chars.flatMap String.utf8EncodeChar).length = byteCount chars := by
  induction chars with
  | nil => rfl
  | cons c rest ih =>
    rw [List.flatMap_cons, List.length_append, String.length_utf8EncodeChar, ih, byteCount_cons]

/-- The bytes before a boundary are those of the characters before it. -/
theorem take_toByteArray {text : String} {before behind : List Char}
    (shape : text.toList = before ++ behind) :
    text.toByteArray.toList.take (byteCount before) = before.flatMap String.utf8EncodeChar := by
  rw [toByteArray_toList, shape, List.flatMap_append, ← length_flatMap_utf8EncodeChar, List.take_left]

/-! ### Order -/

theorem cons_lt_cons_of_lt {v w : Nat} {left right : List UInt8} (small : w < 256) (below : v < w) :
    UInt8.ofNat v :: left < UInt8.ofNat w :: right := by
  refine List.cons_lt_cons_iff.mpr (.inl ?_)
  rw [UInt8.lt_iff_toNat_lt, UInt8.toNat_ofNat_of_lt' (Nat.lt_trans below small),
    UInt8.toNat_ofNat_of_lt' small]
  exact below

/-- The code of a smaller number comes first, whatever follows the two codes. -/
def CodesInOrder (code : Nat → List UInt8) (bound : Nat) : Prop :=
  ∀ v w, v < w → w < bound → ∀ left right, code v ++ left < code w ++ right

/-- The first byte of a code, with a mark before the bits that it holds. -/
theorem codesInOrder_firstByte {mark bound : Nat} (small : mark + bound ≤ 256) :
    CodesInOrder (fun v => [UInt8.ofNat (v % bound + mark)]) bound := by
  intro v w below inside left right
  show UInt8.ofNat (v % bound + mark) :: left < UInt8.ofNat (w % bound + mark) :: right
  rw [Nat.mod_eq_of_lt inside, Nat.mod_eq_of_lt (Nat.lt_trans below inside)]
  exact cons_lt_cons_of_lt (by omega) (by omega)

/-- **One more byte.** Codes in order are so with the next six bits behind them. -/
theorem CodesInOrder.nextByte {lead : Nat → List UInt8} {bound : Nat} (ordered : CodesInOrder lead bound) :
    CodesInOrder (fun v => lead (v / 64) ++ [UInt8.ofNat (v % 64 + 128)]) (bound * 64) := by
  intro v w below inside left right
  rw [List.append_assoc, List.append_assoc]
  rcases Nat.lt_or_eq_of_le (Nat.div_le_div_right (c := 64) below.le) with ahead | same
  · exact ordered _ _ ahead (by omega) _ _
  · rw [same]
    exact List.append_left_lt (cons_lt_cons_of_lt (by omega) (by omega))

/-- **The code of a smaller character comes first**, whatever follows the two codes: a shorter code has a
smaller first byte, and codes of the same length hold the same bits in the same order. -/
theorem utf8EncodeChar_append_lt {c d : Char} (below : c < d) (left right : List UInt8) :
    String.utf8EncodeChar c ++ left < String.utf8EncodeChar d ++ right := by
  have below : c.val.toNat < d.val.toNat := below
  have bound : d.val.toNat < 1114112 := by
    rcases d.valid with low | ⟨-, high⟩
    · omega
    · exact high
  have two : CodesInOrder _ (32 * 64) :=
    (codesInOrder_firstByte (by decide : 192 + 32 ≤ 256)).nextByte
  have three : CodesInOrder _ (16 * 64 * 64) :=
    (codesInOrder_firstByte (by decide : 224 + 16 ≤ 256)).nextByte.nextByte
  have four : CodesInOrder _ (8 * 64 * 64 * 64) :=
    (codesInOrder_firstByte (by decide : 240 + 8 ≤ 256)).nextByte.nextByte.nextByte
  simp only [Nat.div_div_eq_div_mul, Nat.reduceMul, List.cons_append, List.nil_append] at two three four
  unfold String.utf8EncodeChar
  generalize c.val.toNat = v at below
  generalize d.val.toNat = w at below bound
  dsimp only
  split_ifs
  · exact cons_lt_cons_of_lt (by omega) below
  · exact cons_lt_cons_of_lt (by omega) (by omega)
  · exact cons_lt_cons_of_lt (by omega) (by omega)
  · exact cons_lt_cons_of_lt (by omega) (by omega)
  · omega
  · exact two v w below (by omega) left right
  · exact cons_lt_cons_of_lt (by omega) (by omega)
  · exact cons_lt_cons_of_lt (by omega) (by omega)
  · omega
  · omega
  · exact three v w below (by omega) left right
  · exact cons_lt_cons_of_lt (by omega) (by omega)
  · omega
  · omega
  · omega
  · exact four v w below (by omega) left right

theorem flatMap_utf8EncodeChar_lt {left right : List Char} (below : left < right) :
    left.flatMap String.utf8EncodeChar < right.flatMap String.utf8EncodeChar := by
  induction left generalizing right with
  | nil =>
    cases right with
    | nil => exact absurd below (List.lt_irrefl _)
    | cons d rest =>
      have codeLength := String.length_utf8EncodeChar d
      have := d.utf8Size_pos
      cases code : String.utf8EncodeChar d with
      | nil =>
        rw [code, List.length_nil] at codeLength
        omega
      | cons byte bytes =>
        rw [List.flatMap_cons, code]
        exact List.nil_lt_cons _ _
  | cons c left ih =>
    cases right with
    | nil => exact absurd below (List.not_lt_nil _)
    | cons d right =>
      rw [List.flatMap_cons, List.flatMap_cons]
      rcases List.cons_lt_cons_iff.mp below with ahead | ⟨rfl, behind⟩
      · exact utf8EncodeChar_append_lt ahead _ _
      · exact List.append_left_lt (ih behind)

/-- **The order of texts is that of their bytes.** -/
theorem bytes_lt_iff {left right : String} :
    left.toByteArray.toList < right.toByteArray.toList ↔ left < right := by
  have forward : ∀ {left right : String}, left < right →
      left.toByteArray.toList < right.toByteArray.toList := by
    intro left right below
    rw [toByteArray_toList, toByteArray_toList]
    exact flatMap_utf8EncodeChar_lt (String.lt_iff.mp below)
  refine ⟨fun below => ?_, forward⟩
  rcases lt_trichotomy left right with ahead | rfl | behind
  · exact ahead
  · exact absurd below (List.lt_irrefl _)
  · exact absurd (forward behind) (List.lt_asymm below)

end ArtifactIndex
