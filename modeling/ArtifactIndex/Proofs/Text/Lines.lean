/-
**Lines count newlines.**

The line of an offset is found in a table of line starts. It is the number of newlines before the
offset.
-/

import ArtifactIndex.Proofs.Text.Bytes
import ArtifactIndex.Text.Lines

namespace ArtifactIndex

/-- The number of newline bytes of a text before an offset. -/
def newlinesBefore (text : String) (offset : Nat) : Nat :=
  (text.toByteArray.toList.take offset).count 10

namespace LineTable

/-- Of the lines that start in a list of bytes, as many start up to an offset as newlines stand before
it. -/
theorem length_takeWhile_startsFrom (base offset : Nat) (bytes : List UInt8) :
    ((startsFrom base bytes).takeWhile (· ≤ offset)).length =
      (bytes.take (offset - base)).count 10 := by
  induction bytes generalizing base with
  | nil =>
    rw [startsFrom, List.take_nil]
    rfl
  | cons byte rest ih =>
    have later := ih (base + 1)
    by_cases ahead : base < offset
    · obtain ⟨left, known⟩ : ∃ left, offset - base = left + 1 := ⟨offset - base - 1, by omega⟩
      rw [show offset - (base + 1) = left by omega] at later
      rw [startsFrom, known, List.take_succ_cons, List.count_cons]
      split
      · rw [List.takeWhile_cons_of_pos (by rw [decide_eq_true_eq]; omega), List.length_cons, later]
      · exact later
    · rw [show offset - (base + 1) = 0 by omega] at later
      rw [show offset - base = 0 by omega, List.take_zero, startsFrom]
      split
      · rw [List.takeWhile_cons_of_neg (by rw [decide_eq_true_eq]; omega)]
        rfl
      · exact later

/-- **The line of an offset** is the number of newlines before it. -/
theorem lineOf_ofText (text : String) (offset : Nat) :
    (ofText text).lineOf offset = newlinesBefore text offset := by
  have counted := length_takeWhile_startsFrom 0 offset text.toByteArray.toList
  show ((0 :: startsFrom 0 text.toByteArray.toList).takeWhile (· ≤ offset)).length - 1 = _
  rw [List.takeWhile_cons_of_pos (by rw [decide_eq_true_eq]; omega), List.length_cons, counted]
  rfl

/-- The offset behind a character that is no newline is on the line of the character. -/
theorem lineOf_append_singleton {text : String} {before behind : List Char} {c : Char}
    (shape : text.toList = before ++ [c] ++ behind) (noNewline : 10 ∉ String.utf8EncodeChar c) :
    (ofText text).lineOf (byteCount (before ++ [c])) = (ofText text).lineOf (byteCount before) := by
  have shapeToo : text.toList = before ++ ([c] ++ behind) := by rw [shape, List.append_assoc]
  rw [lineOf_ofText, lineOf_ofText, newlinesBefore, newlinesBefore, take_toByteArray shape,
    take_toByteArray shapeToo, List.flatMap_append, List.flatMap_singleton, List.count_append,
    List.count_eq_zero.mpr noNewline, Nat.add_zero]

end LineTable

end ArtifactIndex
