/-
**Where a text is cut.**

A text that was put together with a separator is cut there again, as long as the separator does not
stand in the part that the cut is looked for in.

* `afterStart?_eq_some_iff`, `beforeEnd?_eq_some_iff`: what stands behind a given beginning, and before a given
  ending;
* `splitFirst?_append`, `splitLast?_append`: the cuts at the first and at the last separator;
* `Path.fileName_append`: the name of a file in a directory.
-/

import ArtifactIndex.Path
import Mathlib.Data.List.Basic
import Mathlib.Data.List.TakeWhile

namespace ArtifactIndex

theorem afterStart?_eq_some_iff {beginning text rest : String} :
    afterStart? beginning text = some rest ↔ text = beginning ++ rest := by
  unfold afterStart?
  rw [Option.map_eq_some_iff]
  constructor
  · rintro ⟨chars, found, rfl⟩
    rw [List.isPrefixOf?_eq_some_iff_append_eq] at found
    rw [← String.ofList_toList (s := text), ← found, String.ofList_append, String.ofList_toList]
  · rintro rfl
    refine ⟨rest.toList, ?_, String.ofList_toList⟩
    rw [List.isPrefixOf?_eq_some_iff_append_eq, String.toList_append]

theorem beforeEnd?_eq_some_iff {ending text rest : String} :
    beforeEnd? ending text = some rest ↔ text = rest ++ ending := by
  unfold beforeEnd?
  rw [Option.map_eq_some_iff]
  constructor
  · rintro ⟨chars, found, rfl⟩
    rw [List.isSuffixOf?_eq_some_iff_append_eq] at found
    rw [← String.ofList_toList (s := text), ← found, String.ofList_append, String.ofList_toList]
  · rintro rfl
    refine ⟨rest.toList, ?_, String.ofList_toList⟩
    rw [List.isSuffixOf?_eq_some_iff_append_eq, String.toList_append]

section Separators

variable {separator : Char} {left right : String}

/-- A list is cut behind a part without separators. -/
theorem cut_append {before : List Char} (free : separator ∉ before) (behind : List Char) :
    (before ++ separator :: behind).takeWhile (· != separator) = before ∧
      (before ++ separator :: behind).dropWhile (· != separator) = separator :: behind := by
  have differ : ∀ c ∈ before, (c != separator) = true := by
    intro c inside
    rw [bne_iff_ne]
    rintro rfl
    exact free inside
  constructor
  · rw [List.takeWhile_append_of_pos differ, List.takeWhile_cons_of_neg (by simp), List.append_nil]
  · rw [List.dropWhile_append_of_pos differ, List.dropWhile_cons_of_neg (by simp)]

/-- **The first cut** falls behind a part without separators. -/
theorem splitFirst?_append (free : separator ∉ left.toList) (right : String) :
    splitFirst? separator (left ++ String.singleton separator ++ right) = some (left, right) := by
  have chars : (left ++ String.singleton separator ++ right).toList =
      left.toList ++ separator :: right.toList := by
    simp
  obtain ⟨before, behind⟩ := cut_append free right.toList
  unfold splitFirst?
  simp only [chars, before, behind, String.ofList_toList]

/-- **The last cut** falls before a part without separators. -/
theorem splitLast?_append (left : String) (free : separator ∉ right.toList) :
    splitLast? separator (left ++ String.singleton separator ++ right) = some (left, right) := by
  have chars : (left ++ String.singleton separator ++ right).toList.reverse =
      right.toList.reverse ++ separator :: left.toList.reverse := by
    simp
  rw [← List.mem_reverse] at free
  obtain ⟨before, behind⟩ := cut_append free left.toList.reverse
  unfold splitLast?
  simp only [chars, before, behind, List.reverse_reverse, String.ofList_toList]

/-- There is no last cut in a text without separators. -/
theorem splitLast?_eq_none {text : String} (free : separator ∉ text.toList) :
    splitLast? separator text = none := by
  have passed : text.toList.reverse.dropWhile (· != separator) = [] := by
    rw [List.dropWhile_eq_nil_iff]
    intro c inside
    rw [bne_iff_ne]
    rintro rfl
    exact free (List.mem_reverse.mp inside)
  unfold splitLast?
  simp only [passed]

end Separators

theorem Path.fileName_append (directory : String) {name : String} (free : '/' ∉ name.toList) :
    Path.fileName (directory ++ "/" ++ name) = name := by
  unfold Path.fileName
  rw [show "/" = String.singleton '/' from rfl, splitLast?_append directory free]

end ArtifactIndex
