/-
**Fragments tile their template.**

The scan of a template succeeds on every text and its fragments stand side by side. Each of them has a map
from offsets of its program to offsets of the template and one back.

* `Fragment.CutFrom.isCopyOf`: the piece of a fragment reads the same in its program and in the template;
* `Fragment.mapsBothWays`: the two maps of a fragment are inverse to each other;
* `Fragment.atMostOne_of_pairwise`: fragments that stand apart have no offset in common;
* `fragments_tile`: all of this for the fragments of any text.
-/

import ArtifactIndex.Proofs.Template.ByteScan

namespace ArtifactIndex

namespace Fragment

/-- The fragment's piece is a slice of its program and the same slice of the template. -/
def IsCopyOf (template : String) (fragment : Fragment) : Prop :=
  ∃ piece, checkedSlice? fragment.code fragment.lead (fragment.lead + fragment.length) = some piece ∧
    checkedSlice? template fragment.start (fragment.start + fragment.length) = some piece

theorem CutFrom.isCopyOf {template : String} {fragment : Fragment} (cut : fragment.CutFrom template.toList) :
    fragment.IsCopyOf template := by
  obtain ⟨ahead, content, after, opening, closing, split, code, starts, lasts, leads⟩ := cut.shape
  refine ⟨String.ofList content, ?_, ?_⟩
  · rw [leads, lasts]
    exact checkedSlice?_middle (by rw [code, String.toList_ofList])
  · rw [starts, lasts]
    exact checkedSlice?_middle split

/-- **The two maps of a fragment are inverse to each other**, between the offsets of its piece in the program
and in the template, with both ends; they give nothing outside. -/
structure MapsBothWays (fragment : Fragment) : Prop where
  inverse : ∀ inCode inTemplate,
    fragment.toTemplate? inCode = some inTemplate ↔ fragment.toCode? inTemplate = some inCode
  inCode : ∀ offset, (fragment.toTemplate? offset).isSome ↔
    fragment.lead ≤ offset ∧ offset ≤ fragment.lead + fragment.length
  inTemplate : ∀ offset, (fragment.toCode? offset).isSome ↔
    fragment.start ≤ offset ∧ offset ≤ fragment.start + fragment.length

theorem toCode?_eq_some {fragment : Fragment} {offset inCode : Nat} :
    fragment.toCode? offset = some inCode ↔
      (fragment.start ≤ offset ∧ offset ≤ fragment.start + fragment.length) ∧
        inCode = fragment.lead + (offset - fragment.start) := by
  rw [toCode?, Option.ite_none_right_eq_some, Option.some.injEq, eq_comm (a := inCode)]

theorem mapsBothWays (fragment : Fragment) : fragment.MapsBothWays where
  inverse inCode inTemplate := by
    rw [toTemplate?_eq_some, toCode?_eq_some]
    omega
  inCode offset := by
    rw [toTemplate?, Option.isSome_ite]
  inTemplate offset := by
    rw [toCode?, Option.isSome_ite]

/-- Fragments that stand apart have no offset of the template in common. -/
theorem atMostOne_of_pairwise {found : List Fragment}
    (apart : found.Pairwise fun earlier later => earlier.start + earlier.length < later.start)
    (offset : Nat) : (found.filter fun fragment => (fragment.toCode? offset).isSome).length ≤ 1 := by
  have kept : ∀ fragment ∈ found.filter fun fragment => (fragment.toCode? offset).isSome,
      fragment.start ≤ offset ∧ offset ≤ fragment.start + fragment.length :=
    fun fragment isKept => (fragment.mapsBothWays.inTemplate offset).mp (List.mem_filter.mp isKept).2
  have apart := apart.filter fun fragment => (fragment.toCode? offset).isSome
  generalize found.filter (fun fragment => (fragment.toCode? offset).isSome) = both at kept apart
  match both with
  | [] => exact Nat.zero_le 1
  | [_] => exact Nat.le_refl 1
  | earlier :: later :: _ =>
    have := List.rel_of_pairwise_cons apart List.mem_cons_self
    have := kept earlier List.mem_cons_self
    have := kept later (List.mem_cons_of_mem _ List.mem_cons_self)
    omega

end Fragment

/-- **The fragments tile the template.** -/
structure Tiles (template : String) (found : List Fragment) : Prop where
  /-- Each fragment is a copy of its place in the template. -/
  copied : ∀ fragment ∈ found, fragment.IsCopyOf template
  /-- There is a gap between a fragment and all later ones. -/
  apart : found.Pairwise fun earlier later => earlier.start + earlier.length < later.start
  /-- An offset of the template stands in one fragment at most. -/
  atMostOne : ∀ offset, (found.filter fun fragment => (fragment.toCode? offset).isSome).length ≤ 1
  mapped : ∀ fragment ∈ found, fragment.MapsBothWays

/-- **The scan succeeds on every text and tiles it.** It ends, without a slice outside the boundaries, with
one list of fragments, and these tile the text. -/
theorem fragments_tile (template : String) :
    (∀ found, Template.ByteScan template 0 found ↔ found = fragments template) ∧
      Tiles template (fragments template) where
  left _ := byteScan_iff
  right :=
    { copied := fun _ isMember => (cutFrom_of_mem_fragments isMember).isCopyOf
      apart := pairwise_fragments template
      atMostOne := Fragment.atMostOne_of_pairwise (pairwise_fragments template)
      mapped := fun fragment _ => fragment.mapsBothWays }

end ArtifactIndex
