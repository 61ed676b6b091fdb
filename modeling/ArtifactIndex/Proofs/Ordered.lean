/-
**Sorted lists, and lists without repeats.**

* `sortBy_perm`, `pairwise_sortBy`: sorting rearranges a list, and its result is in order;
* `ascending_eq_ascendingDistinct`: texts that are listed once are in order what any list of them is, each once;
* `nodup_eraseDups`, `findSome?_eraseDups`: each member is left once, and the first of them that gives something
  is still the first;
* `exists_find?_reverse`, `exists_find?_reverse_of_pairwise`: the last member that passes a test.
-/

import ArtifactIndex.Ordered
import Mathlib.Data.List.Perm.Basic
import Mathlib.Data.String.Basic

namespace ArtifactIndex

variable {α : Type}

/-! ### Sorting -/

section Sorting

variable {atMost : α → α → Bool}

theorem insertBy_perm (value : α) (list : List α) :
    (insertBy atMost value list).Perm (value :: list) := by
  fun_induction insertBy atMost value list with
  | case1 => exact .refl _
  | case2 => exact .refl _
  | case3 other rest _ ih => exact (ih.cons other).trans (.swap value other rest)

/-- Sorting rearranges a list. -/
theorem sortBy_perm (list : List α) : (sortBy atMost list).Perm list := by
  induction list with
  | nil => exact .refl _
  | cons value rest ih => exact (insertBy_perm value _).trans (ih.cons value)

/-- A value put at its place leaves a list in order. -/
theorem pairwise_insertBy (total : ∀ left right, atMost left right = false → atMost right left = true)
    (trans : ∀ first second third, atMost first second = true → atMost second third = true →
      atMost first third = true)
    (value : α) {list : List α} (sorted : list.Pairwise fun left right => atMost left right = true) :
    (insertBy atMost value list).Pairwise fun left right => atMost left right = true := by
  induction list with
  | nil => exact List.pairwise_singleton ..
  | cons other rest ih =>
    obtain ⟨first, later⟩ := List.pairwise_cons.mp sorted
    unfold insertBy
    split
    · next below =>
      refine List.pairwise_cons.mpr ⟨fun member listed => ?_, sorted⟩
      rcases List.mem_cons.mp listed with rfl | behind
      · exact below
      · exact trans value other member below (first member behind)
    · next above =>
      refine List.pairwise_cons.mpr ⟨fun member listed => ?_, ih later⟩
      rcases (mem_insertBy atMost value member rest).mp listed with rfl | behind
      · exact total member other (Bool.eq_false_iff.mpr above)
      · exact first member behind

/-- **The result of sorting is in order**, when the order is total and transitive. -/
theorem pairwise_sortBy (total : ∀ left right, atMost left right = false → atMost right left = true)
    (trans : ∀ first second third, atMost first second = true → atMost second third = true →
      atMost first third = true) (list : List α) :
    (sortBy atMost list).Pairwise fun left right => atMost left right = true := by
  induction list with
  | nil => exact .nil
  | cons value rest ih => exact pairwise_insertBy total trans value ih

end Sorting

/-- Sorting by a text puts the texts in order. -/
theorem pairwise_sortBy_text (text : α → String) (list : List α) :
    (sortBy (fun left right => !(text right < text left)) list).Pairwise
      fun left right => text left ≤ text right := by
  have sorted : (sortBy (fun left right => !(text right < text left)) list).Pairwise
      fun left right => (!(text right < text left : Bool)) = true := by
    refine pairwise_sortBy ?_ ?_ list
    · intro left right above
      rw [Bool.not_eq_false', decide_eq_true_eq] at above
      rw [Bool.not_eq_true', decide_eq_false_iff_not]
      exact above.asymm
    · intro first second third below further
      rw [Bool.not_eq_true', decide_eq_false_iff_not, not_lt] at below further ⊢
      exact below.trans further
  apply sorted.imp
  intro left right atMost
  rw [Bool.not_eq_true', decide_eq_false_iff_not] at atMost
  exact not_lt.mp atMost

theorem pairwise_ascending (texts : List String) : (ascending texts).Pairwise (· ≤ ·) :=
  pairwise_sortBy_text id texts

/-! ### Repeats -/

/-- **Without repeats** each member is left once. By induction on the length, since the rest is
filtered before it is gone on with. -/
theorem nodup_eraseDups [BEq α] [LawfulBEq α] (list : List α) : list.eraseDups.Nodup := by
  match list with
  | [] => exact .nil
  | first :: rest =>
    have shorter : (rest.filter fun other => !other == first).length < (first :: rest).length :=
      Nat.lt_succ_of_le (List.length_filter_le ..)
    rw [List.eraseDups_cons, List.nodup_cons, List.mem_eraseDups, List.mem_filter]
    refine ⟨fun again => ?_, nodup_eraseDups _⟩
    simp at again
termination_by list.length
decreasing_by exact shorter

/-- **Texts that are listed once** are in order what any list of the same texts is, each once. -/
theorem ascending_eq_ascendingDistinct {texts others : List String} (once : texts.Nodup)
    (members : ∀ text, text ∈ texts ↔ text ∈ others) : ascending texts = ascendingDistinct others := by
  have rearranged : (ascending texts).Perm (ascendingDistinct others) := by
    refine (sortBy_perm texts).trans (List.Perm.trans ?_ (sortBy_perm _).symm)
    refine (List.perm_ext_iff_of_nodup once (nodup_eraseDups others)).mpr fun text => ?_
    rw [members, List.mem_eraseDups]
  exact rearranged.eq_of_pairwise (fun _ _ _ _ below above => le_antisymm below above)
    (pairwise_ascending texts) (pairwise_ascending _)

/-- The members that give nothing may be left out. -/
theorem findSome?_filter {β : Type} (find : α → Option β) (keep : α → Bool) {list : List α}
    (dropped : ∀ member ∈ list, keep member = false → find member = none) :
    (list.filter keep).findSome? find = list.findSome? find := by
  induction list with
  | nil => rfl
  | cons first rest ih =>
    obtain ⟨isDropped, later⟩ := List.forall_mem_cons.mp dropped
    cases kept : keep first with
    | true => rw [List.filter_cons_of_pos kept, List.findSome?_cons, List.findSome?_cons, ih later]
    | false =>
      rw [List.filter_cons_of_neg (by rw [kept]; exact Bool.false_ne_true), List.findSome?_cons, isDropped kept,
        ih later]

/-- **Without repeats** the first member that gives something is the same. -/
theorem findSome?_eraseDups {β : Type} [BEq α] [LawfulBEq α] (find : α → Option β) (list : List α) :
    list.eraseDups.findSome? find = list.findSome? find := by
  match list with
  | [] => rfl
  | first :: rest =>
    have shorter : (rest.filter fun other => !other == first).length < (first :: rest).length :=
      Nat.lt_succ_of_le (List.length_filter_le ..)
    rw [List.eraseDups_cons, List.findSome?_cons, List.findSome?_cons, findSome?_eraseDups find (rest.filter _)]
    cases found : find first with
    | some value => rfl
    | none =>
      refine findSome?_filter find _ fun member _ isFirst => ?_
      rw [Bool.not_eq_false', beq_iff_eq] at isFirst
      rw [isFirst, found]
termination_by list.length
decreasing_by exact shorter

/-! ### Last members -/

section Last

variable {list : List α} {member : α}

/-- The last member that passes a test, where one does. -/
theorem exists_find?_reverse (test : α → Bool) (listed : member ∈ list) (passes : test member = true) :
    ∃ found ∈ list, list.reverse.find? test = some found ∧ test found = true := by
  obtain ⟨found, isFound⟩ := Option.isSome_iff_exists.mp
    (List.find?_isSome.mpr ⟨member, List.mem_reverse.mpr listed, passes⟩)
  exact ⟨found, List.mem_reverse.mp (List.mem_of_find?_eq_some isFound), isFound, List.find?_some isFound⟩

/-- **In a list in order** all others that pass stand before the last one. -/
theorem exists_find?_reverse_of_pairwise (test : α → Bool) {before : α → α → Prop}
    (sorted : list.Pairwise before) (listed : member ∈ list) (passes : test member = true) :
    ∃ found ∈ list, list.reverse.find? test = some found ∧ test found = true ∧
      ∀ other ∈ list, test other = true → other = found ∨ before other found := by
  obtain ⟨found, isListed, isFound, hasPassed⟩ := exists_find?_reverse test listed passes
  refine ⟨found, isListed, isFound, hasPassed, fun other isOther otherPasses => ?_⟩
  obtain ⟨-, behind, ahead, shape, failed⟩ := List.find?_eq_some_iff_append.mp isFound
  have whole : list = ahead.reverse ++ found :: behind.reverse := by
    rw [← List.reverse_reverse list, shape]
    simp
  rw [whole] at isOther sorted
  rcases List.mem_append.mp isOther with isAhead | isRest
  · exact .inr ((List.pairwise_append.mp sorted).2.2 other isAhead found List.mem_cons_self)
  · rcases List.mem_cons.mp isRest with same | isBehind
    · exact .inl same
    · have fails := failed other (List.mem_reverse.mp isBehind)
      rw [otherPasses] at fails
      cases fails

end Last

end ArtifactIndex
