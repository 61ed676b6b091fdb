/-
**Where a needle stands in a text.**

A needle stands in a list when it is a contiguous part of it. A character that the needle does not have
divides the list: the needle stands on one side of it.

* `isPartOf_iff_isInfix`: what the search answers;
* `isInfix_append_cons_iff`: the two sides of a character that the needle does not have;
* `isInfix_dropEndWhile_iff`: a needle without blanks does not need the blanks at the end.
-/

import ArtifactIndex.Text.Basic
import Mathlib.Data.List.Infix
import Mathlib.Data.List.TakeWhile

namespace ArtifactIndex

variable {needle : List Char}

/-- **The search finds contiguous parts.** -/
theorem isPartOf_iff_isInfix {chars : List Char} : isPartOf needle chars = true ↔ needle <:+: chars := by
  induction chars with
  | nil => simp [isPartOf]
  | cons c rest ih =>
    rw [isPartOf, Bool.or_eq_true, List.isPrefixOf_iff_prefix, ih, List.infix_cons_iff]

/-- A beginning of a list ends before a character that it does not have. -/
theorem isPrefix_of_append_cons {mark : Char} (apart : mark ∉ needle) {left right : List Char}
    (begins : needle <+: left ++ mark :: right) : needle <+: left := by
  have upTo : left ++ [mark] <+: left ++ mark :: right := ⟨right, by simp⟩
  rcases List.prefix_or_prefix_of_prefix begins upTo with shorter | longer
  · rcases List.prefix_concat_iff.mp shorter with rfl | before
    · exact absurd (by simp) apart
    · exact before
  · exact absurd (longer.subset (by simp)) apart

/-- **A character that the needle does not have divides the list.** -/
theorem isInfix_append_cons_iff {mark : Char} (apart : mark ∉ needle) {left right : List Char} :
    needle <:+: left ++ mark :: right ↔ needle <:+: left ∨ needle <:+: right := by
  constructor
  · intro inside
    induction left with
    | nil =>
      rcases List.infix_cons_iff.mp inside with begins | behind
      · have atStart : needle <+: [] := isPrefix_of_append_cons apart begins
        exact .inl atStart.isInfix
      · exact .inr behind
    | cons c left ih =>
      rw [List.cons_append] at inside
      rcases List.infix_cons_iff.mp inside with begins | behind
      · have atStart : needle <+: c :: left := isPrefix_of_append_cons apart begins
        exact .inl atStart.isInfix
      · exact (ih behind).imp_left List.infix_cons
  · rintro (inLeft | inRight)
    · exact inLeft.trans (List.prefix_append left _).isInfix
    · exact inRight.trans ((List.suffix_cons mark right).trans (List.suffix_append left _)).isInfix

/-- Nothing is found in characters that the needle does not have. -/
theorem not_isInfix_of_apart (given : needle ≠ []) {chars : List Char} (apart : ∀ c ∈ chars, c ∉ needle) :
    ¬needle <:+: chars := by
  intro inside
  obtain ⟨c, rest, rfl⟩ := List.exists_cons_of_ne_nil given
  exact apart c (inside.subset List.mem_cons_self) List.mem_cons_self

/-- **A needle without blanks does not need the blanks at the end.** -/
theorem isInfix_dropEndWhile_iff {test : Char → Bool} (given : needle ≠ [])
    (fails : ∀ c ∈ needle, test c = false) {chars : List Char} :
    needle <:+: dropEndWhile test chars ↔ needle <:+: chars := by
  have dropped : ∀ c ∈ chars.reverse.takeWhile test, c ∉ needle := by
    intro c inside isNeedle
    have passes := List.mem_takeWhile_imp inside
    rw [fails c isNeedle] at passes
    cases passes
  have shape : chars = dropEndWhile test chars ++ (chars.reverse.takeWhile test).reverse := by
    rw [dropEndWhile, ← List.reverse_append, List.takeWhile_append_dropWhile, List.reverse_reverse]
  constructor
  · intro inside
    rw [shape]
    exact inside.trans (List.prefix_append _ _).isInfix
  · intro inside
    rw [shape] at inside
    cases ends : (chars.reverse.takeWhile test).reverse with
    | nil => rwa [ends, List.append_nil] at inside
    | cons c rest =>
      have apart : ∀ d ∈ c :: rest, d ∉ needle := by
        intro d listed
        exact dropped d (List.mem_reverse.mp (ends ▸ listed))
      rw [ends, isInfix_append_cons_iff (apart c List.mem_cons_self)] at inside
      refine inside.resolve_right ?_
      exact not_isInfix_of_apart given fun d listed => apart d (List.mem_cons_of_mem c listed)

end ArtifactIndex
