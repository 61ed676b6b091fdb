/-
**Lists in order.**

Answers list keys and sites in a fixed order, whatever order they were found in.

* `sortBy`: the members of a list in ascending order, equal ones in their old order;
* `ascending`, `ascendingDistinct`: texts in order of their code points, which is also that of their
  UTF-8 bytes;
* `mem_sortBy`: sorting keeps the members.
-/

namespace ArtifactIndex

variable {α : Type}

/-- The list with a value before the first member that is not below it. -/
def insertBy (atMost : α → α → Bool) (value : α) : List α → List α
  | [] => [value]
  | other :: rest =>
    if atMost value other then value :: other :: rest else other :: insertBy atMost value rest

/-- The members in ascending order; of equal members the earlier one comes first. -/
def sortBy (atMost : α → α → Bool) : List α → List α
  | [] => []
  | value :: rest => insertBy atMost value (sortBy atMost rest)

/-- Texts in ascending order. -/
def ascending (texts : List String) : List String :=
  sortBy (fun left right => !(right < left)) texts

/-- Texts in ascending order, each once. -/
def ascendingDistinct (texts : List String) : List String :=
  ascending texts.eraseDups

@[simp]
theorem mem_insertBy (atMost : α → α → Bool) (value member : α) (list : List α) :
    member ∈ insertBy atMost value list ↔ member = value ∨ member ∈ list := by
  induction list with
  | nil => simp [insertBy]
  | cons other rest ih =>
    simp only [insertBy]
    split
    · simp
    · simp only [List.mem_cons, ih]
      constructor
      · rintro (same | same | old)
        · exact .inr (.inl same)
        · exact .inl same
        · exact .inr (.inr old)
      · rintro (same | same | old)
        · exact .inr (.inl same)
        · exact .inl same
        · exact .inr (.inr old)

/-- Sorting keeps the members. -/
@[simp]
theorem mem_sortBy (atMost : α → α → Bool) (member : α) (list : List α) :
    member ∈ sortBy atMost list ↔ member ∈ list := by
  induction list with
  | nil => simp [sortBy]
  | cons value rest ih => simp [sortBy, ih]

@[simp]
theorem mem_ascending (text : String) (texts : List String) :
    text ∈ ascending texts ↔ text ∈ texts := mem_sortBy _ _ _

end ArtifactIndex
