/-
**Places of literals.**

A place holds a node and the way down to it. The places that are listed for a tree are those of the
tree, and in a program they stand one behind the other.

* `Place.InTree`: each step of the way goes from a node to one of its children;
* `inTree_of_mem_literals`, `mem_literalsFrom_of_child`: the listed places;
* `IsTreeOf.pairwise_literals`: the ranges of a program's literals stand in order;
* `IsTreeOf.eq_of_span_eq`: so the range of a literal with a value tells its place.
-/

import ArtifactIndex.Proofs.Code.Literals

namespace ArtifactIndex

/-- **Places of a tree.** The way down starts at the root, and each of its steps goes from a node to the
child at the step's index. -/
inductive Place.InTree (root : Node) : Place → Prop
  | root : InTree root ⟨root, []⟩
  | child {parent node : Node} {trail : List Descent} {index : Nat} (above : InTree root ⟨parent, trail⟩)
      (found : parent.children[index]? = some node) : InTree root ⟨node, ⟨parent, index⟩ :: trail⟩

/-- The place above one of a tree, in which the node is the child at its index. -/
theorem Place.InTree.up? {root : Node} {place above : Place} (inTree : place.InTree root)
    (found : place.up? = some above) :
    above.InTree root ∧ above.node.children[place.indexInParent]? = some place.node := by
  cases inTree with
  | root => cases found
  | child inTree isChild =>
    cases found
    exact ⟨inTree, isChild⟩

namespace Node

/-! ### Listed places -/

variable {root : Node} {place : Place}

mutual

theorem inTree_of_mem_literalsFrom (node : Node) {trail : List Descent}
    (inTree : Place.InTree root ⟨node, trail⟩) (listed : place ∈ node.literalsFrom trail) : place.InTree root := by
  match node with
  | .mk kind span text children =>
    rw [literalsFrom] at listed
    split at listed
    · rw [List.mem_singleton.mp listed]
      exact inTree
    · refine inTree_of_mem_literalsAmong children 0 inTree (fun index => ?_) listed
      rw [Nat.zero_add]
      rfl

theorem inTree_of_mem_literalsAmong {parent : Node} (nodes : List Node) (index : Nat)
    {trail : List Descent} (inTree : Place.InTree root ⟨parent, trail⟩)
    (placed : ∀ offset, parent.children[index + offset]? = nodes[offset]?)
    (listed : place ∈ literalsAmong parent trail index nodes) : place.InTree root := by
  match nodes with
  | [] =>
    rw [literalsAmong] at listed
    cases listed
  | node :: rest =>
    rw [literalsAmong, List.mem_append] at listed
    rcases listed with here | further
    · exact inTree_of_mem_literalsFrom node (.child inTree (placed 0)) here
    · refine inTree_of_mem_literalsAmong rest (index + 1) inTree (fun offset => ?_) further
      rw [Nat.add_right_comm]
      exact placed (offset + 1)

end

/-- **The places of a tree's literals** are places of the tree. -/
theorem inTree_of_mem_literals (listed : place ∈ root.literals) : place.InTree root :=
  inTree_of_mem_literalsFrom root .root listed

theorem mem_literalsAmong {parent child : Node} {trail : List Descent} {nodes : List Node}
    {index offset : Nat}
    (found : nodes[offset]? = some child)
    (listed : place ∈ child.literalsFrom (⟨parent, index + offset⟩ :: trail)) :
    place ∈ literalsAmong parent trail index nodes := by
  induction nodes generalizing index offset with
  | nil => cases found
  | cons node rest ih =>
    rw [literalsAmong, List.mem_append]
    cases offset with
    | zero =>
      cases found
      exact .inl listed
    | succ offset =>
      refine .inr (ih found ?_)
      rwa [Nat.add_right_comm]

/-- The literals below a child are listed for its parent, unless the parent is a literal itself. -/
theorem mem_literalsFrom_of_child {parent child : Node} {index : Nat} {trail : List Descent}
    (noString : parent.kind ≠ .string) (found : parent.children[index]? = some child)
    (listed : place ∈ child.literalsFrom (⟨parent, index⟩ :: trail)) :
    place ∈ parent.literalsFrom trail := by
  cases parent with
  | mk kind span text children =>
    have noLiteral : ¬(kind == .string) = true := by
      rwa [beq_iff_eq]
    rw [literalsFrom, if_neg noLiteral]
    refine mem_literalsAmong found ?_
    rwa [Nat.zero_add]

/-! ### Literals of a program -/

/-- The literals below a nested row stand one behind the other. -/
theorem Row.pairwise_literalsAmong {holds : Node → Prop} {lo hi : Nat} {nodes : List Node}
    {parent : Node} {trail : List Descent} {index : Nat} (row : Row holds lo hi nodes) :
    (literalsAmong parent trail index nodes).Pairwise fun first second =>
      first.node.span.stop ≤ second.node.span.start := by
  induction row generalizing parent trail index with
  | nil _ =>
    rw [literalsAmong]
    exact .nil
  | cons behind held inner later below ahead =>
    rw [literalsAmong, List.pairwise_append]
    refine ⟨?_, ahead, fun first isFirst second isSecond => ?_⟩
    · rw [literalsFrom]
      split
      · exact List.pairwise_singleton ..
      · exact below
    · have := (later.of_mem_literalsAmong isSecond).1
      rw [literalsFrom] at isFirst
      split at isFirst
      · rw [List.mem_singleton.mp isFirst]
        exact this
      · have := (inner.of_mem_literalsAmong isFirst).2.2.1
        omega

variable {source value : String} {first second : Place}

/-- **The literals of a program** stand one behind the other. -/
theorem IsTreeOf.pairwise_literals (isTree : root.IsTreeOf source) :
    root.literals.Pairwise fun first second => first.node.span.stop ≤ second.node.span.start := by
  rw [isTree.literals_eq]
  exact isTree.row.pairwise_literalsAmong

/-- Two literals of a program over the same range are one, if one of them has a value. -/
theorem IsTreeOf.eq_of_span_eq (isTree : root.IsTreeOf source) (isFirst : first ∈ root.literals)
    (isSecond : second ∈ root.literals) (hasValue : second.node.literal? = some value)
    (same : first.node.span = second.node.span) : first = second := by
  by_contra differ
  have nonempty := (isTree.exact_of_mem_literals isSecond hasValue).1
  obtain ⟨before, behind, split⟩ := List.append_of_mem isFirst
  have apart := isTree.pairwise_literals
  rw [split] at isSecond apart
  obtain ⟨-, fromFirst, toFirst⟩ := List.pairwise_append.mp apart
  rcases List.mem_append.mp isSecond with isBefore | isBehind
  · have := toFirst second isBefore first List.mem_cons_self
    rw [same] at this
    omega
  · rcases List.mem_cons.mp isBehind with equal | isBehind
    · exact differ equal.symm
    · have := (List.pairwise_cons.mp fromFirst).1 second isBehind
      rw [same] at this
      omega

end Node

end ArtifactIndex
