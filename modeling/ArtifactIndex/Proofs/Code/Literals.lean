/-
**The literals of a program.**

A parser gives a tree for a program. What this library proves of programs needs little of it: the nodes
stand in source order, children inside their parents, with the texts of their ranges, and a literal has
the exact range of its quotes. This is all that is asked of a tree here, and it says nothing about the
grammar that the parser follows.

* `IsTreeOf`: what is asked of the tree of a program;
* `exact_of_mem_literals`: a literal with a value is a body between quotes, and its range that of the
  quotes;
* `literalAt?_eq_some`: over each offset of such a literal, that literal is found.
-/

import ArtifactIndex.Proofs.Code.Nesting
import ArtifactIndex.Proofs.Code.Quotation

namespace ArtifactIndex

namespace Node

/-- The node's ends stand between characters, it has the text of its range, and a literal without
embedded code is not padded. -/
structure ReadFrom (source : String) (node : Node) : Prop where
  start : Boundary source node.span.start
  stop : Boundary source node.span.stop
  text : node.text = textOf source node.span
  bare : node.kind = .string → node.children = [] → Unpadded source node.span

/-- **What is asked of the tree of a program.** The root is a program, and below it stands a nested row of
nodes that were read from the source. -/
structure IsTreeOf (source : String) (root : Node) : Prop where
  kind : root.kind = .program
  row : Row (ReadFrom source) 0 (byteLength source) root.children

/-! ### Places -/

variable {source value : String} {root : Node} {place : Place}

theorem bare_of_literal? {node : Node} (found : node.literal? = some value) :
    node.kind = .string ∧ node.children = [] ∧ Literal.unquote? node.text = some value := by
  unfold literal? at found
  split at found
  · next isBare =>
    rw [Bool.and_eq_true, beq_iff_eq, List.isEmpty_iff] at isBare
    exact ⟨isBare.1, isBare.2, found⟩
  · cases found

/-- The literals of a program stand below it. -/
theorem IsTreeOf.literals_eq (isTree : root.IsTreeOf source) :
    root.literals = literalsAmong root [] 0 root.children := by
  obtain ⟨kind, span, text, children⟩ := root
  cases isTree.kind
  rfl

/-- **Literals have exact ranges.** A literal with a value is a body between quotes. -/
theorem IsTreeOf.exact_of_mem_literals (isTree : root.IsTreeOf source) (listed : place ∈ root.literals)
    (found : place.node.literal? = some value) :
    place.node.span.start < place.node.span.stop ∧ place.node.span.stop ≤ byteLength source ∧
      ∃ text body, slice? source place.node.span.start place.node.span.stop = some text ∧
        IsQuoted text body ∧ Literal.unquote? text = some value := by
  rw [isTree.literals_eq] at listed
  obtain ⟨_, ordered, inside, read⟩ := isTree.row.of_mem_literalsAmong listed
  obtain ⟨isString, empty, hasValue⟩ := bare_of_literal? found
  obtain ⟨text, isSlice, length⟩ := read.start.exists_slice read.stop ordered
  have isText : textOf source place.node.span = text := by
    rw [textOf, isSlice]
    rfl
  rw [read.text, isText] at hasValue
  obtain ⟨body, quoted⟩ := Literal.unquote?_isQuoted hasValue
  have unpadded := read.bare isString empty value
  rw [isText] at unpadded
  rw [unpadded hasValue] at quoted
  have nonempty := quoted.byteLength_pos
  exact ⟨by omega, inside, text, body, isSlice, quoted, hasValue⟩

/-- The search for the literal over an offset of a program goes on below it. -/
theorem IsTreeOf.literalAt?_eq (isTree : root.IsTreeOf source) (offset : Nat) :
    root.literalAt? offset = literalBelowAny? offset root [] 0 root.children := by
  obtain ⟨kind, span, text, children⟩ := root
  cases isTree.kind
  rw [literalAt?, literalBelow?]
  split
  · next found => exact found.symm
  · next none => exact none.symm

/-- **Literals are found by their offsets.** -/
theorem IsTreeOf.literalAt?_eq_some {offset : Nat} (isTree : root.IsTreeOf source)
    (listed : place ∈ root.literals) (found : place.node.literal? = some value)
    (covered : place.node.span.covers offset) : root.literalAt? offset = some place := by
  rw [isTree.literals_eq] at listed
  obtain ⟨_, empty, _⟩ := bare_of_literal? found
  rw [Span.covers_iff] at covered
  rw [isTree.literalAt?_eq]
  exact isTree.row.literalBelowAny?_eq_some listed empty covered.1 covered.2

end Node

end ArtifactIndex
