/-
**Nested ranges.**

A row of nodes is nested when the nodes stand one behind the other and the children of each form a
nested row inside its range.

* `Row.adoptAmong`: a comment that no node's end cuts through can be put in;
* `Row.withTexts`: texts do not matter to nesting;
* `Row.literalBelowAny?_eq_some`: in a nested row, each place of a literal is the one that is found over
  the offsets of its range.
-/

import ArtifactIndex.Code.Query

namespace ArtifactIndex

theorem Span.covers_iff {span : Span} {offset : Nat} :
    span.covers offset = true ↔ span.start ≤ offset ∧ offset < span.stop := by
  rw [covers, Bool.and_eq_true, decide_eq_true_eq, decide_eq_true_eq]

namespace Node

/-- **Nested rows.** The nodes stand between two offsets in their order, each satisfies a property, and
the children of each form such a row inside its range. -/
inductive Row (holds : Node → Prop) : Nat → Nat → List Node → Prop
  | nil {lo hi : Nat} (ordered : lo ≤ hi) : Row holds lo hi []
  | cons {lo hi : Nat} {kind : NodeKind} {span : Span} {text : String} {children rest : List Node}
      (behind : lo ≤ span.start) (held : holds (.mk kind span text children))
      (inner : Row holds span.start span.stop children) (later : Row holds span.stop hi rest) :
      Row holds lo hi (.mk kind span text children :: rest)

namespace Row

variable {holds : Node → Prop} {lo hi mid : Nat} {nodes : List Node}

theorem le (row : Row holds lo hi nodes) : lo ≤ hi := by
  induction row with
  | nil ordered => exact ordered
  | cons behind _ _ _ inner later => omega

theorem cons_iff {node : Node} {rest : List Node} :
    Row holds lo hi (node :: rest) ↔ lo ≤ node.span.start ∧ holds node ∧
      Row holds node.span.start node.span.stop node.children ∧ Row holds node.span.stop hi rest := by
  constructor
  · rintro (_ | ⟨behind, held, inner, later⟩)
    exact ⟨behind, held, inner, later⟩
  · cases node
    rintro ⟨behind, held, inner, later⟩
    exact .cons behind held inner later

/-- A row alone in a larger room. -/
theorem mono {lo' hi' : Nat} (row : Row holds lo hi nodes) (below : lo' ≤ lo) (above : hi ≤ hi') :
    Row holds lo' hi' nodes := by
  induction row generalizing lo' with
  | nil ordered => exact .nil (by omega)
  | cons behind held inner _ _ later =>
    exact .cons (by omega) held inner (later (Nat.le_refl _) above)

theorem append {more : List Node} (row : Row holds lo mid nodes) (further : Row holds mid hi more) :
    Row holds lo hi (nodes ++ more) := by
  induction row with
  | nil ordered => exact further.mono ordered (Nat.le_refl _)
  | cons behind held inner _ _ later => exact .cons behind held inner (later further)

/-! ### Comments -/

theorem adoptAmong_ne_nil (comment : Node) (nodes : List Node) : adoptAmong comment nodes ≠ [] := by
  cases nodes with
  | nil => simp [Node.adoptAmong]
  | cons node rest =>
    rw [Node.adoptAmong]
    split
    · exact List.cons_ne_nil _ _
    · split
      · exact List.cons_ne_nil _ _
      · exact List.cons_ne_nil _ _

/-- **A comment among nested nodes.** No node's end lies inside the comment, so that it stands inside
one of them or between two. -/
theorem adoptAmong {span : Span} {text : String} (row : Row holds lo hi nodes)
    (after : lo ≤ span.start) (ordered : span.start ≤ span.stop) (before : span.stop ≤ hi)
    (held : holds (.mk .comment span text []))
    (apart : ∀ node, holds node →
      (node.span.start ≤ span.start ∨ span.stop ≤ node.span.start) ∧
        (node.span.stop ≤ span.start ∨ span.stop ≤ node.span.stop))
    (grown : ∀ kind outer label children, holds (.mk kind outer label children) →
      holds (.mk kind outer label (Node.adoptAmong (.mk .comment span text []) children))) :
    Row holds lo hi (Node.adoptAmong (.mk .comment span text []) nodes) := by
  induction row with
  | nil _ =>
    rw [Node.adoptAmong]
    exact .cons after held (.nil ordered) (.nil before)
  | cons behind heldToo inner later innerGrown laterGrown =>
    rename_i outer label children rest
    obtain ⟨atStart, atStop⟩ := apart _ heldToo
    rw [Node.adoptAmong]
    split
    · next inside =>
      rw [Node.adopt]
      exact .cons behind (grown _ _ _ _ heldToo) (innerGrown inside.1 inside.2) later
    · next outside =>
      split
      · next early => exact .cons after held (.nil ordered) (.cons early heldToo inner later)
      · next late =>
        -- The node starts at or before the comment and does not hold it, so it ends before it.
        simp only [Node.span] at outside late atStart atStop
        exact .cons behind heldToo inner (laterGrown (by omega) before)

/-! ### Texts -/

theorem withTexts {source : String} {holds' : Node → Prop} (row : Row holds lo hi nodes)
    (read : ∀ node, holds node → holds' (node.withText source)) :
    Row holds' lo hi (Node.withTexts source nodes) := by
  induction row with
  | nil ordered =>
    rw [Node.withTexts]
    exact .nil ordered
  | cons behind held _ _ inner later =>
    have heldToo := read _ held
    rw [Node.withText] at heldToo
    rw [Node.withTexts, Node.withText]
    exact .cons behind heldToo inner later

/-! ### Places -/

variable {parent : Node} {trail : List Descent} {index : Nat} {place : Place}

/-- A literal below a nested row stands in the room of the row. -/
theorem of_mem_literalsAmong (row : Row holds lo hi nodes)
    (listed : place ∈ literalsAmong parent trail index nodes) :
    lo ≤ place.node.span.start ∧ place.node.span.start ≤ place.node.span.stop ∧
      place.node.span.stop ≤ hi ∧ holds place.node := by
  induction row generalizing parent trail index with
  | nil _ => simp [literalsAmong] at listed
  | cons behind held inner later below ahead =>
    rw [literalsAmong, List.mem_append] at listed
    rcases listed with here | further
    · rw [literalsFrom] at here
      split at here
      · rw [List.mem_singleton.mp here]
        exact ⟨behind, inner.le, later.le, held⟩
      · obtain ⟨start, ordered, stop, heldToo⟩ := below here
        have := later.le
        exact ⟨by omega, ordered, by omega, heldToo⟩
    · obtain ⟨start, ordered, stop, heldToo⟩ := ahead further
      have := inner.le
      exact ⟨by omega, ordered, stop, heldToo⟩

/-- **Places are found by their offsets.** Over each offset of a literal without embedded code, the
search from above ends at that literal. -/
theorem literalBelowAny?_eq_some {offset : Nat} (row : Row holds lo hi nodes)
    (listed : place ∈ literalsAmong parent trail index nodes) (bare : place.node.children = [])
    (start : place.node.span.start ≤ offset) (stop : offset < place.node.span.stop) :
    literalBelowAny? offset parent trail index nodes = some place := by
  induction row generalizing parent trail index with
  | nil _ => simp [literalsAmong] at listed
  | @cons _ _ kind span text children rest behind held inner later below ahead =>
    rw [literalsAmong, List.mem_append] at listed
    rw [literalBelowAny?]
    show (if span.covers offset = true then _ else _) = _
    rcases listed with here | further
    · rw [literalsFrom] at here
      split at here
      · next isString =>
        -- The literal itself: it has no children in which the search could go on.
        cases List.mem_singleton.mp here
        cases (show children = [] from bare)
        have covered : span.covers offset = true := Span.covers_iff.mpr ⟨start, stop⟩
        rw [if_pos covered, literalBelow?, literalBelowAny?]
        simp only [isString, if_true]
      · obtain ⟨startInside, _, stopInside, _⟩ := inner.of_mem_literalsAmong here
        have covered : span.covers offset = true := by
          rw [Span.covers_iff]
          omega
        rw [if_pos covered, literalBelow?, below here]
    · obtain ⟨startBehind, _, _, _⟩ := later.of_mem_literalsAmong further
      have uncovered : ¬ span.covers offset = true := by
        rw [Span.covers_iff]
        omega
      rw [if_neg uncovered]
      exact ahead further

end Row

end Node

end ArtifactIndex
