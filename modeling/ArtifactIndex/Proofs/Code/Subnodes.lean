/-
**Nodes inside nested rows.**

Questions about a tree pick nodes out of it: some of a node's children, the values of a call's
arguments, the calls of a chain. What is picked out of a nested row in its order is a nested row again.

* `Row.contained`: every node of a nested tree can be traced back to the root;
* `Row.sublist`, `Row.filterMap_child`: some of the nodes, or one child of each;
* `Row.callArguments`: the values of a call's arguments;
* `Row.object`, `Row.behindObject`: the object of a call stands before its arguments.
-/

import ArtifactIndex.Proofs.Code.Nesting

namespace ArtifactIndex

namespace Node

/-- The node is the root, or stands at some depth below it. -/
inductive Contains (root : Node) : Node → Prop
  | itself : Contains root root
  | child {parent node : Node} (above : Contains root parent) (listed : node ∈ parent.children) :
      Contains root node

namespace Row

variable {holds : Node → Prop} {lo hi : Nat} {nodes : List Node} {node : Node}

/-- A property that follows from that of a row's nodes. -/
theorem imp {holds' : Node → Prop} (row : Row holds lo hi nodes)
    (weaken : ∀ node, holds node → holds' node) : Row holds' lo hi nodes := by
  induction row with
  | nil ordered => exact .nil ordered
  | cons behind held _ _ inner later => exact .cons behind (weaken _ held) inner later

/-- All nodes of a row that stands in a tree are contained in the tree. -/
theorem contained {root : Node} (row : Row holds lo hi nodes)
    (above : ∀ node ∈ nodes, root.Contains node) :
    Row (fun node => holds node ∧ root.Contains node) lo hi nodes := by
  induction row with
  | nil ordered => exact .nil ordered
  | cons behind held _ _ inner later =>
    have here := above _ List.mem_cons_self
    refine .cons behind ⟨held, here⟩ (inner fun child listed => here.child listed) ?_
    exact later fun node listed => above node (List.mem_cons_of_mem _ listed)

/-! ### Some of the nodes -/

theorem sublist {fewer : List Node} (row : Row holds lo hi nodes) (part : fewer.Sublist nodes) :
    Row holds lo hi fewer := by
  induction row generalizing fewer with
  | nil ordered =>
    rw [List.sublist_nil.mp part]
    exact .nil ordered
  | cons behind held inner later _ ih =>
    rcases List.sublist_cons_iff.mp part with without | ⟨kept, rfl, rest⟩
    · have := inner.le
      exact (ih without).mono (by omega) (Nat.le_refl _)
    · exact .cons behind held inner (ih rest)

theorem of_mem (row : Row holds lo hi nodes) (listed : node ∈ nodes) : Row holds lo hi [node] :=
  row.sublist (List.singleton_sublist.mpr listed)

theorem holds_of_mem (row : Row holds lo hi nodes) (listed : node ∈ nodes) : holds node :=
  (cons_iff.mp (row.of_mem listed)).2.1

/-- A node in its own range. -/
theorem own (row : Row holds lo hi [node]) : Row holds node.span.start node.span.stop [node] := by
  obtain ⟨-, held, inner, -⟩ := cons_iff.mp row
  exact cons_iff.mpr ⟨Nat.le_refl _, held, inner, .nil (Nat.le_refl _)⟩

/-- The ends of a node in a row. -/
theorem bounds (row : Row holds lo hi [node]) : lo ≤ node.span.start ∧ node.span.stop ≤ hi := by
  obtain ⟨behind, -, -, later⟩ := cons_iff.mp row
  exact ⟨behind, later.le⟩

/-- The children of a node in its place. -/
theorem children (row : Row holds lo hi [node]) : Row holds lo hi node.children := by
  obtain ⟨behind, -, inner, later⟩ := cons_iff.mp row
  exact inner.mono behind later.le

/-- One child of each node, where it is chosen. -/
theorem filterMap_child {choose : Node → Option Node} (row : Row holds lo hi nodes)
    (isChild : ∀ node child, choose node = some child → child ∈ node.children) :
    Row holds lo hi (nodes.filterMap choose) := by
  induction row with
  | nil ordered => exact .nil ordered
  | cons behind held inner later _ ih =>
    rw [List.filterMap_cons]
    split
    · have := inner.le
      exact ih.mono (by omega) (Nat.le_refl _)
    · next child chosen =>
      have here := inner.of_mem (isChild _ child chosen)
      exact (here.mono behind (Nat.le_refl _)).append ih

/-! ### Calls -/

theorem parts (row : Row holds lo hi [node]) : Row holds lo hi node.parts :=
  row.children.sublist List.filter_sublist

/-- The values of the arguments in the place of their list. -/
theorem argumentValues (row : Row holds lo hi [node]) :
    Row holds lo hi ((node.children.filter (·.kind == .argument)).filterMap fun argument =>
      argument.children.getLast?) :=
  (row.children.sublist List.filter_sublist).filterMap_child fun _ _ chosen =>
    List.mem_of_getLast? chosen

/-- **The values of a call's arguments**, in the place of the call. -/
theorem callArguments (row : Row holds lo hi [node]) : Row holds lo hi node.callArguments := by
  unfold Node.callArguments
  split
  · split
    · next given found => exact (row.children.of_mem (List.mem_of_find?_eq_some found)).argumentValues
    · exact .nil row.le
  · exact .nil row.le

/-- The object of a call in the call's place. -/
theorem object {object : Node} (row : Row holds lo hi [node]) (found : node.object? = some object) :
    Row holds lo hi [object] :=
  row.parts.of_mem (object?_mem_parts found)

/-- **The object stands before the arguments.** The list of arguments is the first of its kind among
the parts of a call, and the object is the first part of all. -/
theorem behindObject {object : Node} (row : Row holds lo hi [node])
    (found : node.object? = some object) (isOther : object.kind ≠ .arguments) :
    Row holds lo object.span.stop [object] ∧ Row holds object.span.stop hi node.callArguments := by
  unfold object? at found
  split at found
  · next first rest _ shape =>
    cases found
    have parts := row.parts
    rw [shape] at parts
    obtain ⟨behind, held, inner, later⟩ := cons_iff.mp parts
    refine ⟨cons_iff.mpr ⟨behind, held, inner, .nil (Nat.le_refl _)⟩, ?_⟩
    -- Comments are no lists of arguments, so the search may leave them out.
    have search : node.children.find? (·.kind == .arguments) = rest.find? (·.kind == .arguments) := by
      have among : node.parts.find? (·.kind == .arguments) =
          node.children.find? (·.kind == .arguments) := by
        rw [Node.parts, List.find?_filter]
        congr 1
        funext child
        cases child.kind <;> rfl
      rw [← among, shape, List.find?_cons_of_neg (by simpa using isOther)]
    unfold Node.callArguments
    rw [search]
    split
    · split
      · next given isGiven => exact (later.of_mem (List.mem_of_find?_eq_some isGiven)).argumentValues
      · exact .nil later.le
    · exact .nil later.le
  · cases found

end Row

end Node

end ArtifactIndex
