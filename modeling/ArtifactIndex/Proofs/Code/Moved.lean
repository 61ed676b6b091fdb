/-
**The same code in another place.**

Code that is moved keeps its nodes and their texts; only the ranges change. `Node.bare` forgets all
ranges, so two nodes hold the same code just when they are equal without them. No question about a tree
looks at a range: what is asked of a bare tree is the bare answer.

* `Node.bare_bare`: ranges are forgotten once;
* `Node.callee?_bare`, `Node.callArguments_bare`: calls;
* `Node.keyedEntries_bare`, `Node.literalList_bare`: arrays and literals;
* `Node.outerCalls`: the calls of a tree that stand in no other call.
-/

import ArtifactIndex.Code.Query

namespace ArtifactIndex

namespace Node

mutual

/-- The tree without ranges. -/
def bare : Node → Node
  | mk kind _ text children => mk kind ⟨0, 0⟩ text (bareAll children)

/-- The trees without ranges. -/
def bareAll : List Node → List Node
  | [] => []
  | node :: rest => bare node :: bareAll rest

end

theorem bareAll_eq_map (nodes : List Node) : bareAll nodes = nodes.map bare := by
  induction nodes with
  | nil => rfl
  | cons node rest ih => rw [bareAll, ih, List.map_cons]

variable (node : Node)

@[simp]
theorem kind_bare : node.bare.kind = node.kind := by
  cases node
  rw [bare]
  rfl

@[simp]
theorem text_bare : node.bare.text = node.text := by
  cases node
  rw [bare]
  rfl

@[simp]
theorem children_bare : node.bare.children = node.children.map bare := by
  cases node with
  | mk kind span text inner =>
    rw [bare, Node.children, Node.children, bareAll_eq_map]

/-- Two nodes with the same kind, text and children, and no ranges. -/
theorem eq_of_bare {left right : Node} (kinds : left.kind = right.kind) (texts : left.text = right.text)
    (children : left.children.map bare = right.children.map bare) : left.bare = right.bare := by
  cases left with
  | mk kind span text inner =>
    cases right with
    | mk kind' span' text' inner' =>
      cases kinds
      cases texts
      rw [bare, bare, bareAll_eq_map, bareAll_eq_map]
      exact congrArg _ children

/-- **Ranges are forgotten once.** -/
@[simp]
theorem bare_bare (node : Node) : node.bare.bare = node.bare := by
  refine eq_of_bare (kind_bare node) (text_bare node) ?_
  rw [children_bare, List.map_map]
  refine List.map_congr_left fun child _ => ?_
  exact bare_bare child
termination_by node.nodeCount
decreasing_by exact nodeCount_lt_of_mem_children ‹_›

/-! ### Calls -/

@[simp]
theorem isCall_bare : node.bare.isCall = node.isCall := by
  rw [isCall, kind_bare, isCall]

@[simp]
theorem isClosure_bare : node.bare.isClosure = node.isClosure := by
  rw [isClosure, kind_bare, isClosure]

@[simp]
theorem isArray_bare : node.bare.isArray = node.isArray := by
  rw [isArray, kind_bare, isArray]

/-- A choice among the children by their kinds. -/
theorem filter_kind_bare (test : NodeKind → Bool) (nodes : List Node) :
    (nodes.map bare).filter (fun child => test child.kind) =
      (nodes.filter fun child => test child.kind).map bare := by
  rw [List.filter_map]
  congr 2
  funext child
  rw [Function.comp_apply, kind_bare]

@[simp]
theorem parts_bare : node.bare.parts = node.parts.map bare := by
  rw [parts, children_bare, filter_kind_bare (· != .comment), parts]

end Node

/-- The callee without ranges. -/
def Callee.bare : Callee → Callee
  | .function name => .function name
  | .static scope name => .static scope name
  | .member object name => .member object.bare name

@[simp]
theorem Callee.name_bare (callee : Callee) : callee.bare.name = callee.name := by
  cases callee <;> rfl

namespace Node

variable (node : Node)

@[simp]
theorem callee?_bare : node.bare.callee? = node.callee?.map Callee.bare := by
  unfold callee?
  rw [kind_bare, parts_bare]
  generalize node.kind = kind
  rcases node.parts with _ | ⟨first, _ | ⟨second, rest⟩⟩ <;>
    cases kind <;> simp [Callee.bare, apply_ite]

@[simp]
theorem object?_bare : node.bare.object? = node.object?.map bare := by
  unfold object?
  rw [kind_bare, parts_bare]
  generalize node.kind = kind
  rcases node.parts with _ | ⟨first, rest⟩ <;> cases kind <;> rfl

/-- **The arguments of a call.** -/
@[simp]
theorem callArguments_bare : node.bare.callArguments = node.callArguments.map bare := by
  unfold callArguments
  rw [isCall_bare, children_bare]
  split
  · have found : (node.children.map bare).find? (·.kind == .arguments) =
        (node.children.find? (·.kind == .arguments)).map bare := by
      rw [List.find?_map]
      congr 2
      funext child
      rw [Function.comp_apply, kind_bare]
    rw [found]
    cases node.children.find? (·.kind == .arguments) with
    | none => rfl
    | some given =>
      dsimp only [Option.map_some]
      rw [children_bare, filter_kind_bare (· == .argument), List.filterMap_map, List.map_filterMap]
      congr 1
      funext argument
      rw [Function.comp_apply, children_bare, List.getLast?_map]
  · rfl

/-! ### Literals and arrays -/

@[simp]
theorem literal?_bare : node.bare.literal? = node.literal? := by
  rw [literal?, kind_bare, children_bare, text_bare, List.isEmpty_map, literal?]

@[simp]
theorem className?_bare : node.bare.className? = node.className? := by
  rw [className?, kind_bare, text_bare, className?]

@[simp]
theorem classOrLiteral?_bare : node.bare.classOrLiteral? = node.classOrLiteral? := by
  rw [classOrLiteral?, className?_bare, literal?_bare, classOrLiteral?]

theorem entry?_bare :
    node.bare.entry? = node.entry?.map fun entry => ⟨entry.key.map bare, entry.value.bare⟩ := by
  unfold entry?
  rw [children_bare]
  rcases node.children with _ | ⟨first, _ | ⟨second, rest⟩⟩ <;> rfl

@[simp]
theorem arrayEntries_bare :
    node.bare.arrayEntries =
      node.arrayEntries.map fun entry => ⟨entry.key.map bare, entry.value.bare⟩ := by
  unfold arrayEntries
  rw [isArray_bare, children_bare]
  split
  · rw [filter_kind_bare (· == .element), List.filterMap_map, List.map_filterMap]
    congr 1
    funext element
    exact entry?_bare element
  · rfl

/-- **The entries of an array.** -/
@[simp]
theorem keyedEntries_bare :
    node.bare.keyedEntries = node.keyedEntries.map fun entry => (entry.1, entry.2.bare) := by
  unfold keyedEntries
  rw [arrayEntries_bare, List.filterMap_map, List.map_filterMap]
  congr 1
  funext entry
  cases entry with
  | mk key value => cases key <;> simp [Function.comp_def]

theorem lookup_map_bare (key : String) (entries : List (String × Node)) :
    (entries.map fun entry => (entry.1, entry.2.bare)).lookup key = (entries.lookup key).map bare := by
  induction entries with
  | nil => rfl
  | cons entry rest ih =>
    rw [List.map_cons, List.lookup_cons, List.lookup_cons, ih]
    split <;> rfl

@[simp]
theorem arrayGet?_bare (key : String) : node.bare.arrayGet? key = (node.arrayGet? key).map bare := by
  rw [arrayGet?, keyedEntries_bare, lookup_map_bare, arrayGet?]

@[simp]
theorem arrayGetLiteral?_bare (key : String) :
    node.bare.arrayGetLiteral? key = node.arrayGetLiteral? key := by
  rw [arrayGetLiteral?, arrayGet?_bare, arrayGetLiteral?]
  cases node.arrayGet? key with
  | none => rfl
  | some value => exact literal?_bare value

@[simp]
theorem literalList_bare : node.bare.literalList = node.literalList := by
  rw [literalList, literal?_bare, arrayEntries_bare, List.filterMap_map, literalList]
  simp only [Function.comp_def, literal?_bare]

@[simp]
theorem literalEntries_bare : node.bare.literalEntries = node.literalEntries := by
  rw [literalEntries, keyedEntries_bare, List.filterMap_map, literalEntries]
  simp only [Function.comp_def, literal?_bare]

/-! ### Outer calls -/

mutual

/-- The calls of a tree that stand in no other call, in source order. -/
def outerCalls : Node → List Node
  | mk kind span text children =>
    if (mk kind span text children).isCall then [mk kind span text children]
    else outerCallsAmong children

/-- The same for trees one after another. -/
def outerCallsAmong : List Node → List Node
  | [] => []
  | node :: rest => outerCalls node ++ outerCallsAmong rest

end

theorem outerCalls_of_isCall {node : Node} (isCall : node.isCall = true) : node.outerCalls = [node] := by
  cases node with
  | mk kind span text children => rw [outerCalls, if_pos isCall]

theorem outerCalls_of_not_isCall {node : Node} (noCall : node.isCall = false) :
    node.outerCalls = node.children.flatMap outerCalls := by
  have among : ∀ nodes : List Node, outerCallsAmong nodes = nodes.flatMap outerCalls := by
    intro nodes
    induction nodes with
    | nil => rfl
    | cons first rest ih => rw [outerCallsAmong, ih, List.flatMap_cons]
  cases node with
  | mk kind span text children =>
    rw [outerCalls, if_neg (by rw [noCall]; exact Bool.false_ne_true), among]
    rfl

theorem isCall_of_mem_outerCalls {node call : Node} (listed : call ∈ node.outerCalls) :
    call.isCall = true := by
  by_cases isCall : node.isCall = true
  · rw [outerCalls_of_isCall isCall, List.mem_singleton] at listed
    rw [listed, isCall]
  · rw [outerCalls_of_not_isCall (Bool.eq_false_iff.mpr isCall), List.mem_flatMap] at listed
    obtain ⟨child, isChild, listed⟩ := listed
    exact isCall_of_mem_outerCalls listed
termination_by node.nodeCount
decreasing_by exact nodeCount_lt_of_mem_children isChild

end Node

end ArtifactIndex
