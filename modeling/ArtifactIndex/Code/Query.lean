/-
**Questions about syntax trees.**

What a call calls and with which arguments, the entries of an array, the values of literals, and the
places of literals: a `Place` is a node together with the way down to it, so that its surroundings
can be asked for.

* `Node.literals`: the places of all literals, in source order;
* `Node.literalAt?`: the place of the innermost literal over an offset.
-/

import ArtifactIndex.Code.Parser
import ArtifactIndex.Code.Literal

namespace ArtifactIndex

/-- What a call calls. -/
inductive Callee where
  /-- A function by its name, without qualification. -/
  | function (name : String)
  /-- A function of a class. -/
  | static (scope name : String)
  /-- A function of an object. -/
  | member (object : Node) (name : String)

/-- The name of what is called. -/
def Callee.name : Callee → String
  | .function name => name
  | .static _ name => name
  | .member _ name => name

/-- The last part of a qualified name. -/
def shortName (name : String) : String :=
  match splitLast? '\\' (trimmed name) with
  | some (_, short) => short
  | none => trimmed name

/-- An entry of an array. -/
structure ArrayEntry where
  key : Option Node
  value : Node

namespace Node

/-! ### Calls -/

/-- What the node calls; `none` when it is no call, or calls the value of an expression. -/
def callee? (node : Node) : Option Callee :=
  match node.kind, node.parts with
  | .functionCall, function :: _ =>
    if function.kind == .name then some (.function (shortName function.text)) else none
  | .staticCall, scope :: name :: _ =>
    some (.static (trimmedStartOf '\\' (trimmed scope.text)) name.text)
  | .memberCall, object :: name :: _ => some (.member object name.text)
  | _, _ => none

/-- The node that holds the name of a call through a class or on an object. -/
def nameNode? (node : Node) : Option Node :=
  match node.kind, node.parts with
  | .staticCall, _ :: name :: _ => some name
  | .memberCall, _ :: name :: _ => some name
  | _, _ => none

/-- The object of a call on an object. -/
def object? (node : Node) : Option Node :=
  match node.kind, node.parts with
  | .memberCall, object :: _ => some object
  | _, _ => none

theorem object?_mem_parts {node object : Node} (found : node.object? = some object) :
    object ∈ node.parts := by
  unfold object? at found
  split at found
  · next first rest _ shape =>
    rw [shape]
    cases found
    exact List.mem_cons_self
  · cases found

/-- The values of a call's arguments, in the written order. -/
def callArguments (node : Node) : List Node :=
  if node.isCall then
    match node.children.find? (·.kind == .arguments) with
    | some given =>
      (given.children.filter (·.kind == .argument)).filterMap fun argument =>
        argument.children.getLast?
    | none => []
  else []

theorem nodeCount_lt_of_mem_callArguments {call value : Node} (given : value ∈ call.callArguments) :
    value.nodeCount < call.nodeCount := by
  unfold callArguments at given
  split at given
  · split at given
    · next list found =>
      obtain ⟨argument, mem, last⟩ := List.mem_filterMap.mp given
      have inArgument := nodeCount_lt_of_mem_children (List.mem_of_getLast? last)
      have inList := nodeCount_lt_of_mem_children (List.mem_filter.mp mem).1
      have inCall := nodeCount_lt_of_mem_children (List.mem_of_find?_eq_some found)
      omega
    · cases given
  · cases given

/-- The node is a function without a name. -/
def isClosure (node : Node) : Bool := node.kind == .closure

/-! ### Literals and constants -/

/-- The value of a literal; one with embedded code has none. -/
def literal? (node : Node) : Option String :=
  if node.kind == .string && node.children.isEmpty then Literal.unquote? node.text else none

/-- The class named by a constant of the form `Name::class`. -/
def className? (node : Node) : Option String :=
  if node.kind == .classConstant then
    match beforeEnd? "::class" (trimmed node.text) with
    | some name =>
      let name := trimmed name
      if name.isEmpty then none else some (trimmedStartOf '\\' name)
    | none => none
  else none

/-- The class or the literal that a node gives. -/
def classOrLiteral? (node : Node) : Option String :=
  node.className?.orElse fun _ => node.literal?

/-! ### Arrays -/

/-- The node is an array. -/
def isArray (node : Node) : Bool := node.kind == .array

/-- The key and the value of an array's element: with two children or more, the first two. -/
def entry? (element : Node) : Option ArrayEntry :=
  match element.children with
  | [] => none
  | [value] => some ⟨none, value⟩
  | key :: value :: _ => some ⟨some key, value⟩

/-- The entries of an array. -/
def arrayEntries (node : Node) : List ArrayEntry :=
  if node.isArray then (node.children.filter (·.kind == .element)).filterMap entry? else []

/-- The entries of an array whose keys are literals, with the keys' values. -/
def keyedEntries (node : Node) : List (String × Node) :=
  node.arrayEntries.filterMap fun entry =>
    (entry.key.bind literal?).map fun key => (key, entry.value)

/-- The first value under a literal key. -/
def arrayGet? (node : Node) (key : String) : Option Node :=
  node.keyedEntries.lookup key

theorem nodeCount_lt_of_mem_arrayEntries {array : Node} {entry : ArrayEntry}
    (listed : entry ∈ array.arrayEntries) : entry.value.nodeCount < array.nodeCount := by
  unfold arrayEntries at listed
  split at listed
  · obtain ⟨element, mem, read⟩ := List.mem_filterMap.mp listed
    have inArray := nodeCount_lt_of_mem_children (List.mem_filter.mp mem).1
    have inElement : entry.value ∈ element.children := by
      unfold entry? at read
      split at read
      · cases read
      · next shape =>
        cases read
        simp [shape]
      · next shape =>
        cases read
        simp [shape]
    have := nodeCount_lt_of_mem_children inElement
    omega
  · cases listed

theorem nodeCount_lt_of_mem_keyedEntries {array : Node} {entry : String × Node}
    (listed : entry ∈ array.keyedEntries) : entry.2.nodeCount < array.nodeCount := by
  obtain ⟨found, mem, read⟩ := List.mem_filterMap.mp listed
  obtain ⟨key, _, rfl⟩ := Option.map_eq_some_iff.mp read
  exact nodeCount_lt_of_mem_arrayEntries mem

theorem mem_of_lookup_eq_some {α : Type} {key : String} {value : α} {entries : List (String × α)}
    (found : entries.lookup key = some value) : (key, value) ∈ entries := by
  induction entries with
  | nil => cases found
  | cons entry rest ih =>
    obtain ⟨name, held⟩ := entry
    rw [List.lookup_cons] at found
    split at found
    · next same =>
      cases found
      rw [eq_of_beq same]
      exact List.mem_cons_self
    · exact List.mem_cons_of_mem _ (ih found)

theorem nodeCount_lt_of_arrayGet? {array value : Node} {key : String}
    (found : array.arrayGet? key = some value) : value.nodeCount < array.nodeCount :=
  nodeCount_lt_of_mem_keyedEntries (mem_of_lookup_eq_some found)

/-- The first value under a literal key, when it is a literal. -/
def arrayGetLiteral? (node : Node) (key : String) : Option String :=
  (node.arrayGet? key).bind literal?

/-- A literal alone, or the literals among the values of an array. -/
def literalList (node : Node) : List String :=
  match node.literal? with
  | some value => [value]
  | none => node.arrayEntries.filterMap fun entry => entry.value.literal?

/-- The entries of an array that are literals under literal keys. -/
def literalEntries (node : Node) : List (String × String) :=
  node.keyedEntries.filterMap fun entry => entry.2.literal?.map fun value => (entry.1, value)

/-- The array that a program returns: the first one among its own return statements. -/
def returnedArray? (program : Node) : Option Node :=
  program.children.findSome? fun statement =>
    if statement.kind == .returnStatement then statement.children.find? isArray else none

end Node

/-! ### Places -/

/-- One step on the way down to a node: a parent, and which of its children comes next. -/
structure Descent where
  parent : Node
  index : Nat

/-- A node and the way down to it, nearest step first. -/
structure Place where
  node : Node
  trail : List Descent

namespace Place

/-- The place of the node's parent. -/
def up? (place : Place) : Option Place :=
  match place.trail with
  | [] => none
  | step :: rest => some ⟨step.parent, rest⟩

/-- Which child of its parent the node is. -/
def indexInParent (place : Place) : Nat :=
  match place.trail with
  | [] => 0
  | step :: _ => step.index

/-- The array that the node is a key or a value of, and whether it is a key. -/
def enclosingArray? (place : Place) : Option (Place × Bool) :=
  match place.up? with
  | none => none
  | some element =>
    if element.node.kind != .element then none
    else
      match element.up? with
      | none => none
      | some array =>
        if array.node.isArray then
          some (array, element.node.children.length ≥ 2 && place.indexInParent == 0)
        else none

/-- The call that the node is an argument of, and the argument's position. -/
def enclosingCall? (place : Place) : Option (Place × Nat) :=
  match place.up? with
  | none => none
  | some argument =>
    if argument.node.kind != .argument then none
    else
      match argument.up? with
      | none => none
      | some given =>
        if given.node.kind != .arguments then none
        else
          match given.up? with
          | none => none
          | some call =>
            if call.node.isCall then
              let before := given.node.children.take argument.indexInParent
              some (call, (before.filter (·.kind == .argument)).length)
            else none

theorem up?_trail {place above : Place} (found : place.up? = some above) :
    above.trail.length < place.trail.length := by
  unfold up? at found
  split at found
  · cases found
  · next shape =>
    cases found
    simp [shape]

theorem enclosingArray?_trail {place array : Place} {isKey : Bool}
    (found : place.enclosingArray? = some (array, isKey)) :
    array.trail.length < place.trail.length := by
  unfold enclosingArray? at found
  split at found
  · cases found
  · next element first =>
    split at found
    · cases found
    · split at found
      · cases found
      · next second =>
        split at found
        · cases found
          exact Nat.lt_trans (up?_trail second) (up?_trail first)
        · cases found

/-- The outermost array around the node, through arrays only; the node itself when there is none.
Also whether there is one. -/
def outermostArray (place : Place) : Place × Bool :=
  match _ : place.enclosingArray? with
  | none => (place, false)
  | some (array, _) => (array.outermostArray.1, true)
termination_by place.trail.length
decreasing_by exact enclosingArray?_trail ‹_›

end Place

namespace Node

mutual

/-- The places of the literals at or below a node, in source order; a literal's own embedded code is
not searched. -/
def literalsFrom (trail : List Descent) : Node → List Place
  | .mk kind span text children =>
    if kind == .string then [⟨.mk kind span text children, trail⟩]
    else literalsAmong (.mk kind span text children) trail 0 children

/-- The places of the literals among the children of a node, from a position on. -/
def literalsAmong (parent : Node) (trail : List Descent) (index : Nat) : List Node → List Place
  | [] => []
  | child :: rest =>
    literalsFrom (⟨parent, index⟩ :: trail) child ++ literalsAmong parent trail (index + 1) rest

end

/-- The places of all literals of a tree, in source order. -/
def literals (root : Node) : List Place := root.literalsFrom []

mutual

/-- The innermost literal over an offset, at or below a node whose range holds the offset. -/
def literalBelow? (offset : Nat) (trail : List Descent) : Node → Option Place
  | .mk kind span text children =>
    match literalBelowAny? offset (.mk kind span text children) trail 0 children with
    | some found => some found
    | none => if kind == .string then some ⟨.mk kind span text children, trail⟩ else none

/-- The innermost literal over an offset below the child that holds it. -/
def literalBelowAny? (offset : Nat) (parent : Node) (trail : List Descent) (index : Nat) :
    List Node → Option Place
  | [] => none
  | child :: rest =>
    if child.span.covers offset then literalBelow? offset (⟨parent, index⟩ :: trail) child
    else literalBelowAny? offset parent trail (index + 1) rest

end

/-- The innermost literal over an offset. -/
def literalAt? (root : Node) (offset : Nat) : Option Place :=
  root.literalBelow? offset []

end Node

end ArtifactIndex
