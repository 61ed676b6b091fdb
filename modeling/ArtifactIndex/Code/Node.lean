/-
**Syntax trees.**

A tree is made of nodes with a kind, a range of bytes, the text of that range and children in source
order. Comments are nodes too and sit where they are written: a comment between two children of a
node is a child of that node.

* `Node.adopt`: puts a comment into the innermost node around it;
* `Node.withText`: gives every node the text of its range.
-/

import ArtifactIndex.Text.Basic

namespace ArtifactIndex

/-- What a node is; constructs that no rule of this library asks about are `other`. -/
inductive NodeKind where
  | program
  | returnStatement
  /-- A call of a function or of any other value. -/
  | functionCall
  /-- A call through a class. -/
  | staticCall
  /-- A call on an object, also one that gives nothing for a missing object. -/
  | memberCall
  | arguments
  | argument
  | array
  /-- An entry of an array: its value, or its key and its value. -/
  | element
  /-- A literal in quotes; embedded code makes its children. -/
  | string
  | classConstant
  /-- A function without a name. -/
  | closure
  | name
  | variable
  /-- A comment, or text between two pieces of code. -/
  | comment
  | other
deriving Repr, DecidableEq

/-- A node of a syntax tree. -/
inductive Node where
  | mk (kind : NodeKind) (span : Span) (text : String) (children : List Node)
deriving Repr

namespace Node

/-- The node's kind. -/
def kind : Node → NodeKind
  | mk kind _ _ _ => kind

/-- The node's range of bytes. -/
def span : Node → Span
  | mk _ span _ _ => span

/-- The text of the node's range. -/
def text : Node → String
  | mk _ _ text _ => text

/-- The node's children, comments included. -/
def children : Node → List Node
  | mk _ _ _ children => children

/-- The node's children without comments. -/
def parts (node : Node) : List Node :=
  node.children.filter (·.kind != .comment)

/-- The node is any call. -/
def isCall (node : Node) : Bool :=
  node.kind == .functionCall || node.kind == .staticCall || node.kind == .memberCall

/-! ### Sizes -/

mutual

/-- The number of nodes of a tree. Every walk over a tree comes to an end by it. -/
def nodeCount : Node → Nat
  | mk _ _ _ children => nodeCountAmong children + 1

/-- The number of nodes of trees one after another. -/
def nodeCountAmong : List Node → Nat
  | [] => 0
  | node :: rest => nodeCount node + nodeCountAmong rest

end

theorem nodeCount_le_of_mem {child : Node} {nodes : List Node} (mem : child ∈ nodes) :
    child.nodeCount ≤ nodeCountAmong nodes := by
  induction mem with
  | head rest => exact Nat.le_add_right _ _
  | tail other _ ih => exact Nat.le_trans ih (Nat.le_add_left _ _)

theorem nodeCount_lt_of_mem_children {node child : Node} (mem : child ∈ node.children) :
    child.nodeCount < node.nodeCount := by
  cases node with
  | mk kind span text children => exact Nat.lt_succ_of_le (nodeCount_le_of_mem mem)

theorem nodeCount_lt_of_mem_parts {node child : Node} (mem : child ∈ node.parts) :
    child.nodeCount < node.nodeCount :=
  nodeCount_lt_of_mem_children (List.mem_filter.mp mem).1

/-! ### Comments -/

mutual

/-- The tree with a comment in the innermost node whose range holds it. -/
def adopt (comment : Node) : Node → Node
  | mk kind span text children => mk kind span text (adoptAmong comment children)

/-- The children with a comment inside the one that holds it, or in its place between them. -/
def adoptAmong (comment : Node) : List Node → List Node
  | [] => [comment]
  | child :: rest =>
    if child.span.start ≤ comment.span.start ∧ comment.span.stop ≤ child.span.stop then
      adopt comment child :: rest
    else if comment.span.stop ≤ child.span.start then comment :: child :: rest
    else child :: adoptAmong comment rest

end

/-! ### Texts -/

mutual

/-- The tree with the text of each node's range. -/
def withText (source : String) : Node → Node
  | mk kind span _ children => mk kind span (textOf source span) (withTexts source children)

/-- The nodes with the texts of their ranges. -/
def withTexts (source : String) : List Node → List Node
  | [] => []
  | node :: rest => withText source node :: withTexts source rest

end

end Node

end ArtifactIndex
