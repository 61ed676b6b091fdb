/-
**Fluent chains of calls.**

Routes are declared by chains such as `Route::prefix('a')->get('/b', …)->name('c')`. The root of a
chain is its innermost call; a chain belongs to the router when its root is a call on the routing
facade or on the router variable.
-/

import ArtifactIndex.Code.Query

namespace ArtifactIndex

namespace Route

/-- The class, possibly qualified, is the routing facade. -/
def isFacade (scope : String) : Bool :=
  let bare := trimmedStartOf '\\' scope
  bare == "Route" || endsWith "\\Route" bare

/-- The variable that holds the router. -/
def routerVariable : String := "$router"

/-- The call is made on the routing facade or on the router variable. -/
def isRouterCall (call : Node) : Bool :=
  match call.callee? with
  | some (.static scope _) => isFacade scope
  | some (.member object _) => object.kind == .variable && trimmed object.text == routerVariable
  | _ => false

/-- The innermost call of a chain: from a call on an object to that object while it is a call. -/
def chainRoot (call : Node) : Node :=
  match _ : call.object? with
  | none => call
  | some object => if object.isCall then chainRoot object else call
termination_by call.nodeCount
decreasing_by exact Node.nodeCount_lt_of_mem_parts (Node.object?_mem_parts ‹_›)

/-- The call is part of a chain on the router. -/
def isRouterChain (call : Node) : Bool := isRouterCall (chainRoot call)

/-- One call of a chain. -/
structure Link where
  /-- The name of what is called. -/
  name : String
  /-- The call, with the chain up to it as its object. -/
  call : Node
  /-- The values of the arguments. -/
  arguments : List Node

/-- The calls of a chain from the outermost in, as far as each one's callee is known. -/
def linksInward (call : Node) : List Link :=
  match call.callee? with
  | none => []
  | some callee =>
    let link : Link := ⟨callee.name, call, call.callArguments⟩
    match _ : call.object? with
    | none => [link]
    | some object => link :: linksInward object
termination_by call.nodeCount
decreasing_by exact Node.nodeCount_lt_of_mem_parts (Node.object?_mem_parts ‹_›)

/-- The calls of a chain, root first. -/
def links (call : Node) : List Link := (linksInward call).reverse

/-- The functions without names among a call's arguments. -/
def Link.closures (link : Link) : List Node := link.arguments.filter Node.isClosure

theorem nodeCount_lt_of_mem_linksInward {call argument : Node} {link : Link}
    (listed : link ∈ linksInward call) (given : argument ∈ link.arguments) :
    argument.nodeCount < call.nodeCount := by
  fun_induction linksInward call with
  | case1 => cases listed
  | case2 call callee _ head _ =>
    rw [List.mem_singleton.mp listed] at given
    exact Node.nodeCount_lt_of_mem_callArguments given
  | case3 call callee _ head object found ih =>
    rcases List.mem_cons.mp listed with same | inner
    · rw [same] at given
      exact Node.nodeCount_lt_of_mem_callArguments given
    · exact Nat.lt_trans (ih inner) (Node.nodeCount_lt_of_mem_parts (Node.object?_mem_parts found))

theorem nodeCount_lt_of_mem_links {call argument : Node} {link : Link} (listed : link ∈ links call)
    (given : argument ∈ link.arguments) : argument.nodeCount < call.nodeCount :=
  nodeCount_lt_of_mem_linksInward (List.mem_reverse.mp listed) given

end Route

end ArtifactIndex
