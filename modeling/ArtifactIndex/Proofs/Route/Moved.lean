/-
**The routes of moved code.**

Code that is moved declares the same routes, but for the sites of their declarations. What a call of a
chain gives depends on its name and on the code of its arguments alone; `Link.bare` keeps these and
forgets the rest.

* `links_bare`, `isRouterChain_bare`: the chain of a moved call;
* `GroupAttributes.ofLinks_bare`, `OwnAttributes.ofLinks_bare`: what the calls of a chain give;
* `unplaced_declaredByChain`: the routes that a chain declares;
* `unplaced_routesBelow`: the routes declared at or below a node.
-/

import ArtifactIndex.Proofs.Code.Moved
import ArtifactIndex.Proofs.Route.Chains

namespace ArtifactIndex

namespace Route

/-! ### Chains -/

@[simp]
theorem isRouterCall_bare (call : Node) : isRouterCall call.bare = isRouterCall call := by
  unfold isRouterCall
  rw [Node.callee?_bare]
  cases call.callee? with
  | none => rfl
  | some callee => cases callee <;> simp [Callee.bare]

theorem chainRoot_bare (call : Node) : chainRoot call.bare = (chainRoot call).bare := by
  fun_induction chainRoot call with
  | case1 call alone =>
    have noObject : call.bare.object? = none := by rw [Node.object?_bare, alone, Option.map_none]
    rw [chainRoot]
    split
    · rfl
    · next found => cases noObject.symm.trans found
  | case2 call object found isCall ih =>
    have isObject : call.bare.object? = some object.bare := by
      rw [Node.object?_bare, found, Option.map_some]
    rw [chainRoot_eq isObject (by rwa [Node.isCall_bare]), ih]
  | case3 call object found noCall =>
    have isObject : call.bare.object? = some object.bare := by
      rw [Node.object?_bare, found, Option.map_some]
    rw [chainRoot]
    split
    · rfl
    · next other isOther =>
      cases isObject.symm.trans isOther
      rw [Node.isCall_bare, if_neg noCall]

@[simp]
theorem isRouterChain_bare (call : Node) : isRouterChain call.bare = isRouterChain call := by
  rw [isRouterChain, chainRoot_bare, isRouterCall_bare, isRouterChain]

/-- The name and the arguments of a call without ranges; the call itself is forgotten. -/
def Link.bare (link : Link) : Link :=
  ⟨link.name, .mk .other ⟨0, 0⟩ "" [], link.arguments.map Node.bare⟩

@[simp]
theorem Link.name_bare (link : Link) : link.bare.name = link.name := by
  rw [bare]

@[simp]
theorem Link.arguments_bare (link : Link) : link.bare.arguments = link.arguments.map Node.bare := by
  rw [bare]

/-- **The chain of a moved call.** -/
theorem links_bare (call : Node) : (links call.bare).map Link.bare = (links call).map Link.bare := by
  have same : ∀ (callee : Callee) (call : Node),
      Link.bare ⟨callee.bare.name, call.bare, call.bare.callArguments⟩ =
        Link.bare ⟨callee.name, call, call.callArguments⟩ := by
    intro callee call
    simp [Link.bare]
  induction call using chain_induction with
  | unknown call missing =>
    rw [links_of_callee?_eq_none missing, links_of_callee?_eq_none]
    rw [Node.callee?_bare, missing, Option.map_none]
  | first call callee known alone =>
    have isKnown : call.bare.callee? = some callee.bare := by
      rw [Node.callee?_bare, known, Option.map_some]
    have noObject : call.bare.object? = none := by rw [Node.object?_bare, alone, Option.map_none]
    rw [links_of_object?_eq_none known alone, links_of_object?_eq_none isKnown noObject,
      List.map_singleton, List.map_singleton, same]
  | onward call callee object known found ih =>
    have isKnown : call.bare.callee? = some callee.bare := by
      rw [Node.callee?_bare, known, Option.map_some]
    have isObject : call.bare.object? = some object.bare := by
      rw [Node.object?_bare, found, Option.map_some]
    rw [links_eq_append known found, links_eq_append isKnown isObject, List.map_append, List.map_append,
      ih, List.map_singleton, List.map_singleton, same]

/-- The calls that a meaning names, without ranges. -/
def Meaning.bare : Meaning → Meaning
  | .group before link => .group (before.map Link.bare) link.bare
  | .verb before link behind => .verb (before.map Link.bare) link.bare (behind.map Link.bare)
  | .resource kind before link behind =>
    .resource kind (before.map Link.bare) link.bare (behind.map Link.bare)
  | .neither => .neither

theorem Meaning.ofLinks_bare (chain : List Link) :
    ofLinks (chain.map Link.bare) = (ofLinks chain).bare := by
  unfold ofLinks
  rw [List.takeWhile_map, List.dropWhile_map]
  simp only [Function.comp_def, Link.name_bare]
  cases chain.dropWhile fun link => isScopeOperator link.name with
  | nil => rfl
  | cons link behind =>
    simp only [List.map_cons, Link.name_bare]
    by_cases isGroup : (link.name == "group") = true
    · rw [if_pos isGroup, if_pos isGroup, Meaning.bare]
    · rw [if_neg isGroup, if_neg isGroup]
      cases ResourceKind.ofName? link.name with
      | some kind => rfl
      | none => cases isVerb link.name <;> rfl

/-! ### Attributes -/

section Attributes

/-- A node that may be missing is asked for what does not depend on its place. -/
theorem bind_map_bare {β : Type} (ask : Node → Option β) (same : ∀ node, ask node.bare = ask node)
    (given : Option Node) : (given.map Node.bare).bind ask = given.bind ask := by
  cases given with
  | none => rfl
  | some node => exact same node

theorem map_map_bare {β : Type} (ask : Node → β) (same : ∀ node, ask node.bare = ask node)
    (given : Option Node) : (given.map Node.bare).map ask = given.map ask := by
  cases given with
  | none => rfl
  | some node => exact congrArg some (same node)

variable (link : Link)

theorem GroupAttributes.addLink_bare (group : GroupAttributes) :
    group.addLink link.bare = group.addLink link := by
  simp only [addLink, Link.name_bare, Link.arguments_bare, List.head?_map,
    bind_map_bare Node.literal? Node.literal?_bare, map_map_bare Node.literalList Node.literalList_bare,
    bind_map_bare Node.classOrLiteral? Node.classOrLiteral?_bare]

/-- A fold over calls that looks at names and bare arguments only. -/
theorem foldl_map_bare {State : Type} {add : State → Link → State}
    (same : ∀ state link, add state link.bare = add state link) (state : State) (chain : List Link) :
    (chain.map Link.bare).foldl add state = chain.foldl add state := by
  rw [List.foldl_map]
  simp only [same]

/-- **What the operators of a chain give.** -/
theorem GroupAttributes.ofLinks_bare (chain : List Link) :
    ofLinks (chain.map Link.bare) = ofLinks chain :=
  foldl_map_bare (fun group link => addLink_bare link group) {} chain

theorem GroupAttributes.addArray_bare (group : GroupAttributes) (array : Node) :
    group.addArray array.bare = group.addArray array := by
  simp only [addArray, Node.arrayGetLiteral?_bare, Node.arrayGet?_bare,
    map_map_bare Node.literalList Node.literalList_bare,
    bind_map_bare Node.classOrLiteral? Node.classOrLiteral?_bare]

theorem GroupAttributes.ofGroup_bare (before : List Link) :
    ofGroup (before.map Link.bare) link.bare = ofGroup before link := by
  have arrays : (link.arguments.map Node.bare).filter Node.isArray =
      (link.arguments.filter Node.isArray).map Node.bare :=
    Node.filter_kind_bare (· == .array) link.arguments
  unfold ofGroup
  rw [ofLinks_bare, Link.arguments_bare, arrays, List.foldl_map]
  simp only [addArray_bare]

theorem insertEntries_bare (dict : Dict String) (array : Node) :
    insertEntries dict array.bare = insertEntries dict array := by
  rw [insertEntries, Node.literalEntries_bare, insertEntries]

theorem OwnAttributes.addLink_bare (own : OwnAttributes) : own.addLink link.bare = own.addLink link := by
  simp only [addLink, Link.name_bare, Link.arguments_bare, List.head?_map, List.getElem?_map,
    bind_map_bare Node.literal? Node.literal?_bare, map_map_bare Node.literalList Node.literalList_bare]
  cases link.arguments.head? with
  | none => rfl
  | some first => simp only [Option.map_some, Node.isArray_bare, insertEntries_bare]

/-- **What the calls behind a declaration say.** -/
theorem OwnAttributes.ofLinks_bare (chain : List Link) :
    ofLinks (chain.map Link.bare) = ofLinks chain :=
  foldl_map_bare (fun own link => addLink_bare link own) {} chain

end Attributes

/-! ### Declarations -/

theorem methodOf_bare (verb : String) (arguments : List Node) :
    methodOf verb (arguments.map Node.bare) = methodOf verb arguments := by
  rw [methodOf, List.head?_map, map_map_bare Node.literalList Node.literalList_bare, methodOf]

theorem pathOf_bare (argument : Node) : pathOf argument.bare = pathOf argument := by
  simp only [pathOf, Node.literal?_bare, Node.arrayGetLiteral?_bare]

theorem pairAction?_bare (scope : Scope) (classNode methodNode : Node) :
    pairAction? scope classNode.bare methodNode.bare = pairAction? scope classNode methodNode := by
  simp only [pairAction?, Node.literal?_bare, Node.className?_bare]

/-- The values of an array without keys. -/
theorem unkeyedValues_bare (array : Node) :
    (array.bare.arrayEntries.filter (·.key.isNone)).map (·.value) =
      ((array.arrayEntries.filter (·.key.isNone)).map (·.value)).map Node.bare := by
  rw [Node.arrayEntries_bare, List.filter_map, List.map_map, List.map_map]
  simp only [Function.comp_def, Option.isNone_map]

/-- The action read from an array without the key that names one. -/
def listedAction? (scope : Scope) (argument : Node) : Option String :=
  match (argument.arrayEntries.filter (·.key.isNone)).map (·.value) with
  | classNode :: methodNode :: _ => pairAction? scope classNode methodNode
  | values => if values.any Node.isClosure then some closureAction else none

theorem listedAction?_bare (scope : Scope) (argument : Node) :
    listedAction? scope argument.bare = listedAction? scope argument := by
  unfold listedAction?
  rw [unkeyedValues_bare]
  generalize (argument.arrayEntries.filter (·.key.isNone)).map (·.value) = values
  rcases values with _ | ⟨first, _ | ⟨second, rest⟩⟩
  · rfl
  · simp
  · exact pairAction?_bare scope first second

theorem action?_of_uses {scope : Scope} {argument used : Node} (noClosure : argument.isClosure = false)
    (noClass : argument.className? = none) (noText : argument.literal? = none)
    (found : argument.arrayGet? "uses" = some used) : action? scope argument = action? scope used := by
  rw [action?, if_neg (by rw [noClosure]; exact Bool.false_ne_true), noClass, noText]
  dsimp only
  split
  · next isUsed => cases found.symm.trans isUsed; rfl
  · next missing => cases found.symm.trans missing

theorem action?_of_listed {scope : Scope} {argument : Node} (noClosure : argument.isClosure = false)
    (noClass : argument.className? = none) (noText : argument.literal? = none)
    (missing : argument.arrayGet? "uses" = none) :
    action? scope argument = listedAction? scope argument := by
  rw [action?, if_neg (by rw [noClosure]; exact Bool.false_ne_true), noClass, noText]
  dsimp only
  split
  · next isUsed => cases missing.symm.trans isUsed
  · rfl

/-- **The action of moved code.** By induction on the argument, since an array may name the action under a
key. -/
theorem action?_bare (scope : Scope) (argument : Node) :
    action? scope argument.bare = action? scope argument := by
  by_cases isClosure : argument.isClosure = true
  · rw [action?, if_pos (by rwa [Node.isClosure_bare]), action?, if_pos isClosure]
  have noClosure := Bool.eq_false_iff.mpr isClosure
  cases isClass : argument.className? with
  | some name => simp only [action?, Node.isClosure_bare, noClosure, Node.className?_bare, isClass]
  | none =>
    cases isText : argument.literal? with
    | some text =>
      simp only [action?, Node.isClosure_bare, noClosure, Node.className?_bare, isClass,
        Node.literal?_bare, isText]
    | none =>
      have noClosure' : argument.bare.isClosure = false := by rw [Node.isClosure_bare, noClosure]
      have noClass' : argument.bare.className? = none := by rw [Node.className?_bare, isClass]
      have noText' : argument.bare.literal? = none := by rw [Node.literal?_bare, isText]
      have uses := argument.arrayGet?_bare "uses"
      cases found : argument.arrayGet? "uses" with
      | some used =>
        rw [found, Option.map_some] at uses
        rw [action?_of_uses noClosure' noClass' noText' uses, action?_bare scope used,
          action?_of_uses noClosure isClass isText found]
      | none =>
        rw [found, Option.map_none] at uses
        rw [action?_of_listed noClosure' noClass' noText' uses, listedAction?_bare,
          action?_of_listed noClosure isClass isText found]
termination_by argument.nodeCount
decreasing_by exact Node.nodeCount_lt_of_arrayGet? found

/-- The route without the site of its declaration. -/
def unplaced (route : Route) : Route := { route with declaration := .ofFile "" }

theorem unplaced_declare (scope : Scope) (method rawPath : String) (ownName controller : Option String)
    (own : OwnAttributes) (left right : Site) :
    (scope.declare method rawPath ownName controller own left).unplaced =
      (scope.declare method rawPath ownName controller own right).unplaced := rfl

section Declarations

variable (origin origin' : Origin) (scope : Scope) (link : Link) (behind : List Link)

theorem unplaced_declaredByVerb :
    (declaredByVerb origin scope link behind).unplaced =
      (declaredByVerb origin' scope link.bare (behind.map Link.bare)).unplaced := by
  simp only [declaredByVerb, Link.name_bare, Link.arguments_bare, List.getElem?_map, methodOf_bare,
    OwnAttributes.ofLinks_bare, bind_map_bare pathOf pathOf_bare,
    bind_map_bare (·.arrayGetLiteral? "as") (·.arrayGetLiteral?_bare "as"),
    bind_map_bare (action? scope) (action?_bare scope)]
  exact unplaced_declare ..

theorem unplaced_declaredByResource (kind : ResourceKind) :
    (declaredByResource origin scope kind link behind).map unplaced =
      (declaredByResource origin' scope kind link.bare (behind.map Link.bare)).map unplaced := by
  simp only [declaredByResource, Link.arguments_bare, List.head?_map, List.getElem?_map,
    bind_map_bare Node.literal? Node.literal?_bare,
    bind_map_bare Node.classOrLiteral? Node.classOrLiteral?_bare, OwnAttributes.ofLinks_bare]
  cases link.arguments.head?.bind Node.literal? with
  | none => rfl
  | some resource =>
    simp only [List.map_map]
    exact List.map_congr_left fun action _ => unplaced_declare ..

/-- **The routes that a chain declares** depend on the names and the code of its calls. -/
theorem unplaced_declaredByChain (chain : List Link) :
    (declaredByChain origin scope chain).map unplaced =
      (declaredByChain origin' scope (chain.map Link.bare)).map unplaced := by
  unfold declaredByChain
  rw [Meaning.ofLinks_bare]
  cases Meaning.ofLinks chain with
  | group before link => rfl
  | verb before link behind =>
    simp only [Meaning.bare, GroupAttributes.ofLinks_bare, List.map_singleton]
    rw [unplaced_declaredByVerb origin origin']
  | resource kind before link behind =>
    simp only [Meaning.bare, GroupAttributes.ofLinks_bare]
    exact unplaced_declaredByResource origin origin' _ link behind kind
  | neither => rfl

end Declarations

/-! ### Whole trees -/

theorem closures_bare (link : Link) : link.bare.closures = link.closures.map Node.bare := by
  unfold Link.closures
  rw [Link.arguments_bare]
  exact Node.filter_kind_bare (· == .closure) link.arguments

theorem bodiesOf_bare (chain : List Link) :
    bodiesOf (chain.map Link.bare) = (bodiesOf chain).map Node.bare := by
  unfold bodiesOf
  rw [Meaning.ofLinks_bare]
  cases Meaning.ofLinks chain with
  | group before link => exact closures_bare link
  | verb before link behind => rfl
  | resource kind before link behind => rfl
  | neither =>
    simp only [Meaning.bare, List.flatMap_map, List.map_flatMap, closures_bare]

theorem innerScope_bare (scope : Scope) (chain : List Link) :
    innerScope scope (chain.map Link.bare) = innerScope scope chain := by
  unfold innerScope
  rw [Meaning.ofLinks_bare]
  cases Meaning.ofLinks chain with
  | group before link => simp only [Meaning.bare, GroupAttributes.ofGroup_bare]
  | verb before link behind => rfl
  | resource kind before link behind => rfl
  | neither => rfl

section Walk

variable {origin : Origin} {scope : Scope} {node : Node}

/-- The walk at a chain on the router. -/
theorem routesBelow_of_chain (isCall : node.isCall = true) (isRouter : isRouterChain node = true) :
    routesBelow origin scope node =
      declaredByChain origin scope (links node) ++
        (bodiesOf (links node)).flatMap (routesBelow origin (innerScope scope (links node))) := by
  rw [routesBelow, if_pos (by rw [isCall, isRouter]; rfl)]
  simp

/-- The walk anywhere else. -/
theorem routesBelow_of_other (other : ¬(node.isCall && isRouterChain node) = true) :
    routesBelow origin scope node = node.children.flatMap (routesBelow origin scope) := by
  rw [routesBelow, if_neg other]
  simp

end Walk

/-- Walks over lists of the same code. -/
theorem map_flatMap_eq_of_bare {left right : List Node} {ask ask' : Node → List Route}
    (same : left.map Node.bare = right.map Node.bare)
    (agree : ∀ node ∈ left, ∀ other ∈ right, node.bare = other.bare →
      (ask node).map unplaced = (ask' other).map unplaced) :
    (left.flatMap ask).map unplaced = (right.flatMap ask').map unplaced := by
  induction left generalizing right with
  | nil =>
    rw [List.map_nil, eq_comm, List.map_eq_nil_iff] at same
    rw [same]
    rfl
  | cons node rest ih =>
    obtain ⟨other, others, rfl, isOther, later⟩ := List.map_eq_cons_iff.mp same.symm
    rw [List.flatMap_cons, List.flatMap_cons, List.map_append, List.map_append,
      agree node List.mem_cons_self other List.mem_cons_self isOther.symm,
      ih later.symm fun node listed other isListed =>
        agree node (List.mem_cons_of_mem _ listed) other (List.mem_cons_of_mem _ isListed)]

/-- **Moved code declares the same routes**, in any scope, but for the sites of their declarations. By
induction on the tree: the walk takes the same way through both. -/
theorem unplaced_routesBelow (origin origin' : Origin) (scope : Scope) (node other : Node)
    (same : node.bare = other.bare) :
    (routesBelow origin scope node).map unplaced = (routesBelow origin' scope other).map unplaced := by
  have isCall : other.isCall = node.isCall := by
    rw [← Node.isCall_bare, ← same, Node.isCall_bare]
  have isRouter : isRouterChain other = isRouterChain node := by
    rw [← isRouterChain_bare, ← same, isRouterChain_bare]
  by_cases isChain : (node.isCall && isRouterChain node) = true
  · obtain ⟨call, router⟩ := Bool.and_eq_true_iff.mp isChain
    have chains : (links node).map Link.bare = (links other).map Link.bare := by
      rw [← links_bare, same, links_bare]
    have bodies : (bodiesOf (links node)).map Node.bare = (bodiesOf (links other)).map Node.bare := by
      rw [← bodiesOf_bare, chains, bodiesOf_bare]
    have scopes : innerScope scope (links node) = innerScope scope (links other) := by
      rw [← innerScope_bare, chains, innerScope_bare]
    rw [routesBelow_of_chain call router, routesBelow_of_chain (isCall.trans call) (isRouter.trans router),
      List.map_append, List.map_append, unplaced_declaredByChain origin origin, chains,
      ← unplaced_declaredByChain origin' origin, scopes]
    congr 1
    refine map_flatMap_eq_of_bare bodies fun body listed otherBody _ sameBody => ?_
    exact unplaced_routesBelow origin origin' _ body otherBody sameBody
  · have notOther : ¬(other.isCall && isRouterChain other) = true := by rwa [isCall, isRouter]
    have children : node.children.map Node.bare = other.children.map Node.bare := by
      rw [← Node.children_bare, same, Node.children_bare]
    rw [routesBelow_of_other isChain, routesBelow_of_other notOther]
    refine map_flatMap_eq_of_bare children fun child listed otherChild _ sameChild => ?_
    exact unplaced_routesBelow origin origin' scope child otherChild sameChild
termination_by node.nodeCount
decreasing_by
  · exact nodeCount_lt_of_mem_bodiesOf listed
  · exact Node.nodeCount_lt_of_mem_children listed

end Route

end ArtifactIndex
