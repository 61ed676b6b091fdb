/-
**Routes declared by a program.**

`routesOf` walks a tree from the top. A chain on the router either opens a group, declares a route or
the routes of a resource, or does neither; functions given to a group are walked in the group's
scope, functions given to any other chain in the scope around it. Everything else is walked through.

* `Meaning.ofLinks`: what a chain of calls does;
* `routesBelow`: the routes declared at or below a node, in source order.
-/

import ArtifactIndex.Route.Chain
import ArtifactIndex.Route.Scope
import ArtifactIndex.Route.Resource
import ArtifactIndex.Text.Lines

namespace ArtifactIndex

namespace Route

/-! ### What a chain does -/

/-- Methods that declare a route for the request method of the same name. -/
def verbs : List String := ["get", "post", "put", "patch", "delete", "options", "any", "match"]

/-- The call declares a route. -/
def isVerb (name : String) : Bool :=
  verbs.contains (lowered name) || ["view", "redirect", "permanentRedirect"].contains name

/-- The call may stand before a declaration or a group and gives it an attribute. -/
def isScopeOperator (name : String) : Bool :=
  ["prefix", "name", "as", "middleware", "withoutMiddleware", "domain", "namespace",
    "controller"].contains name

/-- What a chain of calls on the router does. -/
inductive Meaning where
  /-- Opens a group, with the calls before the one that opens it. -/
  | group (before : List Link) (link : Link)
  /-- Declares one route, with the calls before and behind the declaring one. -/
  | verb (before : List Link) (link : Link) (behind : List Link)
  /-- Declares the routes of a resource. -/
  | resource (kind : ResourceKind) (before : List Link) (link : Link) (behind : List Link)
  /-- Neither. -/
  | neither
deriving Inhabited

/-- The first call that is no scope operator decides. -/
def Meaning.ofLinks (links : List Link) : Meaning :=
  let before := links.takeWhile fun link => isScopeOperator link.name
  match links.dropWhile fun link => isScopeOperator link.name with
  | [] => .neither
  | link :: behind =>
    if link.name == "group" then .group before link
    else
      match ResourceKind.ofName? link.name with
      | some kind => .resource kind before link behind
      | none => if isVerb link.name then .verb before link behind else .neither

/-! ### Attributes -/

/-- A name part behind those already given. -/
def extendName (given : Option String) (name : String) : String :=
  match given with
  | some outer => joinNames outer name
  | none => name

/-- The attributes with what one scope operator gives: names and middleware add up, for the others
the last call counts. -/
def GroupAttributes.addLink (group : GroupAttributes) (link : Link) : GroupAttributes :=
  let first := link.arguments.head?
  let text := first.bind Node.literal?
  match link.name with
  | "prefix" => { group with pathPrefix := text.orElse fun _ => group.pathPrefix }
  | "name" => { group with name := (text.map (extendName group.name)).orElse fun _ => group.name }
  | "as" => { group with name := (text.map (extendName group.name)).orElse fun _ => group.name }
  | "middleware" =>
    { group with middleware := group.middleware ++ (first.map Node.literalList).getD [] }
  | "domain" => { group with domain := text.orElse fun _ => group.domain }
  | "namespace" => { group with namespaceName := text.orElse fun _ => group.namespaceName }
  | "controller" =>
    { group with controller := (first.bind Node.classOrLiteral?).orElse fun _ => group.controller }
  | _ => group

/-- The attributes with those of an array given to a group. -/
def GroupAttributes.addArray (group : GroupAttributes) (array : Node) : GroupAttributes :=
  { pathPrefix :=
      ((array.arrayGetLiteral? "prefix").map fun inner =>
        match group.pathPrefix with
        | some outer => joinPrefix outer inner
        | none => inner).orElse fun _ => group.pathPrefix
    name := ((array.arrayGetLiteral? "as").map (extendName group.name)).orElse fun _ => group.name
    middleware :=
      group.middleware ++ ((array.arrayGet? "middleware").map Node.literalList).getD []
    domain := (array.arrayGetLiteral? "domain").orElse fun _ => group.domain
    namespaceName := (array.arrayGetLiteral? "namespace").orElse fun _ => group.namespaceName
    controller :=
      ((array.arrayGet? "controller").bind Node.classOrLiteral?).orElse fun _ => group.controller }

/-- The attributes that scope operators give together. -/
def GroupAttributes.ofLinks (links : List Link) : GroupAttributes :=
  links.foldl GroupAttributes.addLink {}

/-- The attributes of a group: those of the operators before it and of the arrays given to it. -/
def GroupAttributes.ofGroup (before : List Link) (link : Link) : GroupAttributes :=
  (link.arguments.filter Node.isArray).foldl GroupAttributes.addArray (ofLinks before)

/-- The constraints with one for a parameter, when both are literals. -/
def constrain (constraints : Dict String) (key value : Option String) : Dict String :=
  match key, value with
  | some key, some value => constraints.insert key value
  | _, _ => constraints

/-- The entries of an array of literals, set one after another. -/
def insertEntries (dict : Dict String) (array : Node) : Dict String :=
  array.literalEntries.foldl (fun dict entry => dict.insert entry.1 entry.2) dict

/-- The attributes with what one call behind the declaring one says. -/
def OwnAttributes.addLink (own : OwnAttributes) (link : Link) : OwnAttributes :=
  let first := link.arguments.head?
  let text := first.bind Node.literal?
  let list := (first.map Node.literalList).getD []
  match link.name with
  | "name" => { own with name := text.orElse fun _ => own.name }
  | "middleware" => { own with middleware := own.middleware ++ list }
  | "withoutMiddleware" => { own with withoutMiddleware := own.withoutMiddleware ++ list }
  | "domain" => { own with domain := (text.map normalizeDomain).orElse fun _ => own.domain }
  | "where" =>
    match first with
    | none => own
    | some argument =>
      if argument.isArray then { own with constraints := insertEntries own.constraints argument }
      else
        let value := (link.arguments[1]?).bind Node.literal?
        { own with constraints := constrain own.constraints text value }
  | "only" => { own with only := first.map Node.literalList }
  | "except" => { own with except := own.except ++ list }
  | "names" =>
    match first with
    | none => own
    | some argument =>
      if argument.isArray then { own with names := insertEntries own.names argument }
      else { own with namesPrefix := text }
  | other =>
    match methodPattern? other with
    | some pattern =>
      { own with
        constraints := list.foldl (fun dict name => dict.insert name pattern) own.constraints }
    | none => own

/-- What the calls behind the declaring one say together. -/
def OwnAttributes.ofLinks (links : List Link) : OwnAttributes :=
  links.foldl OwnAttributes.addLink {}

/-! ### Single declarations -/

/-- The site of a call: its range, and the line of its name. -/
def siteOf (origin : Origin) (link : Link) : Site :=
  let anchor := (link.call.nameNode?).getD link.call
  { file := origin.file
    line := origin.lines.lineOf anchor.span.start
    start := link.call.span.start
    stop := link.call.span.stop }

/-- The request methods of a route, joined by bars. -/
def methodOf (verb : String) (arguments : List Node) : String :=
  match lowered verb with
  | "match" =>
    match (arguments.head?.map Node.literalList).getD [] with
    | [] => "GET"
    | methods => joinWith "|" (methods.map raised)
  | "any" => "ANY"
  | "view" => "GET"
  | "redirect" => "GET"
  | "permanentredirect" => "GET"
  | other => raised other

/-- The verb shows a view or redirects, and so has no action. -/
def hasNoAction (verb : String) : Bool :=
  ["view", "redirect", "permanentredirect"].contains (lowered verb)

/-- The path given to a declaration: a literal, or the entry of an array. -/
def pathOf (argument : Node) : Option String :=
  argument.literal?.orElse fun _ =>
    (argument.arrayGetLiteral? "uri").orElse fun _ => argument.arrayGetLiteral? "path"

/-- The action of a class and a method given as the first two values of an array without keys. -/
def pairAction? (scope : Scope) (classNode methodNode : Node) : Option String :=
  match methodNode.literal? with
  | none => none
  | some method =>
    let className := classNode.className?.orElse fun _ => classNode.literal?.map scope.qualify
    className.map fun name => name ++ "@" ++ method

/-- The action given to a declaration: a function without a name, a class, a text, or an array. -/
def action? (scope : Scope) (argument : Node) : Option String :=
  if argument.isClosure then some closureAction
  else
    match argument.className? with
    | some name => some name
    | none =>
      match argument.literal? with
      | some text =>
        match scope.controller with
        | some controller =>
          if hasChar '@' text then some (scope.qualify text) else some (controller ++ "@" ++ text)
        | none => some (scope.qualify text)
      | none =>
        match _ : argument.arrayGet? "uses" with
        | some used => action? scope used
        | none =>
          match (argument.arrayEntries.filter (·.key.isNone)).map (·.value) with
          | classNode :: methodNode :: _ => pairAction? scope classNode methodNode
          | values => if values.any Node.isClosure then some closureAction else none
termination_by argument.nodeCount
decreasing_by exact Node.nodeCount_lt_of_arrayGet? ‹_›

/-- The route that a verb declares. -/
def declaredByVerb (origin : Origin) (scope : Scope) (link : Link) (behind : List Link) : Route :=
  let shift := if lowered link.name == "match" then 1 else 0
  let pathArgument := link.arguments[shift]?
  let actionArgument := link.arguments[shift + 1]?
  let own := OwnAttributes.ofLinks behind
  let named := own.name.orElse fun _ => actionArgument.bind fun argument =>
    argument.arrayGetLiteral? "as"
  let controller :=
    if hasNoAction link.name then none else actionArgument.bind (action? scope)
  scope.declare (methodOf link.name link.arguments) ((pathArgument.bind pathOf).getD "") named
    controller own (siteOf origin link)

/-- The actions of a resource that a declaration asks for. -/
def wantedActions (kind : ResourceKind) (own : OwnAttributes) : List ResourceAction :=
  kind.actions.filter fun action =>
    (match own.only with
      | some only => only.contains action.name
      | none => true) && !own.except.contains action.name

/-- The routes that a resource declares, one for each action. -/
def declaredByResource (origin : Origin) (scope : Scope) (kind : ResourceKind) (link : Link)
    (behind : List Link) : List Route :=
  match link.arguments.head?.bind Node.literal? with
  | none => []
  | some resource =>
    let controller := (link.arguments[1]?).bind Node.classOrLiteral?
    let own := OwnAttributes.ofLinks behind
    (wantedActions kind own).map fun action =>
      let named := (own.names.get? action.name).getD
        (own.namesPrefix.getD (resourceName resource) ++ "." ++ action.name)
      scope.declare action.method (actionPath resource action) (some named)
        (controller.map fun name => name ++ "@" ++ action.name) own
        { siteOf origin link with expansion := some action.name }

/-! ### Whole programs -/

/-- The routes that a chain declares itself. -/
def declaredByChain (origin : Origin) (scope : Scope) (chain : List Link) : List Route :=
  match Meaning.ofLinks chain with
  | .verb before link behind =>
    [declaredByVerb origin (scope.descend (GroupAttributes.ofLinks before)) link behind]
  | .resource kind before link behind =>
    declaredByResource origin (scope.descend (GroupAttributes.ofLinks before)) kind link behind
  | .group _ _ => []
  | .neither => []

/-- The functions given to a chain in which further routes are looked for. -/
def bodiesOf (chain : List Link) : List Node :=
  match Meaning.ofLinks chain with
  | .group _ link => link.closures
  | .neither => chain.flatMap Link.closures
  | .verb _ _ _ => []
  | .resource _ _ _ _ => []

/-- The scope of the functions given to a chain. -/
def innerScope (scope : Scope) (chain : List Link) : Scope :=
  match Meaning.ofLinks chain with
  | .group before link => scope.descend (GroupAttributes.ofGroup before link)
  | _ => scope

theorem mem_of_ofLinks_eq_group {chain before : List Link} {link : Link}
    (opens : Meaning.ofLinks chain = .group before link) : link ∈ chain := by
  unfold Meaning.ofLinks at opens
  split at opens
  · cases opens
  · next first behind shape =>
    have listed : first ∈ chain :=
      (List.dropWhile_sublist _).subset (shape ▸ List.mem_cons_self)
    split at opens
    · cases opens
      exact listed
    · split at opens
      · cases opens
      · split at opens <;> cases opens

theorem nodeCount_lt_of_mem_bodiesOf {call body : Node} (listed : body ∈ bodiesOf (links call)) :
    body.nodeCount < call.nodeCount := by
  unfold bodiesOf at listed
  split at listed
  · next opens =>
    exact nodeCount_lt_of_mem_links (mem_of_ofLinks_eq_group opens) (List.mem_filter.mp listed).1
  · obtain ⟨link, inChain, inLink⟩ := List.mem_flatMap.mp listed
    exact nodeCount_lt_of_mem_links inChain (List.mem_filter.mp inLink).1
  · cases listed
  · cases listed

/-- The routes declared at or below a node, in source order. -/
def routesBelow (origin : Origin) (scope : Scope) (node : Node) : List Route :=
  if node.isCall && isRouterChain node then
    let chain := links node
    declaredByChain origin scope chain ++
      (bodiesOf (links node)).attach.flatMap fun body =>
        routesBelow origin (innerScope scope chain) body.1
  else
    node.children.attach.flatMap fun child => routesBelow origin scope child.1
termination_by node.nodeCount
decreasing_by
  · exact nodeCount_lt_of_mem_bodiesOf body.2
  · exact Node.nodeCount_lt_of_mem_children child.2

/-- The routes that a program declares, in source order. -/
def routesOf (file source : String) : List Route :=
  routesBelow (.ofText file source) {} (Node.ofSource source)

end Route

end ArtifactIndex
