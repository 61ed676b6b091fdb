/-
**Refused middleware.**

A call in a chain can refuse middleware entries. Behind the declaring call it takes them from the entries
of the route, whether a group gives them or the declaration itself. The same call may stand among the
operators before the declaring one, but there nothing is made of it.

* `declaredByChain_of_refusal_before`: among the operators, a refusal changes nothing;
* `declaredByChain_of_refusal_behind`: behind the declaring call, it takes exactly the refused entries
  from each route;
* `OnRouter.of_showsInward`: the chain of a call, read off call by call;
* `middleware_of_refusals`: so both places give the same middleware exactly where no entry is refused
  that is there without the refusal.
-/

import ArtifactIndex.Proofs.Route.Composition
import ArtifactIndex.Proofs.Route.Spellings

namespace ArtifactIndex

namespace Route

/-- The call refuses the middleware entries of its argument, a literal or an array of literals. -/
structure Link.Refuses (entries : List String) (link : Link) : Prop where
  named : link.name = "withoutMiddleware"
  given : ∃ value, link.arguments.head? = some value ∧ value.literalList = entries

/-- The route without the given middleware entries, and otherwise as it is. -/
def refusing (entries : List String) (route : Route) : Route :=
  { route with
    middleware := route.middleware.filter fun entry => !entries.contains entry
    middlewareSources :=
      ((route.middleware.zip route.middlewareSources).filter fun entry =>
        !entries.contains entry.1).map Prod.snd }

section Refusals

variable {entries : List String} {refusal link : Link}

/-! ### Before the declaration -/

/-- No attribute of a group comes from a refusal. -/
theorem GroupAttributes.addLink_of_refuses (refuses : refusal.Refuses entries) (group : GroupAttributes) :
    group.addLink refusal = group := by
  simp [addLink, refuses.named]

theorem GroupAttributes.ofLinks_of_refuses (refuses : refusal.Refuses entries) (left right : List Link) :
    ofLinks (left ++ refusal :: right) = ofLinks (left ++ right) := by
  simp only [ofLinks, List.foldl_append, List.foldl_cons, addLink_of_refuses refuses]

/-! ### Behind the declaration -/

namespace OwnAttributes

/-- **The same attributes with further refused entries.** -/
structure AlsoRefuses (entries : List String) (own other : OwnAttributes) : Prop where
  same : other = { own with withoutMiddleware := other.withoutMiddleware }
  refused : ∀ entry, entry ∈ other.withoutMiddleware ↔ entry ∈ own.withoutMiddleware ∨ entry ∈ entries

/-- What a call adds to the refused entries depends on the call alone, and the refused entries do not
count for anything else that it adds. -/
theorem exists_addLink_eq (own : OwnAttributes) (link : Link) :
    ∃ further, ∀ refused, addLink { own with withoutMiddleware := refused } link =
      { own.addLink link with withoutMiddleware := refused ++ further } := by
  by_cases named : link.name = "withoutMiddleware"
  · exact ⟨(link.arguments.head?.map Node.literalList).getD [], fun refused => by simp [addLink, named]⟩
  · refine ⟨[], fun refused => ?_⟩
    rw [List.append_nil]
    unfold addLink
    split
    case h_3 isRefusal => exact absurd isRefusal named
    case h_5 | h_8 =>
      cases link.arguments.head? with
      | none => rfl
      | some argument =>
        dsimp only
        split <;> rfl
    case h_9 =>
      dsimp only
      split <;> rfl
    all_goals rfl

/-- **One more call** is added to both alike. -/
theorem AlsoRefuses.addLink {own other : OwnAttributes} (also : AlsoRefuses entries own other)
    (link : Link) : AlsoRefuses entries (own.addLink link) (other.addLink link) := by
  obtain ⟨further, added⟩ := own.exists_addLink_eq link
  have ofOwn := added own.withoutMiddleware
  have ofOther := added other.withoutMiddleware
  rw [← also.same] at ofOther
  rw [show ({ own with withoutMiddleware := own.withoutMiddleware } : OwnAttributes) = own from rfl] at ofOwn
  have refusedByOwn : (own.addLink link).withoutMiddleware = own.withoutMiddleware ++ further := by
    rw [ofOwn]
  refine ⟨by rw [ofOther], fun entry => ?_⟩
  rw [refusedByOwn, ofOther, List.mem_append, List.mem_append, also.refused]
  exact or_right_comm

theorem addLink_of_refuses (refuses : refusal.Refuses entries) (own : OwnAttributes) :
    own.addLink refusal = { own with withoutMiddleware := own.withoutMiddleware ++ entries } := by
  obtain ⟨value, isFirst, rfl⟩ := refuses.given
  simp [addLink, refuses.named, isFirst]

theorem AlsoRefuses.foldl {own other : OwnAttributes} (also : AlsoRefuses entries own other)
    (links : List Link) : AlsoRefuses entries (links.foldl OwnAttributes.addLink own)
      (links.foldl OwnAttributes.addLink other) := by
  induction links generalizing own other with
  | nil => exact also
  | cons link rest ih => exact ih (also.addLink link)

/-- **A refusal among the calls behind a declaration.** -/
theorem alsoRefuses_ofLinks (refuses : refusal.Refuses entries) (left right : List Link) :
    AlsoRefuses entries (ofLinks (left ++ right)) (ofLinks (left ++ refusal :: right)) := by
  unfold ofLinks
  rw [List.foldl_append, List.foldl_append, List.foldl_cons, addLink_of_refuses refuses]
  generalize left.foldl OwnAttributes.addLink {} = own
  have first : AlsoRefuses entries own { own with withoutMiddleware := own.withoutMiddleware ++ entries } :=
    ⟨rfl, fun _ => List.mem_append⟩
  exact first.foldl right

end OwnAttributes

/-! ### Declared routes -/

/-- **The middleware of a declaration** that refuses further entries. -/
theorem Scope.middlewareOf_of_alsoRefuses {own other : OwnAttributes}
    (also : own.AlsoRefuses entries other) (scope : Scope) :
    scope.middlewareOf other = (scope.middlewareOf own).filter fun entry => !entries.contains entry.1 := by
  have sameMiddleware : other.middleware = own.middleware := by rw [also.same]
  have refused : ∀ entry, other.withoutMiddleware.contains entry =
      (own.withoutMiddleware.contains entry || entries.contains entry) := by
    intro entry
    rw [Bool.eq_iff_iff, Bool.or_eq_true, List.contains_iff_mem, List.contains_iff_mem,
      List.contains_iff_mem, also.refused]
  rw [Scope.middlewareOf_eq rfl, Scope.middlewareOf_eq rfl, List.filter_map, List.filter_filter,
    sameMiddleware]
  simp only [Function.comp_def, refused, Bool.not_or, Bool.and_comm]

/-- **A declaration that refuses further entries** declares the same route without them. -/
theorem Scope.declare_of_alsoRefuses {own other : OwnAttributes} (also : own.AlsoRefuses entries other)
    (scope : Scope) (method rawPath : String) (ownName controller : Option String) (declaration : Site) :
    scope.declare method rawPath ownName controller other declaration =
      (scope.declare method rawPath ownName controller own declaration).refusing entries := by
  have kept := Scope.middlewareOf_of_alsoRefuses also scope
  obtain ⟨same, -⟩ := also
  generalize other.withoutMiddleware = refused at same
  subst same
  have zipped : ∀ {α β : Type} (first : α → String) (second : α → β) (given : List α),
      (((given.map first).zip (given.map second)).filter fun entry => !entries.contains entry.1).map Prod.snd =
        (given.filter fun entry => !entries.contains (first entry)).map second := by
    intro α β first second given
    rw [List.zip_map', List.filter_map, List.map_map]
    rfl
  unfold refusing Scope.declare
  simp only [kept, zipped, List.filter_map, Function.comp_def]

variable {origin : Origin} {scope : Scope} {operators operators' tail tail' : List Link} {call : Node}

/-- **Behind the declaring call** a refusal takes its entries from each route, whatever else stands in
the chain. -/
theorem declaredByChain_of_refusal_behind (refuses : refusal.Refuses entries)
    (all : ∀ operator ∈ operators, isScopeOperator operator.name = true) (declares : Declares link.name) :
    declaredByChain origin scope (operators ++ link :: (tail ++ refusal :: tail')) =
      (declaredByChain origin scope (operators ++ link :: (tail ++ tail'))).map (refusing entries) := by
  have also := OwnAttributes.alsoRefuses_ofLinks refuses tail tail'
  obtain ⟨stops, noGroup⟩ := declares.stops
  unfold declaredByChain
  rw [Meaning.ofLinks_append all stops, Meaning.ofLinks_append all stops, noGroup]
  generalize scope.descend (.ofLinks operators) = inner
  cases ResourceKind.ofName? link.name with
  | none =>
    cases isVerb link.name with
    | false => rfl
    | true =>
      have sameName : (OwnAttributes.ofLinks (tail ++ refusal :: tail')).name =
          (OwnAttributes.ofLinks (tail ++ tail')).name := by rw [also.same]
      simp only [Bool.false_eq_true, if_false, if_true, List.map_singleton, declaredByVerb, sameName,
        Scope.declare_of_alsoRefuses also]
  | some kind =>
    have sameNames : (OwnAttributes.ofLinks (tail ++ refusal :: tail')).names =
        (OwnAttributes.ofLinks (tail ++ tail')).names := by rw [also.same]
    have samePrefix : (OwnAttributes.ofLinks (tail ++ refusal :: tail')).namesPrefix =
        (OwnAttributes.ofLinks (tail ++ tail')).namesPrefix := by rw [also.same]
    have sameActions : wantedActions kind (OwnAttributes.ofLinks (tail ++ refusal :: tail')) =
        wantedActions kind (OwnAttributes.ofLinks (tail ++ tail')) := by
      rw [also.same]
      rfl
    simp only [Bool.false_eq_true, if_false, declaredByResource]
    cases link.arguments.head?.bind Node.literal? with
    | none => rfl
    | some resource =>
      simp only [sameNames, samePrefix, sameActions, Scope.declare_of_alsoRefuses also, List.map_map,
        Function.comp_def]

/-- A refusal may stand among the operators of a chain. -/
theorem isScopeOperator_insert (refuses : refusal.Refuses entries)
    (all : ∀ operator ∈ operators ++ operators', isScopeOperator operator.name = true) :
    ∀ operator ∈ operators ++ refusal :: operators', isScopeOperator operator.name = true := by
  intro operator listed
  rcases List.mem_append.mp listed with ahead | behind
  · exact all operator (List.mem_append_left _ ahead)
  · rcases List.mem_cons.mp behind with rfl | behind
    · rw [refuses.named]
      rfl
    · exact all operator (List.mem_append_right _ behind)

/-- **Before the declaring call** a refusal changes nothing. -/
theorem declaredByChain_of_refusal_before (refuses : refusal.Refuses entries)
    (all : ∀ operator ∈ operators ++ operators', isScopeOperator operator.name = true)
    (declares : Declares link.name) :
    declaredByChain origin scope (operators ++ refusal :: operators' ++ link :: tail) =
      declaredByChain origin scope (operators ++ operators' ++ link :: tail) := by
  rw [declaredByChain_append (isScopeOperator_insert refuses all) declares, declaredByChain_append all declares,
    GroupAttributes.ofLinks_of_refuses refuses]

/-! ### Chains in programs -/

/-- **A chain on the router**, with calls of the given names and arguments. -/
structure OnRouter (call : Node) (chain : List Link) : Prop where
  isCall : call.isCall = true
  isRouter : isRouterChain call = true
  links : (Route.links call).map Link.bare = chain.map Link.bare

/-- The routes of a declaring chain in a program are those that its calls declare. -/
theorem OnRouter.unplaced_routes (onRouter : OnRouter call (operators ++ link :: tail))
    (all : ∀ operator ∈ operators, isScopeOperator operator.name = true) (declares : Declares link.name)
    (origin origin' : Origin) (scope : Scope) :
    (routesBelow origin scope call).map unplaced =
      (declaredByChain origin' scope (operators ++ link :: tail)).map unplaced := by
  have noBodies : bodiesOf (Route.links call) = [] := by
    rw [← List.map_eq_nil_iff (f := Node.bare), ← bodiesOf_bare, onRouter.links, bodiesOf_bare,
      bodiesOf_append all declares, List.map_nil]
  rw [routesBelow_of_chain onRouter.isCall onRouter.isRouter, noBodies, List.flatMap_nil, List.append_nil,
    unplaced_declaredByChain origin origin, onRouter.links, ← unplaced_declaredByChain origin' origin]

theorem unplaced_refusing (route : Route) :
    (route.refusing entries).unplaced = route.unplaced.refusing entries := rfl

/-- A route has no refused entry exactly when taking them away leaves its middleware as it is. -/
theorem filter_eq_self_iff (middleware : List String) :
    middleware = (middleware.filter fun entry => !entries.contains entry) ↔
      ∀ entry ∈ entries, entry ∉ middleware := by
  rw [eq_comm, List.filter_eq_self]
  constructor
  · intro kept entry refused listed
    have := kept entry listed
    rw [List.contains_iff_mem.mpr refused] at this
    cases this
  · intro apart entry listed
    rw [Bool.not_eq_true', Bool.eq_false_iff]
    exact fun refused => apart entry (List.contains_iff_mem.mp refused) listed

/-! ### Chains of calls with literals

The links of a chain are found by recursion on the size of a call. To read the chain of a fixed program,
its calls are compared with the expected ones from the last call in, one for each. -/

/-- A call by its name and the literals that are its arguments, as written. -/
abbrev LiteralCall := String × List String

/-- A call with literals as its arguments. -/
def Link.ofLiterals (expected : LiteralCall) : Link :=
  ⟨expected.1, .mk .other ⟨0, 0⟩ "" [], expected.2.map fun text => .mk .string ⟨0, 0⟩ text []⟩

/-- The arguments are the given literals. -/
def areLiterals (texts : List String) (arguments : List Node) : Bool :=
  arguments.map (fun value => (value.kind, value.text, value.children.length)) ==
    texts.map fun text => (.string, text, 0)

/-- From its last call in, the chain has the expected calls, the innermost one on the router itself. -/
def showsInward : List LiteralCall → Node → Bool
  | [], _ => false
  | expected :: inner, call =>
    call.callee?.any (·.name == expected.1) && areLiterals expected.2 call.callArguments &&
      match call.object? with
      | none => inner.isEmpty && isRouterCall call
      | some object => object.isCall && showsInward inner object

/-- Literals have no range to forget but their own. -/
theorem bare_of_areLiterals {texts : List String} {arguments : List Node}
    (same : areLiterals texts arguments = true) :
    arguments.map Node.bare = texts.map fun text => .mk .string ⟨0, 0⟩ text [] := by
  rw [areLiterals, beq_iff_eq] at same
  induction texts generalizing arguments with
  | nil => rw [List.map_eq_nil_iff.mp same, List.map_nil, List.map_nil]
  | cons text texts ih =>
    obtain ⟨value, rest, rfl, shape, later⟩ := List.map_eq_cons_iff.mp same
    obtain ⟨isString, isText, noChildren⟩ :
        value.kind = .string ∧ value.text = text ∧ value.children.length = 0 := by
      simpa using shape
    rw [List.length_eq_zero_iff] at noChildren
    rw [List.map_cons, List.map_cons, ih later]
    have isLiteral : value.bare = (Node.mk .string ⟨0, 0⟩ text []).bare :=
      Node.eq_of_bare isString isText (by rw [noChildren]; rfl)
    exact congrArg (· :: _) isLiteral

/-- **The expected calls are the chain.** -/
theorem OnRouter.of_showsInward {expected : List LiteralCall} (shows : showsInward expected call = true) :
    OnRouter call (expected.reverse.map Link.ofLiterals) := by
  induction expected generalizing call with
  | nil => cases shows
  | cons last inner ih =>
    simp only [showsInward, Bool.and_eq_true, Option.any_eq_true, beq_iff_eq] at shows
    obtain ⟨⟨⟨callee, known, isName⟩, areGiven⟩, onward⟩ := shows
    have isCall := isCall_of_callee? known
    have isLast : Link.bare ⟨callee.name, call, call.callArguments⟩ = (Link.ofLiterals last).bare := by
      rw [Link.bare, bare_of_areLiterals areGiven, isName, Link.bare, Link.ofLiterals, List.map_map]
      rfl
    rw [List.reverse_cons, List.map_append, List.map_singleton]
    cases found : call.object? with
    | none =>
      rw [found, Bool.and_eq_true, List.isEmpty_iff] at onward
      obtain ⟨rfl, isRouter⟩ := onward
      refine ⟨isCall, ?_, ?_⟩
      · rwa [isRouterChain, chainRoot_of_isRouterCall isRouter]
      · rw [links_of_object?_eq_none known found]
        exact congrArg (fun link => [link]) isLast
    | some object =>
      rw [found, Bool.and_eq_true] at onward
      obtain ⟨isObject, showsObject⟩ := onward
      have ofObject := ih showsObject
      refine ⟨isCall, ?_, ?_⟩
      · rw [isRouterChain, chainRoot_eq found isObject]
        exact ofObject.isRouter
      · rw [links_eq_append known found, List.map_append, List.map_append, ofObject.links, List.map_singleton,
          List.map_singleton, isLast]

/-- **A program of one chain**, with the expected calls. -/
theorem exists_onRouter {source : String} (expected : List LiteralCall)
    (shows : (Node.ofSource source).outerCalls.map (showsInward expected.reverse) = [true]) :
    ∃ call, (Node.ofSource source).outerCalls = [call] ∧ OnRouter call (expected.map Link.ofLiterals) := by
  obtain ⟨call, isOnly, showsCall⟩ := List.map_eq_singleton_iff.mp shows
  refine ⟨call, isOnly, ?_⟩
  rw [← List.reverse_reverse expected]
  exact .of_showsInward showsCall

/-- Such a program declares the routes of its chain. -/
theorem middleware_routesOf {source : String} (operators tail : List LiteralCall) (declaring : LiteralCall)
    (shows : (Node.ofSource source).outerCalls.map
      (showsInward (operators ++ declaring :: tail).reverse) = [true])
    (all : ∀ operator ∈ operators, isScopeOperator operator.1 = true) (declares : Declares declaring.1)
    (file : String) (origin : Origin) :
    (routesOf file source).map (·.middleware) =
      (declaredByChain origin {} ((operators ++ declaring :: tail).map Link.ofLiterals)).map
        (·.middleware) := by
  obtain ⟨call, isOnly, onRouter⟩ := exists_onRouter _ shows
  have allLinks : ∀ operator ∈ operators.map Link.ofLiterals, isScopeOperator operator.name = true :=
    List.forall_mem_map.mpr all
  rw [List.map_append, List.map_cons] at onRouter ⊢
  have routes := congrArg (List.map (·.middleware))
    (onRouter.unplaced_routes allLinks declares (.ofText file source) origin {})
  simp only [List.map_map, Function.comp_def, unplaced] at routes
  rw [routesOf, routesBelow_eq_flatMap_outerCalls, isOnly, List.flatMap_singleton, routes]

end Refusals

/-- **Where middleware can be refused.** Three chains on the router differ in one call that refuses
middleware entries: the first does not have it, the second has it among the operators before the declaring
call, the third behind that call. In every scope, the second declares the routes of the first; the third
declares them without the refused entries, and otherwise as they are. So both places give the same
middleware exactly when no route of the first chain has a refused entry. -/
theorem middleware_of_refusals {entries : List String} {operators operators' tail tail' : List Link}
    {refusal link : Link} {without before behind : Node} (refuses : refusal.Refuses entries)
    (all : ∀ operator ∈ operators ++ operators', isScopeOperator operator.name = true)
    (declares : Declares link.name)
    (withoutRefusal : OnRouter without (operators ++ operators' ++ link :: (tail ++ tail')))
    (refusedBefore : OnRouter before (operators ++ refusal :: operators' ++ link :: (tail ++ tail')))
    (refusedBehind : OnRouter behind (operators ++ operators' ++ link :: (tail ++ refusal :: tail')))
    (origin origin' origin'' : Origin) (scope : Scope) :
    (routesBelow origin' scope before).map unplaced = (routesBelow origin scope without).map unplaced ∧
      (routesBelow origin'' scope behind).map unplaced =
        (routesBelow origin scope without).map (fun route => (route.refusing entries).unplaced) ∧
      (∀ route ∈ routesBelow origin'' scope behind, ∀ entry ∈ entries, entry ∉ route.middleware) ∧
      ((routesBelow origin' scope before).map (·.middleware) =
          (routesBelow origin'' scope behind).map (·.middleware) ↔
        ∀ route ∈ routesBelow origin scope without, ∀ entry ∈ entries, entry ∉ route.middleware) := by
  have plain := withoutRefusal.unplaced_routes all declares origin origin scope
  have ignored : (routesBelow origin' scope before).map unplaced =
      (routesBelow origin scope without).map unplaced := by
    rw [refusedBefore.unplaced_routes (isScopeOperator_insert refuses all) declares origin' origin,
      declaredByChain_of_refusal_before refuses all declares, plain]
  have taken : (routesBelow origin'' scope behind).map unplaced =
      (routesBelow origin scope without).map (fun route => (route.refusing entries).unplaced) := by
    have outside := congrArg (List.map (refusing entries)) plain
    rw [refusedBehind.unplaced_routes all declares origin'' origin,
      declaredByChain_of_refusal_behind refuses all declares]
    simpa only [List.map_map, Function.comp_def, unplaced_refusing] using outside.symm
  have middlewareBefore := congrArg (List.map (·.middleware)) ignored
  have middlewareBehind := congrArg (List.map (·.middleware)) taken
  simp only [List.map_map, Function.comp_def, unplaced, refusing] at middlewareBefore middlewareBehind
  refine ⟨ignored, taken, fun route listed entry refused => ?_, ?_⟩
  · have among : route.middleware ∈ (routesBelow origin'' scope behind).map (·.middleware) :=
      List.mem_map_of_mem listed
    rw [middlewareBehind] at among
    obtain ⟨plainRoute, -, isFiltered⟩ := List.mem_map.mp among
    rw [← isFiltered, List.mem_filter, List.contains_iff_mem.mpr refused]
    exact fun kept => Bool.false_ne_true kept.2
  · rw [middlewareBefore, middlewareBehind, List.map_inj_left]
    exact forall₂_congr fun route _ => filter_eq_self_iff route.middleware

/-- The same entry refused before a declaration and behind it. -/
theorem middleware_of_refusals_both :
    ∃ without ∈ (Node.ofSource "<?php Route::middleware('a')->get('/x');").outerCalls,
    ∃ before ∈ (Node.ofSource "<?php Route::withoutMiddleware('a')->middleware('a')->get('/x');").outerCalls,
    ∃ behind ∈ (Node.ofSource "<?php Route::middleware('a')->get('/x')->withoutMiddleware('a');").outerCalls,
      (∀ origin origin' scope, (routesBelow origin' scope before).map unplaced =
        (routesBelow origin scope without).map unplaced) ∧
      ∀ origin scope, ∀ route ∈ routesBelow origin scope behind, "a" ∉ route.middleware := by
  let adding : LiteralCall := ("middleware", ["'a'"])
  let declaring : LiteralCall := ("get", ["'/x'"])
  let refusal : LiteralCall := ("withoutMiddleware", ["'a'"])
  obtain ⟨without, isPlain, withoutRefusal⟩ := @exists_onRouter
    "<?php Route::middleware('a')->get('/x');" [adding, declaring] (by decide +kernel)
  obtain ⟨before, isBefore, refusedBefore⟩ := @exists_onRouter
    "<?php Route::withoutMiddleware('a')->middleware('a')->get('/x');" [refusal, adding, declaring]
    (by decide +kernel)
  obtain ⟨behind, isBehind, refusedBehind⟩ := @exists_onRouter
    "<?php Route::middleware('a')->get('/x')->withoutMiddleware('a');" [adding, declaring, refusal]
    (by decide +kernel)
  have refuses : (Link.ofLiterals refusal).Refuses ["a"] := ⟨rfl, _, rfl, by decide +kernel⟩
  have settled := @middleware_of_refusals _ [] [.ofLiterals adding] [] [] _ (.ofLiterals declaring) _ _ _
    refuses (by decide) (.inl (by decide)) withoutRefusal refusedBefore refusedBehind
  rw [isPlain, isBefore, isBehind]
  refine ⟨without, List.mem_singleton_self _, before, List.mem_singleton_self _, behind,
    List.mem_singleton_self _, ?_, ?_⟩
  · exact fun origin origin' scope => (settled origin origin' origin scope).1
  · exact fun origin scope route listed =>
      (settled origin origin origin scope).2.2.1 route listed "a" (List.mem_singleton_self "a")

/-- **A refusal before the declaring call** is accepted there, and the route keeps the refused entry; behind
that call the entry is taken. -/
theorem refusal_before_verb_ignored :
    (routesOf "routes/web.php"
        "<?php Route::withoutMiddleware('auth')->middleware('auth')->get('/a', 'C@m');").map (·.middleware) =
      [["auth"]] ∧
      (routesOf "routes/web.php"
        "<?php Route::middleware('auth')->get('/a', 'C@m')->withoutMiddleware('auth');").map (·.middleware) =
      [[]] := by
  let adding : LiteralCall := ("middleware", ["'auth'"])
  let declaring : LiteralCall := ("get", ["'/a'", "'C@m'"])
  let refusal : LiteralCall := ("withoutMiddleware", ["'auth'"])
  constructor
  · rw [middleware_routesOf [refusal, adding] [] declaring (by decide +kernel) (by decide)
      (.inl (by decide)) _ (.ofText "" "")]
    decide +kernel
  · rw [middleware_routesOf [adding] [refusal] declaring (by decide +kernel) (by decide)
      (.inl (by decide)) _ (.ofText "" "")]
    decide +kernel

end Route

end ArtifactIndex
