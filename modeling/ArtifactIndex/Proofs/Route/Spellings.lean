/-
**The spellings of a group.**

A group gives its attributes to the routes inside it, and there are several ways to write it: operators in
a chain before the group, entries of an array given to it, several groups around one another, or operators
right before a single declaration. The ways differ in which code reads the attributes and in how often a
scope is descended into; the routes are the same.

* `Setting`, `Scope.give`: one attribute of a group, and the scope behind it;
* `Scope.descend_ofSettings`: the attributes of one group, given one after another;
* `Spells`: the code that gives some settings to the routes in a body;
* `Spells.unplaced_routes`: the routes of such code are those of the body, in the scope behind the settings;
* `unplaced_routes_eq_of_spells`: two spellings of the same settings, in any order, declare the same routes.
-/

import ArtifactIndex.Proofs.Route.Moved
import Mathlib.Data.List.Forall2
import Mathlib.Data.List.Nodup
import Mathlib.Data.List.Perm.Basic

namespace ArtifactIndex

namespace Route

/-! ### Settings -/

/-- One attribute of a group with its value. -/
inductive Setting where
  | pathPrefix (text : String)
  | name (text : String)
  | middleware (entries : List String)
  | domain (text : String)
  | namespaceName (text : String)
  | controller (className : String)
deriving Repr, DecidableEq

namespace Setting

/-- The key of the attribute in an array. -/
def key : Setting → String
  | pathPrefix _ => "prefix"
  | name _ => "as"
  | middleware _ => "middleware"
  | domain _ => "domain"
  | namespaceName _ => "namespace"
  | controller _ => "controller"

/-- The operators of a chain that give the attribute. -/
def operators : Setting → List String
  | name _ => ["name", "as"]
  | setting => [setting.key]

/-- The node gives the attribute's value: a literal, for middleware also an array of them, for a controller
also a class. -/
def IsGivenBy : Setting → Node → Prop
  | pathPrefix text, value => value.literal? = some text
  | name text, value => value.literal? = some text
  | middleware entries, value => value.literalList = entries
  | domain text, value => value.literal? = some text
  | namespaceName text, value => value.literal? = some text
  | controller className, value => value.classOrLiteral? = some className

instance (setting : Setting) (value : Node) : Decidable (setting.IsGivenBy value) :=
  match setting with
  | pathPrefix text => inferInstanceAs (Decidable (value.literal? = some text))
  | name text => inferInstanceAs (Decidable (value.literal? = some text))
  | middleware entries => inferInstanceAs (Decidable (value.literalList = entries))
  | domain text => inferInstanceAs (Decidable (value.literal? = some text))
  | namespaceName text => inferInstanceAs (Decidable (value.literal? = some text))
  | controller className => inferInstanceAs (Decidable (value.classOrLiteral? = some className))

/-- The call of a chain gives the attribute. -/
structure Operator (setting : Setting) (link : Link) : Prop where
  named : link.name ∈ setting.operators
  single : link.arguments.length = 1
  given : ∀ value ∈ link.arguments, setting.IsGivenBy value

instance (setting : Setting) (link : Link) : Decidable (setting.Operator link) :=
  decidable_of_iff (link.name ∈ setting.operators ∧ link.arguments.length = 1 ∧
      ∀ value ∈ link.arguments, setting.IsGivenBy value)
    ⟨fun ⟨named, single, given⟩ => ⟨named, single, given⟩,
      fun ⟨named, single, given⟩ => ⟨named, single, given⟩⟩

/-- The entry of an array gives the attribute. -/
structure Entry (setting : Setting) (entry : String × Node) : Prop where
  named : entry.1 = setting.key
  given : setting.IsGivenBy entry.2

instance (setting : Setting) (entry : String × Node) : Decidable (setting.Entry entry) :=
  decidable_of_iff (entry.1 = setting.key ∧ setting.IsGivenBy entry.2)
    ⟨fun ⟨named, given⟩ => ⟨named, given⟩, fun ⟨named, given⟩ => ⟨named, given⟩⟩

theorem Operator.isScopeOperator {setting : Setting} {link : Link} (operator : setting.Operator link) :
    isScopeOperator link.name = true := by
  have all : ∀ name ∈ setting.operators, Route.isScopeOperator name = true := by
    cases setting <;> simp [operators, key, Route.isScopeOperator]
  exact all link.name operator.named

end Setting

/-! ### One group -/

namespace GroupAttributes

/-- The attributes with one more setting. -/
def add (group : GroupAttributes) : Setting → GroupAttributes
  | .pathPrefix text => { group with pathPrefix := some text }
  | .name text => { group with name := some (extendName group.name text) }
  | .middleware entries => { group with middleware := group.middleware ++ entries }
  | .domain text => { group with domain := some text }
  | .namespaceName text => { group with namespaceName := some text }
  | .controller className => { group with controller := some className }

/-- The attributes that some settings give together. -/
def ofSettings (settings : List Setting) : GroupAttributes := settings.foldl add {}

/-- The setting's attribute is not given yet; middleware adds up, so it need not be. -/
def Lacks (group : GroupAttributes) : Setting → Prop
  | .pathPrefix _ => group.pathPrefix = none
  | .name _ => group.name = none
  | .middleware _ => True
  | .domain _ => group.domain = none
  | .namespaceName _ => group.namespaceName = none
  | .controller _ => group.controller = none

variable {group : GroupAttributes} {setting : Setting} {settings : List Setting}

theorem lacks_empty (setting : Setting) : ({} : GroupAttributes).Lacks setting := by
  cases setting <;> trivial

theorem lacks_add {other : Setting} (lacks : group.Lacks other) (differ : setting.key ≠ other.key) :
    (group.add setting).Lacks other := by
  cases setting <;> cases other <;> first | exact lacks | exact absurd rfl differ

/-- What is left to give is still lacking behind a setting. -/
theorem lacks_rest (distinct : ((setting :: settings).map Setting.key).Nodup)
    (lacks : ∀ other ∈ setting :: settings, group.Lacks other) :
    ∀ other ∈ settings, (group.add setting).Lacks other := by
  intro other listed
  refine lacks_add (lacks other (List.mem_cons_of_mem _ listed)) fun same => ?_
  exact (List.nodup_cons.mp distinct).1 (List.mem_map.mpr ⟨other, listed, same.symm⟩)

/-- What an operator gives. -/
theorem addLink_of_operator {link : Link} (operator : setting.Operator link) :
    group.addLink link = group.add setting := by
  obtain ⟨value, given⟩ := List.length_eq_one_iff.mp operator.single
  have isValue := operator.given value (by rw [given]; exact List.mem_singleton_self value)
  have named := operator.named
  simp only [Setting.operators, Setting.key] at named
  cases setting <;> simp only [List.mem_cons, List.not_mem_nil, or_false] at named
  case name text =>
    have isText : value.literal? = some text := isValue
    rcases named with isName | isName <;> simp [addLink, add, isName, given, isText]
  case middleware entries =>
    have isList : value.literalList = entries := isValue
    simp [addLink, add, named, given, isList]
  case controller className =>
    have isClass : value.classOrLiteral? = some className := isValue
    simp [addLink, add, named, given, isClass]
  all_goals
    have isText : value.literal? = some _ := isValue
    simp [addLink, add, named, given, isText]

/-- **What the operators of a chain give together.** -/
theorem ofLinks_of_operators {operators : List Link}
    (spelled : List.Forall₂ Setting.Operator settings operators) :
    ofLinks operators = ofSettings settings := by
  unfold ofLinks ofSettings
  generalize ({} : GroupAttributes) = group
  induction spelled generalizing group with
  | nil => rfl
  | cons operator _ ih => rw [List.foldl_cons, List.foldl_cons, addLink_of_operator operator, ih]

/-- The attributes with those that keyed values give: how an array is read, with its entries at hand. -/
def addEntries (group : GroupAttributes) (entries : List (String × Node)) : GroupAttributes :=
  let text := fun key => (entries.lookup key).bind Node.literal?
  { pathPrefix :=
      ((text "prefix").map fun inner =>
        match group.pathPrefix with
        | some outer => joinPrefix outer inner
        | none => inner).orElse fun _ => group.pathPrefix
    name := ((text "as").map (extendName group.name)).orElse fun _ => group.name
    middleware := group.middleware ++ ((entries.lookup "middleware").map Node.literalList).getD []
    domain := (text "domain").orElse fun _ => group.domain
    namespaceName := (text "namespace").orElse fun _ => group.namespaceName
    controller :=
      ((entries.lookup "controller").bind Node.classOrLiteral?).orElse fun _ => group.controller }

theorem addArray_eq_addEntries (array : Node) :
    group.addArray array = group.addEntries array.keyedEntries := rfl

/-- An entry that is the only one of its key. -/
theorem addEntries_cons {entry : String × Node} {rest : List (String × Node)}
    (isEntry : setting.Entry entry) (lacks : group.Lacks setting) (only : rest.lookup setting.key = none) :
    group.addEntries (entry :: rest) = (group.add setting).addEntries rest := by
  obtain ⟨key, value⟩ := entry
  obtain ⟨rfl, isValue⟩ := isEntry
  cases setting <;>
    dsimp only [Setting.key, Lacks, Setting.IsGivenBy] at only lacks isValue <;>
    simp [addEntries, add, Setting.key, List.lookup_cons, extendName, only, lacks, isValue]

/-- A key that no setting has is that of no entry. -/
theorem lookup_key_eq_none {entries : List (String × Node)} {key : String}
    (spelled : List.Forall₂ Setting.Entry settings entries) (fresh : key ∉ settings.map Setting.key) :
    entries.lookup key = none := by
  induction spelled with
  | nil => rfl
  | cons isEntry _ ih =>
    rw [List.map_cons, List.mem_cons, not_or] at fresh
    rw [List.lookup_cons, isEntry.named, beq_false_of_ne fresh.1]
    exact ih fresh.2

/-- **What the entries of an array give together.** -/
theorem addArray_of_entries {array : Node}
    (spelled : List.Forall₂ Setting.Entry settings array.keyedEntries)
    (distinct : (settings.map Setting.key).Nodup) :
    ({} : GroupAttributes).addArray array = ofSettings settings := by
  rw [addArray_eq_addEntries, ofSettings]
  have lacks : ∀ setting ∈ settings, ({} : GroupAttributes).Lacks setting := fun _ _ => lacks_empty _
  generalize ({} : GroupAttributes) = group at lacks ⊢
  generalize array.keyedEntries = entries at spelled
  induction spelled generalizing group with
  | nil => simp [addEntries]
  | cons isEntry later ih =>
    obtain ⟨fresh, laterDistinct⟩ := List.nodup_cons.mp distinct
    rw [addEntries_cons isEntry (lacks _ List.mem_cons_self) (lookup_key_eq_none later fresh),
      List.foldl_cons, ih laterDistinct _ (lacks_rest distinct lacks)]

end GroupAttributes

/-! ### Settings one after another -/

namespace Scope

/-- The scope behind one more setting. -/
def give (scope : Scope) : Setting → Scope
  | .pathPrefix text => { scope with pathPrefix := joinPrefix scope.pathPrefix text }
  | .name text => { scope with namePrefix := joinNames scope.namePrefix text }
  | .middleware entries => { scope with middleware := appendNew scope.middleware entries }
  | .domain text => { scope with domain := some (normalizeDomain text) }
  | .namespaceName text => { scope with namespaceName := some (joinNamespace scope.namespaceName text) }
  | .controller className => { scope with controller := some className }

theorem descend_add (scope : Scope) {group : GroupAttributes} {setting : Setting}
    (lacks : group.Lacks setting) :
    scope.descend (group.add setting) = (scope.descend group).give setting := by
  cases setting <;> dsimp only [GroupAttributes.Lacks] at lacks <;>
    simp [descend, give, GroupAttributes.add, extendName, appendNew, lacks]

/-- **The settings of one group can be given one after another**, when no attribute comes twice. -/
theorem descend_ofSettings (scope : Scope) {settings : List Setting}
    (distinct : (settings.map Setting.key).Nodup) :
    scope.descend (GroupAttributes.ofSettings settings) = settings.foldl give scope := by
  suffices ∀ group : GroupAttributes, (∀ setting ∈ settings, group.Lacks setting) →
      scope.descend (settings.foldl GroupAttributes.add group) =
        settings.foldl give (scope.descend group) from
    this {} fun setting _ => GroupAttributes.lacks_empty setting
  induction settings with
  | nil => exact fun _ _ => rfl
  | cons setting rest ih =>
    intro group lacks
    rw [List.foldl_cons, List.foldl_cons, ← descend_add scope (lacks setting List.mem_cons_self)]
    exact ih (List.nodup_cons.mp distinct).2 _ (GroupAttributes.lacks_rest distinct lacks)

/-- Settings of different attributes do not meet. -/
theorem give_comm (scope : Scope) {left right : Setting} (differ : left.key ≠ right.key) :
    (scope.give left).give right = (scope.give right).give left := by
  cases left <;> cases right <;> first | exact absurd rfl differ | simp only [give]

/-- **The order of settings does not count**, when no attribute comes twice. -/
theorem foldl_give_perm (scope : Scope) {settings others : List Setting}
    (distinct : (settings.map Setting.key).Nodup) (reordered : settings.Perm others) :
    settings.foldl give scope = others.foldl give scope := by
  refine reordered.foldl_eq' (fun left isLeft right isRight scope => ?_) scope
  by_cases same : left.key = right.key
  · rw [List.inj_on_of_nodup_map distinct isLeft isRight same]
  · exact give_comm scope same

end Scope

/-! ### Spellings -/

/-- The first call of a chain that is no operator decides what the chain does. -/
theorem Meaning.ofLinks_append {operators : List Link} {link : Link}
    (all : ∀ operator ∈ operators, isScopeOperator operator.name = true)
    (stops : isScopeOperator link.name = false) (behind : List Link) :
    ofLinks (operators ++ link :: behind) =
      if link.name == "group" then .group operators link
      else
        match ResourceKind.ofName? link.name with
        | some kind => .resource kind operators link behind
        | none => if isVerb link.name then .verb operators link behind else .neither := by
  have before : (operators ++ link :: behind).takeWhile (fun link => isScopeOperator link.name) =
      operators := by
    rw [List.takeWhile_append_of_pos all, List.takeWhile_cons, stops]
    exact List.append_nil operators
  have rest : (operators ++ link :: behind).dropWhile (fun link => isScopeOperator link.name) =
      link :: behind := by
    rw [List.dropWhile_append_of_pos all, List.dropWhile_cons, stops]
    exact if_neg Bool.false_ne_true
  unfold ofLinks
  generalize (operators ++ link :: behind).takeWhile (fun link => isScopeOperator link.name) = first
    at before ⊢
  generalize (operators ++ link :: behind).dropWhile (fun link => isScopeOperator link.name) = others
    at rest ⊢
  subst before rest
  rfl

/-- The call declares a route, or the routes of a resource. -/
def Declares (name : String) : Prop := isVerb name = true ∨ (ResourceKind.ofName? name).isSome = true

instance (name : String) : Decidable (Declares name) :=
  inferInstanceAs (Decidable (isVerb name = true ∨ (ResourceKind.ofName? name).isSome = true))

/-- What declares is no operator and opens no group. -/
theorem Declares.stops {name : String} (declares : Declares name) :
    isScopeOperator name = false ∧ (name == "group") = false := by
  have operators : ∀ operator ∈ ["prefix", "name", "as", "middleware", "withoutMiddleware", "domain",
      "namespace", "controller"], ¬Declares operator := by
    decide
  constructor
  · rw [Bool.eq_false_iff]
    intro isOperator
    exact operators name (List.contains_iff_mem.mp isOperator) declares
  · refine beq_false_of_ne ?_
    rintro rfl
    revert declares
    decide

section Chains

variable {origin : Origin} {scope : Scope} {operators behind : List Link} {link : Link} {call : Node}

/-- The routes of a group are those of its functions. -/
theorem routesBelow_of_group (isCall : call.isCall = true) (isRouter : isRouterChain call = true)
    (all : ∀ operator ∈ operators, isScopeOperator operator.name = true)
    (chain : links call = operators ++ [link]) (opens : link.name = "group") :
    routesBelow origin scope call =
      link.closures.flatMap (routesBelow origin (scope.descend (.ofGroup operators link))) := by
  have meaning : Meaning.ofLinks (links call) = .group operators link := by
    rw [chain, Meaning.ofLinks_append all (by rw [opens]; rfl), opens]
    rfl
  rw [routesBelow_of_chain isCall isRouter]
  simp only [declaredByChain, bodiesOf, innerScope, meaning, List.nil_append]

/-- The routes of a declaring call behind operators are those of the call alone, in the scope that the
operators give. -/
theorem declaredByChain_append (all : ∀ operator ∈ operators, isScopeOperator operator.name = true)
    (declares : Declares link.name) :
    declaredByChain origin scope (operators ++ link :: behind) =
      declaredByChain origin (scope.descend (.ofLinks operators)) (link :: behind) := by
  obtain ⟨stops, noGroup⟩ := declares.stops
  have noOperator : ∀ operator ∈ ([] : List Link), isScopeOperator operator.name = true := by nofun
  have alone := Meaning.ofLinks_append noOperator stops behind
  rw [List.nil_append] at alone
  unfold declaredByChain
  rw [Meaning.ofLinks_append all stops, alone, noGroup]
  cases ResourceKind.ofName? link.name with
  | some kind => rfl
  | none => cases isVerb link.name <;> rfl

/-- No routes are looked for in the functions given to a declaring call. -/
theorem bodiesOf_append (all : ∀ operator ∈ operators, isScopeOperator operator.name = true)
    (declares : Declares link.name) : bodiesOf (operators ++ link :: behind) = [] := by
  obtain ⟨stops, noGroup⟩ := declares.stops
  unfold bodiesOf
  rw [Meaning.ofLinks_append all stops, noGroup]
  rcases declares with isVerb | isResource
  · rw [isVerb]
    cases ResourceKind.ofName? link.name <;> rfl
  · obtain ⟨kind, isKind⟩ := Option.isSome_iff_exists.mp isResource
    rw [isKind]
    rfl

theorem routesBelow_of_declaring (isCall : call.isCall = true) (isRouter : isRouterChain call = true)
    (all : ∀ operator ∈ operators, isScopeOperator operator.name = true)
    (chain : links call = operators ++ link :: behind) (declares : Declares link.name) :
    routesBelow origin scope call =
      declaredByChain origin (scope.descend (.ofLinks operators)) (link :: behind) := by
  rw [routesBelow_of_chain isCall isRouter, chain, bodiesOf_append all declares,
    declaredByChain_append all declares, List.flatMap_nil, List.append_nil]

end Chains

/-- **Code that gives settings to the routes in a body.** -/
inductive Spells : List Setting → Node → Node → Prop
  /-- Operators in a chain, then the group. -/
  | fluent {settings : List Setting} {operators : List Link} {group : Link} {body call : Node}
      (isCall : call.isCall = true) (isRouter : isRouterChain call = true)
      (chain : links call = operators ++ [group])
      (spelled : List.Forall₂ Setting.Operator settings operators) (opens : group.name = "group")
      (given : group.arguments = [body]) (isClosure : body.isClosure = true) :
      Spells settings body call
  /-- A group with an array. -/
  | array {settings : List Setting} {group : Link} {array body call : Node}
      (isCall : call.isCall = true) (isRouter : isRouterChain call = true) (chain : links call = [group])
      (opens : group.name = "group") (given : group.arguments = [array, body])
      (isArray : array.isArray = true) (spelled : List.Forall₂ Setting.Entry settings array.keyedEntries)
      (isClosure : body.isClosure = true) : Spells settings body call
  /-- A spelling of some settings around one of further settings. -/
  | nested {outer inner : List Setting} {wrapper inside body call : Node}
      (around : Spells outer wrapper call) (holds : wrapper.outerCalls = [inside])
      (within : Spells inner body inside) : Spells (outer ++ inner) body call
  /-- Operators right before the declaring call, where the body is a single declaration without
  operators. -/
  | direct {settings : List Setting} {operators behind ownBehind : List Link} {declaring own : Link}
      {body declaration call : Node} (isClosure : body.isClosure = true)
      (holds : body.outerCalls = [declaration]) (isRouter : isRouterChain declaration = true)
      (alone : links declaration = own :: ownBehind) (declares : Declares own.name)
      (isCall : call.isCall = true) (onRouter : isRouterChain call = true)
      (chain : links call = operators ++ declaring :: behind)
      (spelled : List.Forall₂ Setting.Operator settings operators)
      (same : (own :: ownBehind).map Link.bare = (declaring :: behind).map Link.bare) :
      Spells settings body call

/-- A tree declares what its outer calls declare. -/
theorem routesBelow_eq_flatMap_outerCalls (origin : Origin) (scope : Scope) (node : Node) :
    routesBelow origin scope node = node.outerCalls.flatMap (routesBelow origin scope) := by
  by_cases isCall : node.isCall = true
  · rw [Node.outerCalls_of_isCall isCall, List.flatMap_singleton]
  · have noCall := Bool.eq_false_iff.mpr isCall
    rw [routesBelow_of_other (by rw [noCall]; exact Bool.false_ne_true),
      Node.outerCalls_of_not_isCall noCall, List.flatMap_assoc]
    refine List.flatMap_congr fun child listed => ?_
    exact routesBelow_eq_flatMap_outerCalls origin scope child
termination_by node.nodeCount
decreasing_by exact Node.nodeCount_lt_of_mem_children listed

section Arguments

variable {link : Link} {operators : List Link} {array body : Node}

/-- A function is no array, and the other way round. -/
theorem isArray_eq_false (isClosure : body.isClosure = true) : body.isArray = false := by
  rw [Node.isArray, beq_iff_eq.mp isClosure]
  rfl

theorem closures_of_body (given : link.arguments = [body]) (isClosure : body.isClosure = true) :
    link.closures = [body] := by
  simp [Link.closures, given, isClosure]

theorem ofGroup_of_body (given : link.arguments = [body]) (isClosure : body.isClosure = true) :
    GroupAttributes.ofGroup operators link = .ofLinks operators := by
  simp [GroupAttributes.ofGroup, given, isArray_eq_false isClosure]

theorem closures_of_array (given : link.arguments = [array, body]) (isArray : array.isArray = true)
    (isClosure : body.isClosure = true) : link.closures = [body] := by
  have noClosure : array.isClosure = false := by
    rw [Node.isClosure, beq_iff_eq.mp isArray]
    rfl
  simp [Link.closures, given, isClosure, noClosure]

theorem ofGroup_of_array (given : link.arguments = [array, body]) (isArray : array.isArray = true)
    (isClosure : body.isClosure = true) :
    GroupAttributes.ofGroup [] link = ({} : GroupAttributes).addArray array := by
  simp [GroupAttributes.ofGroup, GroupAttributes.ofLinks, given, isArray, isArray_eq_false isClosure]

end Arguments

theorem isScopeOperator_of_spelled {settings : List Setting} {operators : List Link}
    (spelled : List.Forall₂ Setting.Operator settings operators) :
    ∀ operator ∈ operators, isScopeOperator operator.name = true := by
  induction spelled with
  | nil => nofun
  | cons isOperator _ ih => exact List.forall_mem_cons.mpr ⟨isOperator.isScopeOperator, ih⟩

/-- **The routes of a spelling** are those of its body, in the scope behind its settings. By induction on
the spelling: each form hands the body a scope in which all of its settings are given. -/
theorem Spells.unplaced_routes {settings : List Setting} {body call : Node}
    (spells : Spells settings body call) (distinct : (settings.map Setting.key).Nodup) (origin : Origin) (scope : Scope) :
    (routesBelow origin scope call).map unplaced =
      (routesBelow origin (settings.foldl Scope.give scope) body).map unplaced := by
  induction spells generalizing scope with
  | fluent isCall isRouter chain spelled opens given isClosure =>
    have operators := isScopeOperator_of_spelled spelled
    rw [routesBelow_of_group isCall isRouter operators chain opens, closures_of_body given isClosure,
      List.flatMap_singleton, ofGroup_of_body given isClosure,
      GroupAttributes.ofLinks_of_operators spelled, Scope.descend_ofSettings scope distinct]
  | array isCall isRouter chain opens given isArray spelled isClosure =>
    have noOperator : ∀ operator ∈ ([] : List Link), isScopeOperator operator.name = true := by nofun
    rw [routesBelow_of_group isCall isRouter noOperator chain opens,
      closures_of_array given isArray isClosure, List.flatMap_singleton,
      ofGroup_of_array given isArray isClosure, GroupAttributes.addArray_of_entries spelled distinct,
      Scope.descend_ofSettings scope distinct]
  | nested around holds within outerRoutes innerRoutes =>
    rw [List.map_append] at distinct
    rw [outerRoutes distinct.of_append_left, routesBelow_eq_flatMap_outerCalls, holds,
      List.flatMap_singleton, innerRoutes distinct.of_append_right, List.foldl_append]
  | @direct _ _ _ _ declaring own body declaration _ isClosure holds isRouter alone declares isCall onRouter
      chain spelled same =>
    have sameName := congrArg Link.name (List.cons.inj same).1
    rw [Link.name_bare, Link.name_bare] at sameName
    have isDeclaration : declaration.isCall = true :=
      Node.isCall_of_mem_outerCalls (holds ▸ List.mem_singleton_self declaration)
    have noOperator : ∀ operator ∈ ([] : List Link), isScopeOperator operator.name = true := by nofun
    rw [routesBelow_of_declaring isCall onRouter (isScopeOperator_of_spelled spelled) chain
        (sameName ▸ declares),
      GroupAttributes.ofLinks_of_operators spelled, Scope.descend_ofSettings scope distinct,
      routesBelow_eq_flatMap_outerCalls origin _ body, holds, List.flatMap_singleton,
      routesBelow_of_declaring isDeclaration isRouter noOperator alone declares,
      unplaced_declaredByChain origin origin, ← same, ← unplaced_declaredByChain origin origin]
    rfl

/-- **All spellings of a group declare the same routes**: whatever the enclosing scope, two pieces of code
that give the same settings, in any order, to bodies of the same code declare the same routes in the same
order, but for the sites of their declarations. -/
theorem unplaced_routes_eq_of_spells {settings others : List Setting} {body otherBody call otherCall : Node}
    (distinct : (settings.map Setting.key).Nodup) (reordered : settings.Perm others)
    (spells : Spells settings body call) (spellsToo : Spells others otherBody otherCall)
    (sameBody : body.bare = otherBody.bare) (origin otherOrigin : Origin) (scope : Scope) :
    (routesBelow origin scope call).map unplaced =
      (routesBelow otherOrigin scope otherCall).map unplaced := by
  have otherDistinct : (others.map Setting.key).Nodup := ((reordered.map _).nodup_iff).mp distinct
  rw [spells.unplaced_routes distinct, spellsToo.unplaced_routes otherDistinct,
    Scope.foldl_give_perm scope distinct reordered]
  exact unplaced_routesBelow origin otherOrigin _ body otherBody sameBody

/-- A group with an array, and the same settings right before the declaration in it. -/
theorem unplaced_routes_eq_of_spells_array :
    ∃ grouped ∈ (Node.ofSource
      "<?php Route::group(['as'=>'n','prefix'=>'a'],fn()=>Route::get('/x'));").outerCalls,
    ∃ direct ∈ (Node.ofSource "<?php Route::prefix('a')->name('n')->get('/x');").outerCalls,
    ∃ body, Spells [.name "n", .pathPrefix "a"] body grouped ∧
      Spells [.pathPrefix "a", .name "n"] body direct ∧
      ∀ origin otherOrigin scope, (routesBelow origin scope grouped).map unplaced =
        (routesBelow otherOrigin scope direct).map unplaced := by
  have alone : ∀ {α : Type} {list : List α} {value : α}, list.length = 1 → value ∈ list →
      list = [value] := by
    intro α list value one listed
    obtain ⟨other, rfl⟩ := List.length_eq_one_iff.mp one
    rw [List.mem_singleton.mp listed]
  -- A link that declares a route at a path, and nothing behind it.
  let shown := fun link : Link =>
    (link.name, link.arguments.map fun value => (value.kind, value.text, value.children.length))
  have getsPath : ∀ {chain : List Link}, chain.map shown = [("get", [(.string, "'/x'", 0)])] →
      ∃ link, chain = [link] ∧ link.name = "get" ∧
        link.arguments.map Node.bare = [.mk .string ⟨0, 0⟩ "'/x'" []] := by
    intro chain shape
    obtain ⟨link, rfl, isShown⟩ := List.map_eq_singleton_iff.mp shape
    obtain ⟨isGet, given⟩ := Prod.mk.inj isShown
    obtain ⟨⟨kind, span, text, children⟩, values, isValue⟩ := List.map_eq_singleton_iff.mp given
    obtain ⟨rfl, rfl, noChildren⟩ : kind = .string ∧ text = "'/x'" ∧ children.length = 0 := by
      simpa [Node.kind, Node.text, Node.children] using isValue
    rw [List.length_eq_zero_iff.mp noChildren] at values
    exact ⟨link, rfl, isGet, by rw [values]; rfl⟩
  -- All that is read from one tree is read in one evaluation.
  have grouping : (Node.ofSource
      "<?php Route::group(['as'=>'n','prefix'=>'a'],fn()=>Route::get('/x'));").outerCalls.any
      (fun grouped => isRouterChain grouped && (links grouped).length == 1 && (links grouped).any fun group =>
      group.name == "group" && group.arguments.length == 2 && (group.arguments.take 1).any fun array =>
      array.isArray &&
      decide (List.Forall₂ Setting.Entry [.name "n", .pathPrefix "a"] array.keyedEntries) &&
      (group.arguments.drop 1).any fun body => body.isClosure && body.outerCalls.length == 1 &&
      body.outerCalls.any fun declaration => isRouterChain declaration &&
      (links declaration).map shown == [("get", [(.string, "'/x'", 0)])]) = true := by
    decide +kernel
  have placing : (Node.ofSource "<?php Route::prefix('a')->name('n')->get('/x');").outerCalls.any
      (fun direct => isRouterChain direct &&
      decide (List.Forall₂ Setting.Operator [.pathPrefix "a", .name "n"] ((links direct).take 2)) &&
      ((links direct).drop 2).map shown == [("get", [(.string, "'/x'", 0)])]) = true := by
    decide +kernel
  simp only [List.any_eq_true, Bool.and_eq_true, decide_eq_true_eq, beq_iff_eq] at grouping placing
  obtain ⟨grouped, isGrouped, ⟨isRouter, oneCall⟩, group, isGroup, ⟨opens, twoArguments⟩, array, isFirst,
    ⟨isArray, entries⟩, body, isSecond, ⟨isClosure, oneInside⟩, declaration, isInside, onRouter,
    ownShape⟩ := grouping
  obtain ⟨direct, isDirect, ⟨isRouterToo, spelled⟩, declaringShape⟩ := placing
  obtain ⟨own, ownChain, isGet, ownPath⟩ := getsPath ownShape
  obtain ⟨declaring, rest, isGetToo, path⟩ := getsPath declaringShape
  have arguments : group.arguments = [array, body] := by
    rw [← List.take_append_drop 1 group.arguments, alone (by simp [twoArguments]) isFirst,
      alone (by simp [twoArguments]) isSecond, List.singleton_append]
  have spells : Spells [.name "n", .pathPrefix "a"] body grouped :=
    .array (Node.isCall_of_mem_outerCalls isGrouped) isRouter (alone oneCall isGroup) opens arguments
      isArray entries isClosure
  have chain : links direct = (links direct).take 2 ++ declaring :: [] := by
    rw [← rest, List.take_append_drop]
  have same : [own].map Link.bare = [declaring].map Link.bare := by
    simp only [List.map_singleton, Link.bare, isGet, isGetToo, ownPath, path]
  have spellsToo : Spells [.pathPrefix "a", .name "n"] body direct :=
    .direct isClosure (alone oneInside isInside) onRouter ownChain (.inl (by rw [isGet]; decide))
      (Node.isCall_of_mem_outerCalls isDirect) isRouterToo chain spelled same
  exact ⟨grouped, isGrouped, direct, isDirect, body, spells, spellsToo,
    unplaced_routes_eq_of_spells (by decide) (.swap ..) spells spellsToo rfl⟩

end Route

end ArtifactIndex
