/-
**Methods of controllers as references to routes.**

A literal that stands with a class in an array of two is the method of a controller. Such an array is given
to a call, perhaps inside other arrays, so the method is not the first argument itself, which the helpers
for names and paths ask for. The helper for actions looks into arrays, and takes the method alone for an
action.

* `Place.owner?_eq_some_iff`: the owner of a literal is the call that it is given to;
* `Place.nested_of_isControllerAction`: a controller's method is given inside an array;
* `directiveRouteRole?_eq_some_iff_of_nested`, `functionRouteRole?_eq_some_iff_of_nested`,
  `methodRouteRole?_ne_reference_of_nested`: which references each kind of call makes of a literal inside an
  array;
* `routeRole?_of_isControllerAction_iff`: a controller's method is a reference exactly inside the first
  argument of `action`.
-/

import ArtifactIndex.Proofs.Reference.RouterArguments

namespace ArtifactIndex

/-! ### Owners -/

namespace Place

variable {place call array : Place} {position : Nat} {nested isKey : Bool}

/-- What encloses a node is an array with an entry around the node. -/
theorem exists_element_of_enclosingArray? (found : place.enclosingArray? = some (array, isKey)) :
    ∃ element, place.up? = some element ∧ element.node.kind = .element ∧ element.up? = some array ∧
      array.node.isArray = true := by
  unfold enclosingArray? at found
  split at found
  · cases found
  · next element above =>
    split at found
    · cases found
    · next isElement =>
      split at found
      · cases found
      · next outer inside =>
        split at found
        · next isArray =>
          cases found
          exact ⟨element, above, by simpa using isElement, inside, isArray⟩
        · cases found

/-- A node is given to the call that the outermost array around it is given to. -/
theorem givenTo_of_outermostArray (found : place.outermostArray.1.enclosingCall? = some (call, position)) :
    place.GivenTo call position place.outermostArray.2 := by
  fun_induction outermostArray place with
  | case1 place alone => exact enclosingCall?_eq_some_iff.mp found
  | case2 place array isKey inArray ih =>
    obtain ⟨element, above, isElement, inside, isArray⟩ := exists_element_of_enclosingArray? inArray
    exact .inArray above isElement inside isArray (ih found)

/-- **The owner of a literal** is exactly the call that it is given to, when that call has a name. -/
theorem owner?_eq_some_iff {owner : Owner} :
    place.owner? = some owner ↔
      ∃ call, place.GivenTo call owner.index owner.nested ∧ call.node = owner.call ∧
        call.node.callee? = some owner.callee := by
  constructor
  · intro found
    unfold owner? at found
    dsimp only at found
    split at found
    · cases found
    · next call index given =>
      split at found
      · cases found
      · next callee known =>
        cases found
        exact ⟨call, givenTo_of_outermostArray given, rfl, known⟩
  · rintro ⟨call, given, same, known⟩
    rw [owner?_eq_some given known, same]

/-- **A controller's method is given inside an array.** -/
theorem nested_of_isControllerAction (isMethod : isControllerAction place = true)
    (given : place.GivenTo call position nested) : nested = true := by
  by_contra direct
  rw [Bool.not_eq_true] at direct
  subst direct
  unfold isControllerAction at isMethod
  rw [enclosingArray?_of_givenTo given] at isMethod
  cases isMethod

end Place

/-! ### Arguments inside arrays -/

section Nested

variable {owner : Owner} (nested : owner.nested = true)

include nested

theorem isDirectFirst_of_nested : owner.isDirectFirst = false := by
  rw [Owner.isDirectFirst, nested]
  exact Bool.and_false _

/-- Of the directives, only `action` makes a reference of a literal inside an array. -/
theorem directiveRouteRole?_eq_some_iff_of_nested {directive : Option String} {role : RouteRole} :
    directiveRouteRole? directive owner = some role ↔
      role = .reference .action ∧ owner.index = 0 ∧ directive = some "action" := by
  have notFirst := isDirectFirst_of_nested nested
  unfold directiveRouteRole?
  split
  · simp [notFirst]
  · simp [notFirst]
  · simp [and_comm, @eq_comm _ role]
  · next others =>
    constructor
    · rintro ⟨⟩
    · rintro ⟨-, -, isAction⟩
      exact absurd isAction others

/-- Of the functions, only `action` makes a reference of a literal inside an array. -/
theorem functionRouteRole?_eq_some_iff_of_nested {name : String} {role : RouteRole} :
    functionRouteRole? name owner = some role ↔
      role = .reference .action ∧ owner.index = 0 ∧ name = "action" := by
  unfold functionRouteRole?
  rw [isDirectFirst_of_nested nested]
  by_cases isAction : name = "action"
  · subst isAction
    simp [and_comm, @eq_comm _ role]
  · simp [isAction]

/-- No method makes a reference of a literal inside an array. -/
theorem methodRouteRole?_ne_reference_of_nested (place : Place) (helper : RouteHelper) :
    methodRouteRole? place owner ≠ some (.reference helper) := by
  intro role
  unfold methodRouteRole? at role
  rw [isDirectFirst_of_nested nested, Bool.and_false] at role
  split at role
  · cases role
  · split at role
    · cases role
    · split at role
      · cases role
      · cases role

end Nested

/-! ### Methods of controllers -/

/-- The call is one of `action`: the function, or what stands for the directive of that name. -/
def IsActionCall (directive : Option String) (call : Node) : Prop :=
  call.callee? = some (.function "action") ∨
    call.callee? = some (.function directiveFunction) ∧ directive = some "action"

variable {context : LiteralContext} {helper : RouteHelper}

/-- **When a literal inside an array is a reference:** if it is given in the first argument of `action`. -/
theorem routeRole?_eq_reference_iff_of_nested {owner : Owner} (owned : context.owner? = some owner)
    (nested : owner.nested = true) :
    routeRole? context = some (.reference helper) ↔
      helper = .action ∧ context.isBlank = false ∧ owner.index = 0 ∧
        (owner.callee = .function "action" ∨
          owner.callee = .function directiveFunction ∧ context.directive = some "action") := by
  obtain ⟨call, callee, index, inArray⟩ := owner
  cases nested
  unfold routeRole?
  rw [owned]
  cases notBlank : context.isBlank with
  | true => simp
  | false =>
    cases callee with
    | function name =>
      by_cases isDirective : name = directiveFunction
      · subst isDirective
        have different : directiveFunction ≠ "action" := by decide
        simp [directiveRouteRole?_eq_some_iff_of_nested, different]
      · simp [functionRouteRole?_eq_some_iff_of_nested, isDirective]
    | static scope name => simp [methodRouteRole?_ne_reference_of_nested]
    | member object name => simp [methodRouteRole?_ne_reference_of_nested]

/-- **A controller's method is a reference to a route exactly inside the first argument of `action`**, at
any depth of arrays; it is then a reference to an action. To no other call, function, directive or method,
is it a reference. -/
theorem routeRole?_of_isControllerAction_iff (isMethod : isControllerAction context.place = true) :
    routeRole? context = some (.reference helper) ↔
      helper = .action ∧ context.isBlank = false ∧
        ∃ call, context.place.GivenTo call 0 true ∧ IsActionCall context.directive call.node := by
  cases owned : context.owner? with
  | none =>
    constructor
    · intro role
      unfold routeRole? at role
      rw [owned] at role
      split at role <;> cases role
    · rintro ⟨-, -, call, given, isAction⟩
      obtain ⟨callee, known⟩ : ∃ callee, call.node.callee? = some callee := by
        rcases isAction with known | ⟨known, -⟩ <;> exact ⟨_, known⟩
      have isOwned := Place.owner?_eq_some given known
      cases owned.symm.trans isOwned
  | some owner =>
    obtain ⟨call, given, -, known⟩ := Place.owner?_eq_some_iff.mp owned
    have nested := Place.nested_of_isControllerAction isMethod given
    rw [routeRole?_eq_reference_iff_of_nested owned nested]
    refine and_congr_right fun _ => and_congr_right fun _ => ?_
    constructor
    · rintro ⟨isFirst, isAction⟩
      rw [isFirst, nested] at given
      refine ⟨call, given, ?_⟩
      rw [IsActionCall, known]
      simpa using isAction
    · rintro ⟨other, givenFirst, isAction⟩
      -- A literal is given to one call only.
      have same := (Place.outermostArray_of_givenTo given).1.symm.trans
        (Place.outermostArray_of_givenTo givenFirst).1
      injection same with same
      injection same with isCall isFirst
      subst isCall
      rw [IsActionCall, known] at isAction
      exact ⟨isFirst, by simpa using isAction⟩

/-- A controller's method in an array given to `route` is no reference. -/
theorem controller_method_given_to_route :
    let text := "<?php redirect()->route([UserController::class, 'index']);"
    ∃ place ∈ (Node.ofSource text).literals,
      ∃ context ∈ LiteralContext.of? place "app/x.php" none none,
        isControllerAction context.place = true ∧
          ∀ helper, routeRole? context ≠ some (.reference helper) := by
  intro text
  have first : ((Node.ofSource text).literals[0]?.bind fun place =>
      (LiteralContext.of? place "app/x.php" none none).bind fun context =>
        context.place.outermostArray.1.enclosingCall?.map fun found =>
          (isControllerAction context.place, found.1.node.callee?.map Callee.name)) =
      some (true, some "route") := by decide +kernel
  obtain ⟨place, isFirst, found⟩ := Option.bind_eq_some_iff.mp first
  obtain ⟨context, isContext, found⟩ := Option.bind_eq_some_iff.mp found
  obtain ⟨⟨call, position⟩, isCall, same⟩ := Option.map_eq_some_iff.mp found
  injection same with isMethod isRoute
  refine ⟨place, List.mem_of_getElem? isFirst, context, isContext, isMethod, fun helper role => ?_⟩
  obtain ⟨-, -, other, given, isAction⟩ := (routeRole?_of_isControllerAction_iff isMethod).mp role
  cases isCall.symm.trans (Place.outermostArray_of_givenTo given).1
  rcases isAction with known | ⟨known, -⟩ <;> rw [known] at isRoute <;> revert isRoute <;> decide

/-- A controller's method in an array given to `action` is taken for an action. -/
theorem controller_method_taken_for_action :
    let text := "<?php action([UserController::class, 'index']);"
    ∃ place ∈ (Node.ofSource text).literals,
      ∃ context ∈ LiteralContext.of? place "app/x.php" none none,
        context.value = "index" ∧ isControllerAction context.place = true ∧
          routeRole? context = some (.reference .action) := by
  intro text
  have first : ((Node.ofSource text).literals[0]?.bind fun place =>
      (LiteralContext.of? place "app/x.php" none none).map fun context =>
        (context.value, isControllerAction context.place, routeRole? context)) =
      some ("index", true, some (.reference .action)) := by decide +kernel
  obtain ⟨place, isFirst, found⟩ := Option.bind_eq_some_iff.mp first
  obtain ⟨context, isContext, same⟩ := Option.map_eq_some_iff.mp found
  injection same with isIndex same
  injection same with isMethod role
  exact ⟨place, List.mem_of_getElem? isFirst, context, isContext, isIndex, isMethod, role⟩

end ArtifactIndex
