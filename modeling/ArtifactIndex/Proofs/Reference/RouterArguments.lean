/-
**The literals of route declarations are no references.**

A literal is given to a call directly or inside arrays. Given to a call of a chain on the router, it is
a part of a declaration, whatever else is declared under its value. The one exception is the template of
a route that only shows a view.

* `Place.GivenTo`: to which call a node is given, through arrays at any depth;
* `Place.owner?_eq_some`: what is found by climbing out of the arrays is that call;
* `classify?_of_isRouterChain`: how a literal in a chain on the router is classified;
* `recorded_only_as_route_view`: so it is recorded only as the view that a route shows.
-/

import ArtifactIndex.Proofs.Route.Chains
import ArtifactIndex.Proofs.Usage.Programs
import ArtifactIndex.Tree.Memory

namespace ArtifactIndex

open Route (isRouterCall isRouterChain chainRoot)

/-! ### Arguments of calls -/

namespace Place

/-- **The call that a node is given to**, the position of the argument, and whether the node stands
inside an array there: a node is given as an argument itself, or is a key or a value of an array that is
given. -/
inductive GivenTo : Place → Place → Nat → Bool → Prop
  | directly {place argument list call : Place} (above : place.up? = some argument)
      (isArgument : argument.node.kind = .argument) (inList : argument.up? = some list)
      (isList : list.node.kind = .arguments) (ofCall : list.up? = some call)
      (isCall : call.node.isCall = true) :
      GivenTo place call
        ((list.node.children.take argument.indexInParent).filter (·.kind == .argument)).length false
  | inArray {place element array call : Place} {position : Nat} {nested : Bool}
      (above : place.up? = some element) (isElement : element.node.kind = .element)
      (inside : element.up? = some array) (isArray : array.node.isArray = true)
      (given : GivenTo array call position nested) : GivenTo place call position true

variable {place call : Place} {position : Nat} {nested : Bool}

theorem enclosingArray?_of_argument {argument : Place} (above : place.up? = some argument)
    (isArgument : argument.node.kind = .argument) : place.enclosingArray? = none := by
  unfold enclosingArray?
  rw [above]
  simp [isArgument]

theorem enclosingArray?_of_element {element array : Place} (above : place.up? = some element)
    (isElement : element.node.kind = .element) (inside : element.up? = some array)
    (isArray : array.node.isArray = true) : ∃ isKey, place.enclosingArray? = some (array, isKey) := by
  unfold enclosingArray?
  simp [above, isElement, inside, isArray]

theorem enclosingCall?_eq_some_iff :
    place.enclosingCall? = some (call, position) ↔ place.GivenTo call position false := by
  constructor
  · intro found
    unfold enclosingCall? at found
    split at found
    · cases found
    · next argument above =>
      split at found
      · cases found
      · next isArgument =>
        split at found
        · cases found
        · next list inList =>
          split at found
          · cases found
          · next isList =>
            split at found
            · cases found
            · next ofCall =>
              split at found
              · next isCall =>
                cases found
                exact .directly above (by simpa using isArgument) inList (by simpa using isList)
                  ofCall isCall
              · cases found
  · rintro (⟨above, isArgument, inList, isList, ofCall, isCall⟩ | _)
    unfold enclosingCall?
    simp [above, isArgument, inList, isList, ofCall, isCall]

/-- Climbing out of arrays ends at what is given itself. -/
theorem outermostArray_of_givenTo (given : place.GivenTo call position nested) :
    place.outermostArray.1.enclosingCall? = some (call, position) ∧
      place.outermostArray.2 = nested := by
  induction given with
  | directly above isArgument inList isList ofCall isCall =>
    rw [outermostArray]
    split
    · exact ⟨enclosingCall?_eq_some_iff.mpr (.directly above isArgument inList isList ofCall isCall), rfl⟩
    · next found => cases (enclosingArray?_of_argument above isArgument).symm.trans found
  | inArray above isElement inside isArray given ih =>
    obtain ⟨isKey, found⟩ := enclosingArray?_of_element above isElement inside isArray
    rw [outermostArray]
    split
    · next missing => cases found.symm.trans missing
    · next isFound =>
      cases found.symm.trans isFound
      exact ⟨ih.1, rfl⟩

/-- **The owner of a literal** is the call that it is given to. -/
theorem owner?_eq_some {callee : Callee} (given : place.GivenTo call position nested)
    (known : call.node.callee? = some callee) :
    place.owner? = some { call := call.node, callee, index := position, nested } := by
  obtain ⟨found, isNested⟩ := outermostArray_of_givenTo given
  unfold owner?
  generalize place.outermostArray = climbed at found isNested
  simp [found, known, isNested]

/-- What is given directly stands in no array. -/
theorem enclosingArray?_of_givenTo (given : place.GivenTo call position false) :
    place.enclosingArray? = none := by
  cases given with
  | directly above isArgument => exact enclosingArray?_of_argument above isArgument

/-- The arguments of a call that something is given to stand among its children. -/
theorem exists_arguments_of_givenTo {root : Node} (inTree : place.InTree root)
    (given : place.GivenTo call position nested) :
    ∃ list ∈ call.node.children, list.kind = .arguments := by
  induction given with
  | directly above isArgument inList isList ofCall isCall =>
    have inList := (inTree.up? above).1.up? inList
    exact ⟨_, List.mem_of_getElem? (inList.1.up? ofCall).2, isList⟩
  | inArray above isElement inside isArray given ih =>
    exact ih ((inTree.up? above).1.up? inside).1

end Place

/-! ### Classification -/

/-- The template of a route's view, by what is looked at. -/
theorem isRouteViewTarget_iff {owner : Owner} :
    isRouteViewTarget owner = true ↔
      owner.index = 1 ∧ owner.nested = false ∧ owner.callee.name = "view" ∧
        isRouterCall owner.call = true := by
  simp [isRouteViewTarget, and_assoc]

variable {context : LiteralContext} {owner : Owner} {classified : Classified}
  {isKnownKey : String → Bool}

/-- To routes, a literal in a chain on the router is a part of a declaration, unless it is the template
of a route's view. -/
theorem routeRole?_of_isRouterChain (notBlank : context.isBlank = false)
    (owned : context.owner? = some owner) (isMethod : ∀ name, owner.callee ≠ .function name)
    (isRouter : isRouterChain owner.call = true) :
    routeRole? context = if isRouteViewTarget owner then none else some .definition := by
  have role : routeRole? context = methodRouteRole? context.place owner := by
    unfold routeRole?
    rw [notBlank, owned]
    cases isCallee : owner.callee with
    | function name => exact absurd isCallee (isMethod name)
    | static _ _ => simp [isCallee]
    | member _ _ => simp [isCallee]
  rw [role, methodRouteRole?, isRouter]
  rfl

/-- The template of a route's view is nothing to translations, by its place. -/
theorem translationRole?_of_isRouteViewTarget (owned : context.owner? = some owner)
    (alone : context.place.enclosingArray? = none) (isTarget : isRouteViewTarget owner = true) :
    translationRole? context = none := by
  have second := (isRouteViewTarget_iff.mp isTarget).1
  unfold translationRole?
  simp [owned, alone, Owner.isDirectFirst, second]

theorem isViewReference_of_isRouteViewTarget (notBlank : context.isBlank = false)
    (owned : context.owner? = some owner) (isMethod : ∀ name, owner.callee ≠ .function name)
    (isTarget : isRouteViewTarget owner = true) : isViewReference context = true := by
  unfold isViewReference
  rw [notBlank, owned]
  simp only [Bool.not_false, Bool.true_and]
  split
  · next name isFunction => exact absurd isFunction (isMethod name)
  · simp [isTarget]
  · exact isTarget

/-- **How a literal in a chain on the router is classified:** as a part of a declaration, or, if it is
the template of a route's view, as a view. Known translation keys are not asked for. -/
theorem classify?_eq_of_isRouterChain (isKnownKey : String → Bool) (notBlank : context.isBlank = false)
    (owned : context.owner? = some owner) (isMethod : ∀ name, owner.callee ≠ .function name)
    (isRouter : isRouterChain owner.call = true)
    (alone : owner.nested = false → context.place.enclosingArray? = none) :
    classify? isKnownKey context =
      some (if isRouteViewTarget owner then .view else .route .definition) := by
  unfold classify?
  rw [notBlank, routeRole?_of_isRouterChain notBlank owned isMethod isRouter]
  by_cases isTarget : isRouteViewTarget owner = true
  · have nested := (isRouteViewTarget_iff.mp isTarget).2.1
    rw [translationRole?_of_isRouteViewTarget owned (alone nested) isTarget,
      isViewReference_of_isRouteViewTarget notBlank owned isMethod isTarget]
    simp only [isTarget, if_true]
    rfl
  · rw [if_neg isTarget, if_neg isTarget]
    rfl

theorem classify?_of_isRouterChain (owned : context.owner? = some owner)
    (isMethod : ∀ name, owner.callee ≠ .function name) (isRouter : isRouterChain owner.call = true)
    (alone : owner.nested = false → context.place.enclosingArray? = none)
    (isClassified : classify? isKnownKey context = some classified) :
    classified = if isRouteViewTarget owner then .view else .route .definition := by
  have notBlank : context.isBlank = false := by
    unfold classify? at isClassified
    split at isClassified
    · cases isClassified
    · next notBlank => exact Bool.eq_false_iff.mpr notBlank
  rw [classify?_eq_of_isRouterChain isKnownKey notBlank owned isMethod isRouter alone] at isClassified
  exact (Option.some.inj isClassified).symm

/-! ### Usages -/

/-- **The literals of declarations are not recorded.** In a program, whatever is declared, a literal
given to a call of a chain on the router is recorded only as a view, and only as the second argument
itself of a call of `view` that is the root of its chain. -/
theorem recorded_only_as_route_view (tree : Tree) (artifacts : Artifacts) {file text : String}
    {place call : Place} {position : Nat} {nested : Bool} {kind : Kind} {key : String} {usage : Usage}
    (isProgram : FileCategory.of? file = some .php) (isRead : tree.read file = .ok text)
    (isLiteral : place ∈ (Node.ofSource text).literals)
    (given : place.GivenTo call position nested) (ofRouter : isRouterChain call.node = true)
    (isStored : usage ∈ (scanUsages tree artifacts).1.get kind key)
    (atLiteral : usage.site = (Origin.ofText file text).site place.node.span) :
    kind = .view ∧ position = 1 ∧ nested = false ∧ chainRoot call.node = call.node ∧
      ∃ callee, call.node.callee? = some callee ∧ callee.name = "view" := by
  obtain ⟨context, classified, isContext, isClassified, resolves⟩ :=
    means_of_mem_get isProgram isRead isLiteral isStored atLiteral
  obtain ⟨value, -, rfl⟩ := Option.map_eq_some_iff.mp isContext
  obtain ⟨callee, known, isMethod⟩ := Route.exists_callee_of_isRouterChain ofRouter
    (Place.exists_arguments_of_givenTo (Node.inTree_of_mem_literals isLiteral) given)
  have alone : nested = false → place.enclosingArray? = none := by
    rintro rfl
    exact Place.enclosingArray?_of_givenTo given
  have isEither := classify?_of_isRouterChain (Place.owner?_eq_some given known) isMethod ofRouter
    alone isClassified
  split at isEither
  · next isTarget =>
    obtain ⟨second, direct, isView, isRoot⟩ := isRouteViewTarget_iff.mp isTarget
    subst isEither
    obtain ⟨view, -, found⟩ := Option.map_eq_some_iff.mp resolves
    injection found with isKind _ _
    exact ⟨isKind.symm, second, direct, Route.chainRoot_of_isRouterCall isRoot, callee, known, isView⟩
  · subst isEither
    cases resolves

/-- A route that shows a view, in a project that has the view. -/
theorem recorded_only_as_route_view_shown :
    let file := "routes/web.php"
    let text := "<?php Route::view('/w', 'w');"
    let tree := (MemoryFiles.mk ⟨[("resources/views/w.blade.php", ""), (file, text)]⟩).toTree
    let artifacts := ((Index.empty false).refresh tree).artifacts
    let usage : Usage := ⟨file, 0, { file, line := 0, start := 24, stop := 27 }, .name⟩
    usage ∈ (scanUsages tree artifacts).1.get .view "w" ∧
      ∃ place ∈ (Node.ofSource text).literals, ∃ call, place.GivenTo call 1 false ∧
        isRouterChain call.node = true ∧
        usage.site = (Origin.ofText file text).site place.node.span ∧
        chainRoot call.node = call.node := by
  intro file text tree artifacts usage
  have isProgram : FileCategory.of? file = some .php := by decide +kernel
  have isRead : tree.read file = .ok text := by decide +kernel
  have isStored : usage ∈ (scanUsages tree artifacts).1.get .view "w" := by decide +kernel
  have second : ((Node.ofSource text).literals[1]?.bind fun place => place.enclosingCall?.map fun found =>
      (found.2, isRouterChain found.1.node, (Origin.ofText file text).site place.node.span)) =
        some (1, true, usage.site) := by decide +kernel
  obtain ⟨place, isSecond, found⟩ := Option.bind_eq_some_iff.mp second
  obtain ⟨⟨call, position⟩, isFound, same⟩ := Option.map_eq_some_iff.mp found
  injection same with isPosition same
  injection same with ofRouter atLiteral
  have isLiteral := List.mem_of_getElem? isSecond
  have given : place.GivenTo call 1 false := Place.enclosingCall?_eq_some_iff.mp (isPosition ▸ isFound)
  have recorded := recorded_only_as_route_view tree artifacts isProgram isRead isLiteral given ofRouter
    isStored atLiteral.symm
  exact ⟨isStored, place, isLiteral, call, given, ofRouter, atLiteral.symm, recorded.2.2.2.1⟩

end ArtifactIndex
