/-
**Routes that show a view.**

A route may be declared by `view`, with the template as the second argument. The declaration is found by
taking its whole chain apart, so that scope operators may stand before it. The template is found by
looking at the call alone, and is taken for a view only when that call is made on the router itself.

* `callee?_of_mem_links`: the calls of a chain have the callees that the chain is read from;
* `isRouterCall_iff_chainRoot_eq`: of the calls of a chain on the router, the first is made on the router;
* `classified_as_view_iff_isRouterCall`: the template of a declared route is a view exactly when the
  declaring call is made on the router; behind a scope operator it is a part of the declaration.
-/

import ArtifactIndex.Proofs.Reference.RouterArguments

namespace ArtifactIndex

open Route (isRouterCall isRouterChain chainRoot)

namespace Route

variable {outer : Node} {link : Link} {before behind : List Link}

/-! ### Chains that declare a route -/

/-- A call of a chain has the name that its callee has. -/
theorem callee?_of_mem_links (listed : link ∈ links outer) :
    ∃ callee, link.call.callee? = some callee ∧ callee.name = link.name := by
  induction outer using chain_induction with
  | unknown call missing =>
    rw [links_of_callee?_eq_none missing] at listed
    cases listed
  | first call callee known alone =>
    rw [links_of_object?_eq_none known alone, List.mem_singleton] at listed
    subst listed
    exact ⟨callee, known, rfl⟩
  | onward call callee object known found ih =>
    rw [links_eq_append known found, List.mem_append, List.mem_singleton] at listed
    rcases listed with inner | rfl
    · exact ih inner
    · exact ⟨callee, known, rfl⟩

/-- **The declaring call** stands in the chain, behind the scope operators. -/
theorem eq_append_of_ofLinks_eq_verb {chain : List Link}
    (declares : Meaning.ofLinks chain = .verb before link behind) :
    chain = before ++ link :: behind := by
  unfold Meaning.ofLinks at declares
  split at declares
  · cases declares
  · next first rest shape =>
    split at declares
    · cases declares
    · split at declares
      · cases declares
      · split at declares
        · cases declares
          rw [← shape]
          exact (List.takeWhile_append_dropWhile).symm
        · cases declares

/-- Behind scope operators only, a call of `view` declares a route. -/
theorem ofLinks_eq_verb_of_view (before behind : List Link)
    (areOperators : before.all (isScopeOperator ·.name) = true) (shows : link.name = "view") :
    Meaning.ofLinks (before ++ link :: behind) = .verb before link behind := by
  have areOperators : ∀ other ∈ before, isScopeOperator other.name = true :=
    List.all_eq_true.mp areOperators
  have isOther : isScopeOperator link.name = false := by
    rw [shows]
    decide
  unfold Meaning.ofLinks
  rw [List.takeWhile_append_of_pos areOperators, List.dropWhile_append_of_pos areOperators,
    List.takeWhile_cons, List.dropWhile_cons, isOther]
  simp only [Bool.false_eq_true, if_false, List.append_nil, shows]
  rfl

/-- A call of a function has no object, so that it is the root of its chain, and no call on the router. -/
theorem not_function_of_isRouterChain {callee : Callee} (isRouter : isRouterChain outer = true)
    (known : outer.callee? = some callee) (name : String) : callee ≠ .function name := by
  rintro rfl
  obtain ⟨_, _, isKind, -⟩ | ⟨_, _, _, -, -, other⟩ | ⟨_, _, _, -, -, other⟩ := callee?_eq_some known
  · have isRoot : chainRoot outer = outer := by
      rw [chainRoot]
      split
      · rfl
      · next found =>
        unfold Node.object? at found
        rw [isKind] at found
        cases found
    unfold isRouterChain isRouterCall at isRouter
    rw [isRoot, known] at isRouter
    cases isRouter
  · cases other
  · cases other

/-- **Which call of a chain on the router is made on the router:** its root. -/
theorem isRouterCall_iff_chainRoot_eq (isRouter : isRouterChain outer = true) :
    isRouterCall outer = true ↔ chainRoot outer = outer := by
  refine ⟨chainRoot_of_isRouterCall, fun isRoot => ?_⟩
  rw [isRouterChain, isRoot] at isRouter
  exact isRouter

/-- **Behind another call of its chain**, a call is not made on the router: its object is a call. -/
theorem isRouterCall_eq_false_of_links {before behind : List Link}
    (shape : links outer = before ++ link :: behind) (notFirst : before ≠ []) :
    isRouterCall link.call = false := by
  induction outer using chain_induction generalizing behind with
  | unknown call missing =>
    rw [links_of_callee?_eq_none missing] at shape
    exact absurd shape.symm (List.append_ne_nil_of_right_ne_nil _ (List.cons_ne_nil _ _))
  | first call callee known alone =>
    rw [links_of_object?_eq_none known alone] at shape
    obtain ⟨first, rest, rfl⟩ := List.exists_cons_of_ne_nil notFirst
    injection shape with _ isNil
    exact absurd isNil.symm (List.append_ne_nil_of_right_ne_nil _ (List.cons_ne_nil _ _))
  | onward call callee object known found ih =>
    rw [links_eq_append known found] at shape
    rcases List.eq_nil_or_concat behind with rfl | ⟨inner, last, rfl⟩
    · obtain ⟨rfl, same⟩ := List.append_inj' shape rfl
      injection same with isLink
      subst isLink
      have isCall : object.isCall = true := by
        cases isKnown : object.callee? with
        | none => exact absurd (links_of_callee?_eq_none isKnown) notFirst
        | some _ => exact isCall_of_callee? isKnown
      refine Bool.eq_false_iff.mpr fun isRouter => ?_
      rw [isCall_object_of_isRouterCall isRouter found] at isCall
      cases isCall
    · rw [List.concat_eq_append, ← List.cons_append, ← List.append_assoc] at shape
      exact ih (List.append_inj' shape rfl).1

end Route

/-! ### The template of a declared route -/

/-- **The template of a route that shows a view.** In a chain on the router that declares a route by
`view`, a literal that is the second argument itself of that call is a view exactly when the call is made
on the router, which it is not behind a scope operator. Otherwise it is a part of the declaration, whatever
is declared under its value, and is not recorded as a usage of the view it names. -/
theorem classified_as_view_iff_isRouterCall {outer : Node} {before behind : List Route.Link}
    {link : Route.Link} {place call : Place} {value : String} (ofRouter : isRouterChain outer = true)
    (declares : Route.Meaning.ofLinks (Route.links outer) = .verb before link behind)
    (shows : link.name = "view") (isCall : call.node = link.call) (given : place.GivenTo call 1 false)
    (hasValue : place.node.literal? = some value) (notBlank : allBlank value = false) :
    (∀ isKnownKey file directive markupAttribute,
      classify? isKnownKey ⟨place, value, file, directive, markupAttribute⟩ =
        some (if isRouterCall link.call then .view else .route .definition)) ∧
    (isRouterCall link.call = true ↔ chainRoot link.call = link.call) ∧
    (before ≠ [] → isRouterCall link.call = false) ∧
    ∀ (tree : Tree) (artifacts : Artifacts) (file text : String) (view : View),
      FileCategory.of? file = some .php → file ∈ tree.ownFiles → tree.read file = .ok text →
      place ∈ (Node.ofSource text).literals → artifacts.views.resolve? value = some view →
      ((∃ usage ∈ (scanUsages tree artifacts).1.get .view view.name,
        usage.site = (Origin.ofText file text).site place.node.span) ↔
          isRouterCall link.call = true) := by
  have shape := Route.eq_append_of_ofLinks_eq_verb declares
  have listed : link ∈ Route.links outer := by
    rw [shape]
    exact List.mem_append_right _ List.mem_cons_self
  have isRouter := Route.isRouterChain_of_mem_links ofRouter listed
  obtain ⟨callee, known, isName⟩ := Route.callee?_of_mem_links listed
  have isTarget : isRouteViewTarget ⟨link.call, callee, 1, false⟩ = isRouterCall link.call := by
    simp [isRouteViewTarget, isName, shows]
  have classified : ∀ isKnownKey file directive markupAttribute,
      classify? isKnownKey ⟨place, value, file, directive, markupAttribute⟩ =
        some (if isRouterCall link.call then .view else .route .definition) := by
    intro isKnownKey file directive markupAttribute
    have owned : place.owner? = some ⟨link.call, callee, 1, false⟩ := by
      rw [← isCall] at known ⊢
      exact Place.owner?_eq_some given known
    rw [← isTarget]
    exact classify?_eq_of_isRouterChain isKnownKey notBlank owned
      (Route.not_function_of_isRouterChain isRouter known) isRouter
      fun _ => Place.enclosingArray?_of_givenTo given
  refine ⟨classified, Route.isRouterCall_iff_chainRoot_eq isRouter,
    Route.isRouterCall_eq_false_of_links shape, ?_⟩
  intro tree artifacts file text view isProgram isOwn isRead isLiteral resolves
  have isContext : LiteralContext.of? place file none none = some ⟨place, value, file, none, none⟩ := by
    rw [LiteralContext.of?, hasValue]
    rfl
  constructor
  · rintro ⟨usage, isStored, atLiteral⟩
    obtain ⟨context, isClassified, same, found, meant⟩ :=
      means_of_mem_get isProgram isRead isLiteral isStored atLiteral
    cases isContext.symm.trans same
    rw [classified] at found
    refine Bool.of_not_eq_false fun isOther => ?_
    rw [isOther] at found
    cases found
    cases meant
  · intro onRouter
    have means : artifacts.Means file none none place ⟨.view, view.name, .name⟩ := by
      refine ⟨_, .view, isContext, ?_, ?_⟩
      · rw [classified, onRouter]
        rfl
      · exact Option.map_eq_some_iff.mpr ⟨view, resolves, rfl⟩
    exact exists_usage_of_means isProgram isOwn isRead isLiteral means

/-- A route that shows a view, declared on the router itself. -/
theorem classified_as_view_iff_isRouterCall_shown :
    let file := "routes/web.php"
    let text := "<?php Route::view('/w', 'w');"
    let tree := (MemoryFiles.mk ⟨[("resources/views/w.blade.php", ""), (file, text)]⟩).toTree
    let artifacts := ((Index.empty false).refresh tree).artifacts
    ∃ place ∈ (Node.ofSource text).literals, ∃ call, place.GivenTo call 1 false ∧
      isRouterCall call.node = true ∧
      classify? artifacts.translations.contains ⟨place, "w", file, none, none⟩ = some .view ∧
      ∃ usage ∈ (scanUsages tree artifacts).1.get .view "w",
        usage.site = (Origin.ofText file text).site place.node.span := by
  intro file text tree artifacts
  have isProgram : FileCategory.of? file = some .php := by decide +kernel
  have isOwn : file ∈ tree.ownFiles := by decide +kernel
  have isRead : tree.read file = .ok text := by decide +kernel
  have second : ((Node.ofSource text).literals[1]?.bind fun place => place.enclosingCall?.bind fun found =>
      found.1.node.callee?.map fun callee => (found.2, isRouterCall found.1.node, callee.name,
        found.1.node.object?.isNone, place.node.literal?)) =
      some (1, true, "view", true, some "w") := by decide +kernel
  have isView : (artifacts.views.resolve? "w").map (·.name) = some "w" := by decide +kernel
  obtain ⟨place, isSecond, found⟩ := Option.bind_eq_some_iff.mp second
  obtain ⟨⟨call, position⟩, isFound, found⟩ := Option.bind_eq_some_iff.mp found
  obtain ⟨callee, known, same⟩ := Option.map_eq_some_iff.mp found
  injection same with isPosition same
  injection same with onRouter same
  injection same with isName same
  injection same with alone hasValue
  have onRouter : isRouterCall call.node = true := onRouter
  obtain ⟨view, resolves, named⟩ := Option.map_eq_some_iff.mp isView
  have isLiteral := List.mem_of_getElem? isSecond
  have given : place.GivenTo call 1 false := Place.enclosingCall?_eq_some_iff.mp (isPosition ▸ isFound)
  have ofRouter : isRouterChain call.node = true := by
    rw [isRouterChain, Route.chainRoot_of_isRouterCall onRouter]
    exact onRouter
  have declares : Route.Meaning.ofLinks (Route.links call.node) =
      .verb [] ⟨callee.name, call.node, call.node.callArguments⟩ [] := by
    rw [Route.links_of_object?_eq_none known (Option.isNone_iff_eq_none.mp alone)]
    exact Route.ofLinks_eq_verb_of_view [] [] rfl isName
  obtain ⟨classified, -, -, recorded⟩ := classified_as_view_iff_isRouterCall ofRouter declares isName
    rfl given hasValue (by decide)
  refine ⟨place, isLiteral, call, given, onRouter, ?_, ?_⟩
  · rw [classified, if_pos onRouter]
  · rw [← named]
    exact (recorded tree artifacts file text view isProgram isOwn isRead isLiteral resolves).mpr onRouter

/-- **Behind a scope operator the template is not recorded.** The chain declares a route by `view`, and
the second argument of `view` names a view of the project; but it is taken for a part of the declaration,
and the view has no usage. -/
theorem template_behind_scope_operator_not_recorded :
    let file := "routes/web.php"
    let text := "<?php Route::middleware('auth')->view('/w', 'w');"
    let tree := (MemoryFiles.mk ⟨[("resources/views/w.blade.php", ""), (file, text)]⟩).toTree
    let artifacts := ((Index.empty false).refresh tree).artifacts
    (artifacts.routes.routes.map fun route => (route.path, route.method)) = [("/w", "GET")] ∧
    (artifacts.views.resolve? "w").map (·.name) = some "w" ∧
    (scanUsages tree artifacts).1.get .view "w" = [] ∧
    ∃ place ∈ (Node.ofSource text).literals, ∃ call, place.GivenTo call 1 false ∧
      isRouterChain call.node = true ∧
      (∃ before link, Route.Meaning.ofLinks (Route.links call.node) = .verb before link [] ∧
        link.name = "view" ∧ link.call = call.node) ∧
      classify? artifacts.translations.contains ⟨place, "w", file, none, none⟩ =
        some (.route .definition) := by
  intro file text tree artifacts
  have third : ((Node.ofSource text).literals[2]?.bind fun place => place.enclosingCall?.bind fun found =>
      found.1.node.callee?.bind fun callee => found.1.node.object?.map fun object =>
        (found.2, isRouterChain found.1.node, callee.name,
          (Route.links object).all (Route.isScopeOperator ·.name),
          classify? artifacts.translations.contains ⟨place, "w", file, none, none⟩)) =
      some (1, true, "view", true, some (.route .definition)) := by decide +kernel
  obtain ⟨place, isThird, found⟩ := Option.bind_eq_some_iff.mp third
  obtain ⟨⟨call, position⟩, isFound, found⟩ := Option.bind_eq_some_iff.mp found
  obtain ⟨callee, known, found⟩ := Option.bind_eq_some_iff.mp found
  obtain ⟨object, isObject, same⟩ := Option.map_eq_some_iff.mp found
  injection same with isPosition same
  injection same with ofRouter same
  injection same with isName same
  injection same with areOperators classified
  have declares := (congrArg _ (Route.links_eq_append known isObject)).trans
    (Route.ofLinks_eq_verb_of_view _ [] areOperators isName)
  obtain ⟨declared, resolved, unused⟩ :
      (artifacts.routes.routes.map fun route => (route.path, route.method)) = [("/w", "GET")] ∧
      (artifacts.views.resolve? "w").map (·.name) = some "w" ∧
      (scanUsages tree artifacts).1.get .view "w" = [] := by decide +kernel
  refine ⟨declared, resolved, unused, place, List.mem_of_getElem? isThird, call, Place.enclosingCall?_eq_some_iff.mp (isPosition ▸ isFound), ofRouter,
    ⟨_, _, declares, isName, rfl⟩, classified⟩

end ArtifactIndex
