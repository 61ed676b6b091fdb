/-
**Chains of calls in a tree.**

The calls of a chain lie inside one another: each call is the object of the next, and its arguments
stand behind that object.

* `isRouterChain_of_mem_links`: every call of a chain on the router is itself the end of such a chain;
* `lt_of_isRouterChain`: a chain on the router takes up room;
* `row_arguments`, `row_bodiesOf`: the arguments of all calls of a chain, and the functions among them
  in which routes are looked for, stand one behind the other.
-/

import ArtifactIndex.Proofs.Code.Literals
import ArtifactIndex.Proofs.Code.Subnodes
import ArtifactIndex.Route.Declaration

namespace ArtifactIndex

/-- An empty range has no text. -/
theorem textOf_of_start_eq_stop {span : Span} (source : String) (isEmpty : span.start = span.stop) :
    textOf source span = "" := by
  unfold textOf slice?
  rw [isEmpty]
  split
  · rw [ByteArray.extract_same]
    rfl
  · rfl

namespace Route

open Node (Row)

variable {holds : Node → Prop} {lo hi : Nat} {call : Node} {link : Link}

/-! ### Calls -/

/-- **What a known callee is read from:** the kind of the call and its first parts. -/
theorem callee?_eq_some {callee : Callee} (known : call.callee? = some callee) :
    (∃ function rest, call.kind = .functionCall ∧ call.parts = function :: rest ∧
      callee = .function (shortName function.text)) ∨
    (∃ scope name rest, call.kind = .staticCall ∧ call.parts = scope :: name :: rest ∧
      callee = .static (trimmedStartOf '\\' (trimmed scope.text)) name.text) ∨
    ∃ object name rest, call.kind = .memberCall ∧ call.parts = object :: name :: rest ∧
      callee = .member object name.text := by
  unfold Node.callee? at known
  split at known
  · next function rest isKind shape =>
    rw [Option.ite_none_right_eq_some] at known
    exact .inl ⟨function, rest, isKind, shape, (Option.some.inj known.2).symm⟩
  · next scope name rest isKind shape =>
    exact .inr (.inl ⟨scope, name, rest, isKind, shape, (Option.some.inj known).symm⟩)
  · next object name rest isKind shape =>
    exact .inr (.inr ⟨object, name, rest, isKind, shape, (Option.some.inj known).symm⟩)
  · cases known

theorem isCall_of_callee? {callee : Callee} (known : call.callee? = some callee) :
    call.isCall = true := by
  unfold Node.isCall
  obtain ⟨_, _, isKind, -⟩ | ⟨_, _, _, isKind, -⟩ | ⟨_, _, _, isKind, -⟩ := callee?_eq_some known
  · rw [isKind]; rfl
  · rw [isKind]; rfl
  · rw [isKind]; rfl

/-- The chain of a call on an object that is a call goes on with that object. -/
theorem chainRoot_eq {object : Node} (found : call.object? = some object)
    (isCall : object.isCall = true) : chainRoot call = chainRoot object := by
  rw [chainRoot]
  split
  · next missing => cases found.symm.trans missing
  · next other isObject =>
    cases found.symm.trans isObject
    rw [if_pos isCall]

/-- A call on the router names the facade or the variable, so that its first part has a text. -/
theorem exists_part_of_isRouterCall (isRouter : isRouterCall call = true) :
    ∃ part ∈ call.parts, part.text ≠ "" := by
  unfold isRouterCall at isRouter
  cases known : call.callee? with
  | none =>
    rw [known] at isRouter
    cases isRouter
  | some callee =>
    rw [known] at isRouter
    obtain ⟨_, _, -, -, rfl⟩ | ⟨scope, _, _, -, shape, rfl⟩ | ⟨object, _, _, -, shape, rfl⟩ :=
      callee?_eq_some known
    · cases isRouter
    · refine ⟨scope, by rw [shape]; exact List.mem_cons_self, fun isEmpty => ?_⟩
      replace isRouter : isFacade (trimmedStartOf '\\' (trimmed scope.text)) = true := isRouter
      rw [isEmpty] at isRouter
      exact absurd isRouter (by decide)
    · refine ⟨object, by rw [shape]; exact List.mem_cons_self, fun isEmpty => ?_⟩
      have isNamed : (trimmed object.text == routerVariable) = true :=
        (Bool.and_eq_true_iff.mp isRouter).2
      rw [isEmpty] at isNamed
      exact absurd isNamed (by decide)

theorem object?_of_callee?_eq_member {object : Node} {name : String}
    (known : call.callee? = some (.member object name)) : call.object? = some object := by
  obtain ⟨_, _, -, -, same⟩ | ⟨_, _, _, -, -, same⟩ | ⟨first, _, _, isKind, shape, same⟩ :=
    callee?_eq_some known
  · cases same
  · cases same
  · cases same
    unfold Node.object?
    rw [isKind, shape]

/-- The object of a call on the router, if it has one, is a variable. -/
theorem isCall_object_of_isRouterCall {object : Node} (isRouter : isRouterCall call = true)
    (found : call.object? = some object) : object.isCall = false := by
  unfold isRouterCall at isRouter
  split at isRouter
  · next known =>
    obtain ⟨_, _, -, -, same⟩ | ⟨_, _, _, isKind, -, -⟩ | ⟨_, _, _, -, -, same⟩ :=
      callee?_eq_some known
    · cases same
    · unfold Node.object? at found
      rw [isKind] at found
      cases found
    · cases same
  · next known =>
    cases found.symm.trans (object?_of_callee?_eq_member known)
    have isVariable := eq_of_beq (Bool.and_eq_true_iff.mp isRouter).1
    unfold Node.isCall
    rw [isVariable]
    rfl
  · cases isRouter

/-- A call on the router itself is the root of its chain. -/
theorem chainRoot_of_isRouterCall (isRouter : isRouterCall call = true) : chainRoot call = call := by
  rw [chainRoot]
  split
  · rfl
  · next object found =>
    rw [isCall_object_of_isRouterCall isRouter found]
    rfl

theorem exists_callee_of_isRouterCall (isRouter : isRouterCall call = true) :
    ∃ callee, call.callee? = some callee ∧ ∀ name, callee ≠ .function name := by
  unfold isRouterCall at isRouter
  split at isRouter
  · next known => exact ⟨_, known, nofun⟩
  · next known => exact ⟨_, known, nofun⟩
  · cases isRouter

/-- **A call with arguments in a chain on the router** is a call through a class or on an object. When
the chain goes on with the call's object, the arguments are a part behind that object. -/
theorem exists_callee_of_isRouterChain (isRouter : isRouterChain call = true)
    (hasArguments : ∃ list ∈ call.children, list.kind = .arguments) :
    ∃ callee, call.callee? = some callee ∧ ∀ name, callee ≠ .function name := by
  unfold isRouterChain at isRouter
  rw [chainRoot] at isRouter
  split at isRouter
  · exact exists_callee_of_isRouterCall isRouter
  · next object found =>
    split at isRouter
    · next isCall =>
      obtain ⟨list, listed, isList⟩ := hasArguments
      have isPart : list ∈ call.parts := by
        refine List.mem_filter.mpr ⟨listed, ?_⟩
        rw [isList]
        rfl
      unfold Node.object? at found
      split at found
      · next first rest isKind shape =>
        cases found
        rw [shape] at isPart
        rcases List.mem_cons.mp isPart with rfl | isBehind
        · unfold Node.isCall at isCall
          rw [isList] at isCall
          cases isCall
        · obtain ⟨name, rest, rfl⟩ := List.exists_cons_of_ne_nil (List.ne_nil_of_mem isBehind)
          refine ⟨.member object name.text, ?_, fun _ same => ?_⟩
          · unfold Node.callee?
            rw [isKind, shape]
          · cases same
      · cases found
    · exact exists_callee_of_isRouterCall isRouter

/-! ### Links -/

/-- A chain is that of the first call's object and the call itself. -/
theorem links_eq_append {callee : Callee} {object : Node} (known : call.callee? = some callee)
    (found : call.object? = some object) :
    links call = links object ++ [⟨callee.name, call, call.callArguments⟩] := by
  unfold links
  rw [linksInward]
  split
  · next missing => cases known.symm.trans missing
  · next other isKnown =>
    cases known.symm.trans isKnown
    dsimp only
    split
    · next missing => cases found.symm.trans missing
    · next isObject =>
      cases found.symm.trans isObject
      rw [List.reverse_cons]

theorem links_of_callee?_eq_none (unknown : call.callee? = none) : links call = [] := by
  unfold links
  rw [linksInward]
  split
  · rfl
  · next isKnown => cases unknown.symm.trans isKnown

theorem links_of_object?_eq_none {callee : Callee} (known : call.callee? = some callee)
    (alone : call.object? = none) : links call = [⟨callee.name, call, call.callArguments⟩] := by
  unfold links
  rw [linksInward]
  split
  · next missing => cases known.symm.trans missing
  · next other isKnown =>
    cases known.symm.trans isKnown
    dsimp only
    split
    · rfl
    · next isObject => cases alone.symm.trans isObject

/-- **Induction along a chain**, from a call to its object. -/
theorem chain_induction {motive : Node → Prop}
    (unknown : ∀ call, call.callee? = none → motive call)
    (first : ∀ call callee, call.callee? = some callee → call.object? = none → motive call)
    (onward : ∀ call callee object, call.callee? = some callee → call.object? = some object →
      motive object → motive call) (call : Node) : motive call := by
  fun_induction linksInward call with
  | case1 call missing => exact unknown call missing
  | case2 call callee known _ missing => exact first call callee known missing
  | case3 call callee known _ object found ih => exact onward call callee object known found ih

/-- The calls of a chain lie inside its last call. -/
theorem row_of_mem_links (row : Row holds lo hi [call]) (listed : link ∈ links call) :
    Row holds lo hi [link.call] := by
  induction call using chain_induction with
  | unknown call missing =>
    rw [links_of_callee?_eq_none missing] at listed
    cases listed
  | first call callee known alone =>
    rw [links_of_object?_eq_none known alone, List.mem_singleton] at listed
    rw [listed]
    exact row
  | onward call callee object known found ih =>
    rw [links_eq_append known found, List.mem_append, List.mem_singleton] at listed
    rcases listed with inner | rfl
    · exact ih (row.object found) inner
    · exact row

/-- **Every call of a chain on the router** ends a chain on the router. -/
theorem isRouterChain_of_mem_links (isRouter : isRouterChain call = true) (listed : link ∈ links call) :
    isRouterChain link.call = true := by
  induction call using chain_induction with
  | unknown call missing =>
    rw [links_of_callee?_eq_none missing] at listed
    cases listed
  | first call callee known alone =>
    rw [links_of_object?_eq_none known alone, List.mem_singleton] at listed
    rw [listed]
    exact isRouter
  | onward call callee object known found ih =>
    rw [links_eq_append known found, List.mem_append, List.mem_singleton] at listed
    rcases listed with inner | rfl
    · cases isKnown : object.callee? with
      | none =>
        rw [links_of_callee?_eq_none isKnown] at inner
        cases inner
      | some _ =>
        rw [isRouterChain, chainRoot_eq found (isCall_of_callee? isKnown)] at isRouter
        exact ih isRouter inner
    · exact isRouter

/-! ### Room -/

/-- A node with a text takes up room. -/
theorem lt_of_text_ne {source : String} {node : Node}
    (row : Row (Node.ReadFrom source) lo hi [node]) (nonempty : node.text ≠ "") :
    node.span.start < node.span.stop := by
  obtain ⟨-, read, inner, -⟩ := Row.cons_iff.mp row
  refine Nat.lt_of_le_of_ne inner.le fun isEmpty => nonempty ?_
  rw [read.text, textOf_of_start_eq_stop source isEmpty]

/-- **A chain on the router takes up room**, since its first call names the router. -/
theorem lt_of_isRouterChain {source : String} (row : Row (Node.ReadFrom source) lo hi [call])
    (isRouter : isRouterChain call = true) : call.span.start < call.span.stop := by
  unfold isRouterChain at isRouter
  fun_induction chainRoot call generalizing lo hi with
  | case1 | case3 =>
    obtain ⟨part, isPart, hasText⟩ := exists_part_of_isRouterCall isRouter
    have inside := row.own.parts.of_mem isPart
    have := lt_of_text_ne inside hasText
    have := inside.bounds
    omega
  | case2 call object found isCall ih =>
    have inside := row.own.object found
    have := ih inside isRouter
    have := inside.bounds
    omega

/-! ### Arguments -/

/-- **The arguments along a chain.** The arguments of each call stand behind those of its object. -/
theorem row_arguments (row : Row holds lo hi [call]) :
    Row holds lo hi ((links call).flatMap (·.arguments)) := by
  induction call using chain_induction generalizing hi with
  | unknown call missing =>
    rw [links_of_callee?_eq_none missing]
    exact .nil row.le
  | first call callee known alone =>
    rw [links_of_object?_eq_none known alone, List.flatMap_singleton]
    exact row.callArguments
  | onward call callee object known found ih =>
    rw [links_eq_append known found, List.flatMap_append, List.flatMap_singleton]
    by_cases isOther : object.kind = .arguments
    · have unknown : object.callee? = none := by
        unfold Node.callee?
        rw [isOther]
      rw [links_of_callee?_eq_none unknown]
      exact row.callArguments
    · obtain ⟨before, behind⟩ := row.behindObject found isOther
      exact (ih before).append behind

/-- The functions in which further routes are looked for are among the arguments, in their order. -/
theorem bodiesOf_sublist (chain : List Link) :
    (bodiesOf chain).Sublist (chain.flatMap (·.arguments)) := by
  unfold bodiesOf
  split
  · next opens =>
    have listed := mem_of_ofLinks_eq_group opens
    exact List.filter_sublist.trans
      (List.sublist_flatten_of_mem (List.mem_map_of_mem listed))
  · have closures : chain.flatMap Link.closures = (chain.flatMap (·.arguments)).filter Node.isClosure :=
      List.filter_flatMap.symm
    rw [closures]
    exact List.filter_sublist
  · exact List.nil_sublist _
  · exact List.nil_sublist _

theorem row_bodiesOf (row : Row holds lo hi [call]) : Row holds lo hi (bodiesOf (links call)) :=
  (row_arguments row).sublist (bodiesOf_sublist _)

end Route

end ArtifactIndex
