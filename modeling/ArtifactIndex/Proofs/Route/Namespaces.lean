/-
**Controllers inside namespaces.**

Nested groups may give namespaces, which are trimmed and joined level by level. A class that a verb is given
as text is put behind them, in whichever way its action is written; a class constant is not. The controller
of a resource never is, although it may be a text too; and where the outermost namespace is empty, the inner
ones get a backslash in front.

* `Scope.lead_foldl`: what nested groups put before a class, without going through the levels;
* `WritesAction`: the ways to write a class and a method as an action;
* `action?_of_writesAction`: the action that is read from each of them;
* `controllers_of_namespaces`: the controllers of verbs and resources inside nested groups.
-/

import ArtifactIndex.Proofs.Code.Literals
import ArtifactIndex.Proofs.Route.Composition
import ArtifactIndex.Proofs.Route.Moved

namespace ArtifactIndex

namespace Route

/-! ### Namespaces of nested groups -/

/-- The namespaces without the backslashes around them; those of which nothing is left are dropped. -/
def namespaceParts (namespaces : List String) : List String :=
  (namespaces.map (trimmedOf '\\')).filter (!·.isEmpty)

/-- **What namespaces are meant to put before a class**, the outermost first: their parts with backslashes
between them, and one more backslash, if there are any. -/
def namespaceLead (namespaces : List String) : String :=
  if namespaceParts namespaces = [] then "" else joinWith "\\" (namespaceParts namespaces) ++ "\\"

/-- The outermost namespace is empty, and an inner one is not. -/
def OpensEmpty : List String → Prop
  | [] => False
  | outermost :: inner => trimmedOf '\\' outermost = "" ∧ namespaceParts inner ≠ []

instance : DecidablePred OpensEmpty
  | [] => inferInstanceAs (Decidable False)
  | _ :: _ => inferInstanceAs (Decidable (_ ∧ _))

/-- What namespaces do put before a class. -/
def scopeLead (namespaces : List String) : String :=
  if OpensEmpty namespaces then "\\" ++ namespaceLead namespaces else namespaceLead namespaces

theorem namespaceParts_cons_of_empty {outer : String} (empty : trimmedOf '\\' outer = "")
    (namespaces : List String) : namespaceParts (outer :: namespaces) = namespaceParts namespaces := by
  simp [namespaceParts, empty]

theorem namespaceParts_cons_of_given {outer : String} (given : trimmedOf '\\' outer ≠ "")
    (namespaces : List String) :
    namespaceParts (outer :: namespaces) = trimmedOf '\\' outer :: namespaceParts namespaces := by
  simp [namespaceParts, given]

/-- Two parts may be joined before the others are. -/
theorem joinWith_append_cons (separator first second : String) (rest : List String) :
    joinWith separator ((first ++ separator ++ second) :: rest) =
      joinWith separator (first :: second :: rest) := by
  cases rest with
  | nil => rw [joinWith_cons_cons, joinWith_singleton, joinWith_singleton]
  | cons third rest => simp only [joinWith_cons_cons, String.append_assoc]

namespace Scope

/-- Below a namespace, the parts of all further ones are joined to it. -/
theorem namespaceName_foldl_below (groups : List GroupAttributes) {scope : Scope} {outer : String}
    (given : scope.namespaceName = some outer) :
    (groups.foldl descend scope).namespaceName =
      some (joinWith "\\" (outer :: namespaceParts (groups.filterMap (·.namespaceName)))) := by
  induction groups generalizing scope outer with
  | nil => simpa [namespaceParts, joinWith_singleton] using given
  | cons group rest ih =>
    rw [List.foldl_cons]
    cases inner : group.namespaceName with
    | none =>
      rw [List.filterMap_cons_none inner]
      apply ih
      rw [descend, inner, given]
    | some inner' =>
      have joined : (scope.descend group).namespaceName = some (joinNamespace (some outer) inner') := by
        rw [descend, inner, given]
      rw [List.filterMap_cons_some inner, ih joined, joinNamespace]
      by_cases empty : trimmedOf '\\' inner' = ""
      · rw [namespaceParts_cons_of_empty empty, if_pos (String.isEmpty_iff.mpr empty)]
      · rw [namespaceParts_cons_of_given empty, if_neg (mt String.isEmpty_iff.mp empty),
          joinWith_append_cons]

/-- **The namespace of nested groups.** The outermost one is there even when it is empty. -/
theorem namespaceName_foldl (groups : List GroupAttributes) {scope : Scope}
    (unnamed : scope.namespaceName = none) :
    (groups.foldl descend scope).namespaceName =
      match groups.filterMap (·.namespaceName) with
      | [] => none
      | outermost :: inner => some (joinWith "\\" (trimmedOf '\\' outermost :: namespaceParts inner)) := by
  induction groups generalizing scope with
  | nil => exact unnamed
  | cons group rest ih =>
    rw [List.foldl_cons]
    cases outermost : group.namespaceName with
    | none =>
      rw [List.filterMap_cons_none outermost]
      apply ih
      rw [descend, outermost, unnamed]
    | some namespaceName =>
      rw [List.filterMap_cons_some outermost]
      apply namespaceName_foldl_below
      rw [descend, outermost, unnamed]
      rfl

/-- What a scope puts before a class that is written as text. -/
def lead (scope : Scope) : String :=
  match scope.namespaceName with
  | some outer => if outer.isEmpty then "" else outer ++ "\\"
  | none => ""

theorem qualify_eq (scope : Scope) (className : String) :
    scope.qualify className =
      if startsWith "\\" className then className else scope.lead ++ className := by
  unfold qualify lead
  cases scope.namespaceName with
  | none => simp
  | some outer =>
    by_cases absolute : startsWith "\\" className = true
    · simp [absolute]
    · by_cases empty : outer.isEmpty = true
      · simp [absolute, empty]
      · simp [absolute, empty, String.append_assoc]

/-- **What nested groups put before a class.** -/
theorem lead_foldl (groups : List GroupAttributes) :
    (groups.foldl descend {}).lead = scopeLead (groups.filterMap (·.namespaceName)) := by
  rw [lead, namespaceName_foldl groups rfl]
  cases groups.filterMap (·.namespaceName) with
  | nil => rfl
  | cons outermost inner =>
    dsimp only
    by_cases empty : trimmedOf '\\' outermost = ""
    · rw [scopeLead, namespaceLead, namespaceParts_cons_of_empty empty, empty]
      cases parts : namespaceParts inner with
      | nil => simp [OpensEmpty, parts, joinWith_singleton]
      | cons first rest =>
        have opens : OpensEmpty (outermost :: inner) := ⟨empty, by simp [parts]⟩
        simp [opens, joinWith_cons_cons, String.append_assoc]
    · have opens : ¬OpensEmpty (outermost :: inner) := fun opens => empty opens.1
      rw [scopeLead, if_neg opens, namespaceLead, namespaceParts_cons_of_given empty,
        if_neg (List.cons_ne_nil _ _), if_neg]
      cases namespaceParts inner with
      | nil => simpa [joinWith_singleton] using empty
      | cons first rest => simp [joinWith_cons_cons, empty]

end Scope

/-! ### Written actions -/

/-- A class as it is written: as a text, or as a constant of the form `Name::class`. -/
inductive WrittenClass where
  | text (name : String)
  | constant (name : String)

namespace WrittenClass

/-- The class's own name. -/
def name : WrittenClass → String
  | text name => name
  | constant name => name

/-- The class is what the node writes. -/
def WrittenAt : WrittenClass → Node → Prop
  | text name, node => node.literal? = some name
  | constant name, node => node.className? = some name

/-- The class behind a lead: a text that does not start with a backslash is put behind it, a constant is
not. -/
def behind (lead : String) : WrittenClass → String
  | text name => if startsWith "\\" name then name else lead ++ name
  | constant name => name

end WrittenClass

/-- **An argument writes a class and a method.** A text holds both with `@` between them, a constant alone
holds a class without a method. An array holds them under the key `uses`, or else as its first two values
without keys. -/
inductive WritesAction : Node → WrittenClass → Option String → Prop
  | text {argument : Node} {name method : String} (isText : argument.literal? = some (name ++ "@" ++ method)) :
      WritesAction argument (.text name) (some method)
  | constant {argument : Node} {name : String} (isClass : argument.className? = some name) :
      WritesAction argument (.constant name) none
  | used {argument inner : Node} {written : WrittenClass} {method : Option String}
      (found : argument.arrayGet? "uses" = some inner) (writes : WritesAction inner written method) :
      WritesAction argument written method
  | pair {argument classNode methodNode : Node} {others : List Node} {written : WrittenClass}
      {method : String} (missing : argument.arrayGet? "uses" = none)
      (listed : (argument.arrayEntries.filter (·.key.isNone)).map (·.value) =
        classNode :: methodNode :: others)
      (isClass : written.WrittenAt classNode) (isMethod : methodNode.literal? = some method) :
      WritesAction argument written (some method)

/-- A controller: a class alone, or a class and a method. -/
def controllerText (className : String) : Option String → String
  | none => className
  | some method => className ++ "@" ++ method

section Nodes

variable {node : Node}

theorem className?_eq_none_of_literal? {value : String} (isText : node.literal? = some value) :
    node.className? = none := by
  have isString : node.kind = .string := (Node.bare_of_literal? isText).1
  simp [Node.className?, isString]

theorem isClosure_eq_false_of_literal? {value : String} (isText : node.literal? = some value) :
    node.isClosure = false := by
  have isString : node.kind = .string := (Node.bare_of_literal? isText).1
  simp [Node.isClosure, isString]

theorem isClosure_eq_false_of_className? {name : String} (isClass : node.className? = some name) :
    node.isClosure = false := by
  unfold Node.className? at isClass
  split at isClass
  · next isConstant => simp [Node.isClosure, beq_iff_eq.mp isConstant]
  · cases isClass

/-- An array is no function, no class and no text. -/
theorem not_other_of_isArray (isArray : node.isArray = true) :
    node.isClosure = false ∧ node.className? = none ∧ node.literal? = none := by
  have isArray : node.kind = .array := beq_iff_eq.mp isArray
  simp [Node.isClosure, Node.className?, Node.literal?, isArray]

theorem isArray_of_arrayEntries (some_entry : node.arrayEntries ≠ []) : node.isArray = true := by
  by_contra isOther
  exact some_entry (by rw [Node.arrayEntries, if_neg isOther])

theorem isArray_of_arrayGet? {key : String} {value : Node} (found : node.arrayGet? key = some value) :
    node.isArray = true := by
  apply isArray_of_arrayEntries
  intro none
  rw [Node.arrayGet?, Node.keyedEntries, none] at found
  cases found

/-- The name behind a class that is written at a node, as `pairAction?` asks for it. -/
theorem WrittenClass.WrittenAt.className {written : WrittenClass} (isClass : written.WrittenAt node)
    (scope : Scope) :
    (node.className?.orElse fun _ => node.literal?.map scope.qualify) = some (written.behind scope.lead) := by
  cases written with
  | text name =>
    have isText : node.literal? = some name := isClass
    rw [className?_eq_none_of_literal? isText, isText, Option.map_some, Scope.qualify_eq]
    rfl
  | constant name =>
    have isConstant : node.className? = some name := isClass
    rw [isConstant]
    rfl

/-- The same as a resource asks for it, without regard to the scope. -/
theorem WrittenClass.WrittenAt.classOrLiteral? {written : WrittenClass} (isClass : written.WrittenAt node) :
    node.classOrLiteral? = some written.name := by
  cases written with
  | text name =>
    have isText : node.literal? = some name := isClass
    rw [Node.classOrLiteral?, className?_eq_none_of_literal? isText, isText]
    rfl
  | constant name =>
    have isConstant : node.className? = some name := isClass
    rw [Node.classOrLiteral?, isConstant]
    rfl

end Nodes

/-- A method behind a class does not change how the text starts. -/
theorem startsWith_backslash_append (name method : String) :
    startsWith "\\" (name ++ "@" ++ method) = startsWith "\\" name := by
  unfold startsWith
  rw [String.toList_append, String.toList_append]
  cases name.toList with
  | nil => rfl
  | cons c rest => rfl

/-- **The action that is read from each way to write it.** A group's controller has no part in it, since the
class is written. By induction on the way, as an array may hold another one. -/
theorem action?_of_writesAction (scope : Scope) {argument : Node} {written : WrittenClass}
    {method : Option String} (writes : WritesAction argument written method) :
    action? scope argument = some (controllerText (written.behind scope.lead) method) := by
  induction writes with
  | @text argument name method isText =>
    have qualified : scope.qualify (name ++ "@" ++ method) =
        (if startsWith "\\" name then name else scope.lead ++ name) ++ "@" ++ method := by
      rw [Scope.qualify_eq, startsWith_backslash_append]
      split
      · rfl
      · simp only [String.append_assoc]
    have hasSign : hasChar '@' (name ++ "@" ++ method) = true := by simp [hasChar]
    rw [action?, isClosure_eq_false_of_literal? isText, className?_eq_none_of_literal? isText, isText]
    cases scope.controller with
    | none => simp [qualified, controllerText, WrittenClass.behind]
    | some controller => simp [hasSign, qualified, controllerText, WrittenClass.behind]
  | @constant argument name isClass =>
    rw [action?, isClosure_eq_false_of_className? isClass, isClass]
    rfl
  | @used argument inner written method found _ ih =>
    obtain ⟨noClosure, noClass, noText⟩ := not_other_of_isArray (isArray_of_arrayGet? found)
    rw [action?_of_uses noClosure noClass noText found, ih]
  | @pair argument classNode methodNode others written method missing listed isClass isMethod =>
    have isArray : argument.isArray = true := by
      apply isArray_of_arrayEntries
      intro none
      rw [none] at listed
      cases listed
    obtain ⟨noClosure, noClass, noText⟩ := not_other_of_isArray isArray
    rw [action?_of_listed noClosure noClass noText missing, listedAction?, listed]
    dsimp only
    rw [pairAction?, isMethod]
    dsimp only
    rw [isClass.className scope]
    rfl

/-! ### Declared controllers -/

/-- The argument of a verb that gives the action. -/
def Link.actionArgument? (link : Link) : Option Node :=
  link.arguments[(if lowered link.name == "match" then 1 else 0) + 1]?

section Declarations

variable (origin : Origin) (scope : Scope) {link : Link} (behind : List Link)

theorem declaredByVerb_controller :
    (declaredByVerb origin scope link behind).controller =
      if hasNoAction link.name then none else link.actionArgument?.bind (action? scope) := by
  rw [declaredByVerb, Scope.declare]
  rfl

/-- The routes of a resource have its class as it is written. -/
theorem declaredByResource_controller (kind : ResourceKind) {controller : Node} {written : WrittenClass}
    (given : link.arguments[1]? = some controller) (isClass : written.WrittenAt controller) {route : Route}
    (isDeclared : route ∈ declaredByResource origin scope kind link behind) :
    ∃ action ∈ kind.actions, route.declaration.expansion = some action.name ∧
      route.controller = some (controllerText written.name (some action.name)) := by
  unfold declaredByResource at isDeclared
  split at isDeclared
  · cases isDeclared
  · obtain ⟨action, isWanted, rfl⟩ := List.mem_map.mp isDeclared
    refine ⟨action, (List.mem_filter.mp isWanted).1, rfl, ?_⟩
    rw [Scope.declare, given, Option.bind_some, isClass.classOrLiteral?]
    rfl

end Declarations

/-- The controller of nested groups is that of the innermost one that gives any. -/
theorem Scope.controller_foldl (groups : List GroupAttributes) (scope : Scope) :
    (groups.foldl descend scope).controller =
      (groups.reverse.findSome? (·.controller)).orElse fun _ => scope.controller := by
  induction groups generalizing scope with
  | nil => rfl
  | cons group rest ih =>
    rw [List.foldl_cons, ih, List.reverse_cons, List.findSome?_append]
    cases rest.reverse.findSome? (·.controller) with
    | some inner => rfl
    | none => cases given : group.controller <;> simp [descend, given]

/-- A method alone is one of the controller that the groups give. -/
theorem action?_of_method {scope : Scope} {argument : Node} {method controller : String}
    (isText : argument.literal? = some method) (noSign : '@' ∉ method.toList)
    (given : scope.controller = some controller) :
    action? scope argument = some (controllerText controller (some method)) := by
  have hasNoSign : hasChar '@' method = false := by simpa [hasChar] using noSign
  rw [action?, isClosure_eq_false_of_literal? isText, className?_eq_none_of_literal? isText, isText, given]
  simp [hasNoSign, controllerText]

/-- **Controllers inside nested groups.** A verb puts a class that is written as text behind the namespaces
of the groups around it, and leaves a constant as it is. Before the namespaces stands a backslash, when the
outermost of them is empty and another one is not. A resource leaves any class as it is, and so does a verb
with the controller that a group gives. -/
theorem controllers_of_namespaces (groups : List GroupAttributes) (origin : Origin) (link : Link)
    (calls : List Link) :
    let scope := groups.foldl Scope.descend {}
    let namespaces := groups.filterMap (·.namespaceName)
    (∀ (argument : Node) (written : WrittenClass) (method : Option String), hasNoAction link.name = false →
      link.actionArgument? = some argument → WritesAction argument written method →
        (declaredByVerb origin scope link calls).controller =
          some (controllerText (written.behind (scopeLead namespaces)) method)) ∧
    (∀ (kind : ResourceKind) (argument : Node) (written : WrittenClass), link.arguments[1]? = some argument →
      written.WrittenAt argument → ∀ route ∈ declaredByResource origin scope kind link calls,
        ∃ action ∈ kind.actions, route.declaration.expansion = some action.name ∧
          route.controller = some (controllerText written.name (some action.name))) ∧
    ∀ (argument : Node) (method controller : String), hasNoAction link.name = false →
      link.actionArgument? = some argument → argument.literal? = some method → '@' ∉ method.toList →
      groups.reverse.findSome? (·.controller) = some controller →
        (declaredByVerb origin scope link calls).controller = some (controllerText controller (some method)) := by
  intro scope namespaces
  refine ⟨?_, ?_, ?_⟩
  · intro argument written method hasAction given writes
    rw [declaredByVerb_controller, hasAction, given, if_neg Bool.false_ne_true, Option.bind_some,
      action?_of_writesAction scope writes, Scope.lead_foldl]
  · intro kind argument written given isClass route isDeclared
    exact declaredByResource_controller origin scope calls kind given isClass isDeclared
  · intro argument method controller hasAction given isText noSign isController
    have inScope : scope.controller = some controller := by
      rw [Scope.controller_foldl, isController]
      rfl
    rw [declaredByVerb_controller, hasAction, given, if_neg Bool.false_ne_true, Option.bind_some,
      action?_of_method isText noSign inScope]

/-- A verb and a resource in two groups with namespaces, with the same class as text. -/
theorem controllers_of_namespaces_nested :
    let groups : List GroupAttributes := [{ namespaceName := some "\\App\\" }, { namespaceName := some "Admin" }]
    let scope := groups.foldl Scope.descend {}
    let origin := Origin.ofText "routes/web.php" ""
    let written := fun text => Node.mk .string ⟨0, 0⟩ text []
    let verb : Link := ⟨"get", written "", [written "'/u'", written "'C@m'"]⟩
    let resource : Link := ⟨"apiSingleton", written "", [written "'u'", written "'C'"]⟩
    (declaredByVerb origin scope verb []).controller = some "App\\Admin\\C@m" ∧
      (∀ route ∈ declaredByResource origin scope .apiSingleton resource [],
        ∃ action ∈ ResourceKind.apiSingleton.actions,
          route.controller = some (controllerText "C" (some action.name))) := by
  intro groups scope origin written verb resource
  have isText : (written "'C@m'").literal? = some ("C" ++ "@" ++ "m") := by decide +kernel
  have isClass : (WrittenClass.text "C").WrittenAt (written "'C'") := by
    show (written "'C'").literal? = some "C"
    decide +kernel
  have noShift : (lowered "get" == "match") = false := by decide +kernel
  have isAction : verb.actionArgument? = some (written "'C@m'") := by simp [Link.actionArgument?, verb, noShift]
  constructor
  · rw [(controllers_of_namespaces groups origin verb []).1 _ _ _ (by decide +kernel) isAction (.text isText)]
    decide +kernel
  · intro route isDeclared
    obtain ⟨action, isAction, -, isController⟩ :=
      (controllers_of_namespaces groups origin resource []).2.1 .apiSingleton _ _ rfl isClass route isDeclared
    exact ⟨action, isAction, isController⟩

/-- **The same class in the same namespace** is read in three ways: a verb puts it into the namespace, behind
an empty one it also puts a backslash in front, and a resource leaves the namespace out. -/
theorem namespaces_of_controllers_differ :
    let within := fun names => (names.map fun name =>
      ({ namespaceName := some name } : GroupAttributes)).foldl Scope.descend {}
    let origin := Origin.ofText "routes/web.php" ""
    let written := fun text => Node.mk .string ⟨0, 0⟩ text []
    let verb : Link := ⟨"get", written "", [written "'/u'", written "'C@show'"]⟩
    let resource : Link := ⟨"apiSingleton", written "", [written "'u'", written "'C'"]⟩
    (declaredByVerb origin (within ["App"]) verb []).controller = some "App\\C@show" ∧
      (declaredByVerb origin (within ["", "App"]) verb []).controller = some "\\App\\C@show" ∧
      (declaredByResource origin (within ["App"]) .apiSingleton resource []).map (·.controller) =
        [some "C@show", some "C@update"] := by
  decide +kernel

end Route

end ArtifactIndex
