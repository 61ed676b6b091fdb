/-
**The routes of a resource.**

One call stands for a row of routes, one for each action of its kind that the calls behind it ask for. The
path of an action is put together from the segments of the resource's name, joined to the prefix of the
scope, and its parameters are then looked for in the path again.

* `OwnAttributes.ofLinks_only`, `OwnAttributes.ofLinks_except`: what the calls behind a resource ask for;
* `toList_actionPath`: the path of an action, piece by piece;
* `HasGroups`: the groups of braces in a row of pieces;
* `ExpandsTo`, `declaredByResource_expandsTo`: the route of each action.
-/

import ArtifactIndex.Proofs.Route.Composition
import ArtifactIndex.Proofs.Route.Placeholders
import ArtifactIndex.Proofs.Text.Cuts
import ArtifactIndex.Route.Declaration
import ArtifactIndex.Text.Word

namespace ArtifactIndex

/-! ### Characters of words -/

/-- The blank characters and the marks of parameters and paths, as ranges of code points. -/
def outsideRanges : List (Nat × Nat) :=
  [(0x09, 0x0D), (0x20, 0x20), (0x2F, 0x2F), (0x3A, 0x3A), (0x3F, 0x3F), (0x7B, 0x7B), (0x7D, 0x7D),
    (0x85, 0x85), (0xA0, 0xA0), (0x1680, 0x1680), (0x2000, 0x200A), (0x2028, 0x2029), (0x202F, 0x202F),
    (0x205F, 0x205F), (0x3000, 0x3000)]

theorem wordRanges_apart :
    ∀ word ∈ wordRanges, ∀ outside ∈ outsideRanges, word.2 < outside.1 ∨ outside.2 < word.1 := by
  -- Numbers are compared as such here: an instance for each pair of ranges would take longer.
  have apart : (outsideRanges.all fun outside => wordRanges.all fun word =>
      Nat.blt word.2 outside.1 || Nat.blt outside.2 word.1) = true := by decide +kernel
  simp only [List.all_eq_true, Bool.or_eq_true, Nat.blt_eq] at apart
  exact fun word isWord outside isOutside => apart outside isOutside word isWord

/-- Small letters belong to words. -/
theorem isWordChar_of_small {c : Char} (small : 0x61 ≤ c.toNat ∧ c.toNat ≤ 0x7A) : isWordChar c = true := by
  have listed : (0x61, 0x7A) ∈ wordRanges := .tail _ (.tail _ (.tail _ (.head _)))
  rw [isWordChar, List.any_eq_true]
  refine ⟨_, listed, ?_⟩
  rw [Bool.and_eq_true, decide_eq_true_eq, decide_eq_true_eq]
  exact small

theorem isWordChar_eq_false {c : Char} {outside : Nat × Nat} (isOutside : outside ∈ outsideRanges)
    (covers : outside.1 ≤ c.toNat ∧ c.toNat ≤ outside.2) : isWordChar c = false := by
  rw [isWordChar, List.any_eq_false]
  intro word listed isWord
  rw [Bool.and_eq_true, decide_eq_true_eq, decide_eq_true_eq] at isWord
  have apart := wordRanges_apart word listed outside isOutside
  omega

theorem isWordChar_of_isBlank {c : Char} (blank : isBlank c = true) : isWordChar c = false := by
  have covered : ∃ outside ∈ outsideRanges, outside.1 ≤ c.toNat ∧ c.toNat ≤ outside.2 := by
    simp only [isBlank, Bool.or_eq_true, Bool.and_eq_true, decide_eq_true_eq, beq_iff_eq] at blank
    simp only [outsideRanges, List.exists_mem_cons_iff, List.not_mem_nil, false_and, exists_false]
    omega
  obtain ⟨outside, isOutside, covers⟩ := covered
  exact isWordChar_eq_false isOutside covers

namespace Route

/-! ### Names of resources -/

/-- The segments of a resource's name: letters, digits, underscores and hyphens, with a singular. -/
structure IsResourceName (segments : List String) : Prop where
  given : segments ≠ []
  plain : ∀ segment ∈ segments, ∀ c ∈ segment.toList, c = '-' ∨ isWordChar c = true
  hasSingular : ∀ segment ∈ segments, singular segment ≠ ""

/-- A character that may stand in a parameter's name. -/
def IsNameChar (c : Char) : Prop := isBlank c = false ∧ c ∉ ['{', '}', ':', '?', '/']

theorem isNameChar_of_isWordChar {c : Char} (isWord : isWordChar c = true) : IsNameChar c := by
  constructor
  · rw [Bool.eq_false_iff]
    intro blank
    rw [isWordChar_of_isBlank blank] at isWord
    cases isWord
  · have covered : ∀ mark ∈ ['{', '}', ':', '?', '/'],
        ∃ outside ∈ outsideRanges, outside.1 ≤ mark.toNat ∧ mark.toNat ≤ outside.2 :=
      List.all_iff_forall_prop.mp (by decide +kernel)
    intro isMark
    obtain ⟨outside, isOutside, covers⟩ := covered c isMark
    rw [isWordChar_eq_false isOutside covers] at isWord
    cases isWord

/-- The singular has no characters but those of the plural, an underscore and a `y`. -/
theorem mem_singular {plural : String} {c : Char} (inside : c ∈ (singular plural).toList) :
    c ∈ plural.toList ∨ c = '_' ∨ c = 'y' := by
  have ofStem : ∀ {ending stem : String}, beforeEnd? ending (exchange '-' '_' plural) = some stem →
      c ∈ stem.toList → c ∈ (exchange '-' '_' plural).toList := by
    intro ending stem isStem isInStem
    rw [beforeEnd?_eq_some_iff.mp isStem, String.toList_append]
    exact List.mem_append_left _ isInStem
  have ofWord : c ∈ (exchange '-' '_' plural).toList ∨ c = 'y' := by
    unfold singular at inside
    dsimp only at inside
    split at inside
    · next stem isStem =>
      rw [String.toList_append, List.mem_append] at inside
      exact inside.imp (ofStem isStem) List.mem_singleton.mp
    · split at inside
      · cases isStem : beforeEnd? "es" (exchange '-' '_' plural) with
        | none => exact .inl (by simpa [isStem] using inside)
        | some stem => exact .inl (ofStem isStem (by simpa [isStem] using inside))
      · split at inside
        · next stem isStem =>
          split at inside
          · exact .inl inside
          · exact .inl (ofStem isStem inside)
        · exact .inl inside
  rcases ofWord with isInWord | isY
  · exact (mem_exchange isInWord).imp_right .inl
  · exact .inr (.inr isY)

namespace IsResourceName

variable {segments : List String} {segment : String}

theorem nameChars (named : IsResourceName segments) (listed : segment ∈ segments) {c : Char}
    (inside : c ∈ segment.toList) : IsNameChar c := by
  rcases named.plain segment listed c inside with rfl | isWord
  · unfold IsNameChar
    decide
  · exact isNameChar_of_isWordChar isWord

/-- The parameter for a segment has a proper name. -/
theorem parameterName (named : IsResourceName segments) (listed : segment ∈ segments) :
    IsParameterName (singular segment).toList where
  given := by
    rw [Ne, String.toList_eq_nil_iff]
    exact named.hasSingular segment listed
  plain := by
    intro c inside
    show IsNameChar c
    rcases mem_singular inside with isInSegment | rfl | rfl
    · exact named.nameChars listed isInSegment
    · unfold IsNameChar
      decide
    · unfold IsNameChar
      decide

theorem isBraceFree (named : IsResourceName segments) (listed : segment ∈ segments) :
    IsBraceFree segment.toList := by
  intro c inside
  have apart := (named.nameChars listed inside).2
  constructor <;> rintro rfl <;> simp at apart

/-- A segment is a piece of a path. -/
theorem clean (named : IsResourceName segments) (listed : segment ∈ segments) :
    segment.toList ≠ [] ∧ '/' ∉ segment.toList := by
  constructor
  · intro empty
    rw [String.toList_eq_nil_iff] at empty
    apply named.hasSingular segment listed
    rw [empty]
    decide
  · exact fun inside => (named.nameChars listed inside).2 (by simp)

end IsResourceName

/-! ### What the calls behind ask for -/

/-- The list that the last call of `only` gives, if there is one. -/
def onlyOf (calls : List Link) : Option (List String) :=
  (calls.filter (·.name == "only")).getLast?.bind fun call => call.arguments.head?.map Node.literalList

/-- The lists of all calls of `except`, one after another. -/
def exceptOf (calls : List Link) : List String :=
  (calls.filter (·.name == "except")).flatMap fun call => (call.arguments.head?.map Node.literalList).getD []

/-- The calls behind a resource ask for an action. -/
def asksFor (calls : List Link) (action : String) : Bool :=
  (onlyOf calls).all (·.contains action) && !(exceptOf calls).contains action

namespace OwnAttributes

variable (own : OwnAttributes) (link : Link)

/-- **What one call changes** of the wanted actions and of the given names. -/
theorem addLink_expansion :
    ((own.addLink link).only =
        if link.name = "only" then link.arguments.head?.map Node.literalList else own.only) ∧
      ((own.addLink link).except =
        own.except ++ if link.name = "except" then (link.arguments.head?.map Node.literalList).getD [] else []) ∧
      (link.name ≠ "names" →
        (own.addLink link).names = own.names ∧ (own.addLink link).namesPrefix = own.namesPrefix) := by
  unfold addLink
  split
  all_goals dsimp only
  all_goals repeat' split
  all_goals simp_all

theorem ofLinks_concat (links : List Link) (link : Link) :
    ofLinks (links ++ [link]) = (ofLinks links).addLink link := List.foldl_concat ..

/-- The last `only` counts. -/
theorem ofLinks_only (links : List Link) : (ofLinks links).only = onlyOf links := by
  induction links using List.reverseRecOn with
  | nil => rfl
  | append_singleton links link ih =>
    rw [ofLinks_concat, (addLink_expansion ..).1, onlyOf, List.filter_append]
    by_cases isOnly : link.name = "only"
    · rw [if_pos isOnly, List.filter_cons_of_pos (by simpa using isOnly), List.filter_nil, List.getLast?_concat,
        Option.bind_some]
    · rw [if_neg isOnly, List.filter_cons_of_neg (by simpa using isOnly), List.filter_nil, List.append_nil, ih,
        onlyOf]

/-- Every `except` counts. -/
theorem ofLinks_except (links : List Link) : (ofLinks links).except = exceptOf links := by
  induction links using List.reverseRecOn with
  | nil => rfl
  | append_singleton links link ih =>
    rw [ofLinks_concat, (addLink_expansion ..).2.1, exceptOf, List.filter_append, List.flatMap_append, ih,
      exceptOf]
    congr 1
    by_cases isExcept : link.name = "except"
    · rw [if_pos isExcept, List.filter_cons_of_pos (by simpa using isExcept)]
      simp
    · rw [if_neg isExcept, List.filter_cons_of_neg (by simpa using isExcept)]
      rfl

/-- Without a call of `names` no names are given. -/
theorem ofLinks_names {links : List Link} (notNames : ∀ link ∈ links, link.name ≠ "names") :
    (ofLinks links).names = .empty ∧ (ofLinks links).namesPrefix = none := by
  induction links using List.reverseRecOn with
  | nil => exact ⟨rfl, rfl⟩
  | append_singleton links link ih =>
    obtain ⟨names, namesPrefix⟩ := ih fun other listed => notNames other (List.mem_append_left _ listed)
    have kept := (addLink_expansion (ofLinks links) link).2.2 (notNames link List.mem_concat_self)
    rw [ofLinks_concat, kept.1, kept.2]
    exact ⟨names, namesPrefix⟩

end OwnAttributes

/-! ### Actions -/

/-- The names of the actions of each kind, in the order of their routes. -/
def ResourceKind.actionNames : ResourceKind → List String
  | .resource => ["index", "create", "store", "show", "edit", "update", "destroy"]
  | .apiResource => ["index", "store", "show", "update", "destroy"]
  | .singleton => ["show", "edit", "update"]
  | .apiSingleton => ["show", "update"]

/-- The action concerns a member of the resource, and not the resource as a whole. -/
def ResourceKind.concernsMember (kind : ResourceKind) (action : String) : Bool :=
  (kind == .resource || kind == .apiResource) && ["show", "edit", "update", "destroy"].contains action

theorem ResourceKind.map_name_actions (kind : ResourceKind) :
    kind.actions.map (·.name) = kind.actionNames := by
  cases kind <;> decide +kernel

/-- **An action of a kind**: its name is one piece of a name, and its ending is made of pieces without braces. -/
structure IsActionOf (kind : ResourceKind) (action : ResourceAction) : Prop where
  onMember : action.onMember = kind.concernsMember action.name
  name : nonemptySegments '.' action.name = [action.name]
  ending : action.ending.toList = slashed (nonemptySegments '/' action.ending)
  free : ∀ piece ∈ nonemptySegments '/' action.ending, IsBraceFree piece.toList

theorem ResourceKind.of_mem_actions {kind : ResourceKind} {action : ResourceAction}
    (listed : action ∈ kind.actions) : IsActionOf kind action := by
  have all : ∀ action ∈ kind.actions, action.onMember = kind.concernsMember action.name ∧
      nonemptySegments '.' action.name = [action.name] ∧
      action.ending.toList = slashed (nonemptySegments '/' action.ending) ∧
      ∀ piece ∈ nonemptySegments '/' action.ending, IsBraceFree piece.toList := by
    cases kind <;> decide +kernel
  obtain ⟨onMember, name, ending, free⟩ := all action listed
  exact ⟨onMember, name, ending, free⟩

/-! ### Paths of actions -/

/-- Segments with the parameter of each behind it. -/
def nestedPieces (segments : List String) : List String :=
  segments.flatMap fun segment => [segment, memberParameter segment]

/-- The pieces of the path of an action, for a resource whose last segment stands apart. -/
def actionPieces (outer : List String) (last : String) (action : ResourceAction) : List String :=
  nestedPieces outer ++ [last] ++ (if action.onMember then [memberParameter last] else []) ++
    nonemptySegments '/' action.ending

theorem toList_memberParameter (segment : String) :
    (memberParameter segment).toList = '{' :: ((singular segment).toList ++ ['}']) := by
  simp [memberParameter]

theorem slashed_append (left right : List String) : slashed (left ++ right) = slashed left ++ slashed right :=
  List.flatMap_append

theorem slashed_cons (piece : String) (rest : List String) :
    slashed (piece :: rest) = '/' :: (piece.toList ++ slashed rest) := rfl

theorem toList_resourcePath (outer : List String) (last : String) :
    (resourcePath (outer ++ [last])).toList = slashed (nestedPieces outer ++ [last]) := by
  induction outer with
  | nil => simp [resourcePath, nestedPieces, slashed]
  | cons segment rest ih =>
    have later : resourcePath (segment :: (rest ++ [last])) =
        "/" ++ segment ++ "/" ++ memberParameter segment ++ resourcePath (rest ++ [last]) := by
      obtain ⟨next, others, shape⟩ := List.exists_cons_of_ne_nil (List.concat_ne_nil last rest)
      rw [shape, resourcePath]
      simp
    rw [List.cons_append, later, String.toList_append, ih]
    simp [nestedPieces, slashed]

theorem toList_actionPath {resource last : String} {outer : List String} {kind : ResourceKind}
    {action : ResourceAction} (shape : nonemptySegments '.' resource = outer ++ [last])
    (listed : action ∈ kind.actions) :
    (actionPath resource action).toList = slashed (actionPieces outer last action) := by
  unfold actionPath actionPieces
  simp only [shape, String.toList_append, toList_resourcePath, (ResourceKind.of_mem_actions listed).ending,
    slashed_append]
  congr 2
  split <;> simp [slashed]

/-- Clean pieces are found again behind their slashes. -/
theorem nonemptyParts_slashed {pieces : List String}
    (clean : ∀ piece ∈ pieces, piece.toList ≠ [] ∧ '/' ∉ piece.toList) :
    nonemptyParts '/' (slashed pieces) = pieces.map String.toList := by
  induction pieces with
  | nil => rfl
  | cons first rest ih =>
    obtain ⟨⟨given, free⟩, later⟩ := List.forall_mem_cons.mp clean
    rw [slashed_cons, nonemptyParts_cons_self, List.map_cons, ← ih later]
    cases rest with
    | nil => simp [slashed, nonemptyParts_of_not_mem free given, nonemptyParts_nil]
    | cons second others =>
      rw [slashed_cons, nonemptyParts_append, nonemptyParts_cons_self, nonemptyParts_of_not_mem free given]
      rfl

/-- **The pieces of a path** that is put together from clean ones. -/
theorem nonemptySegments_of_slashed {path : String} {pieces : List String} (chars : path.toList = slashed pieces)
    (clean : ∀ piece ∈ pieces, piece.toList ≠ [] ∧ '/' ∉ piece.toList) : nonemptySegments '/' path = pieces := by
  rw [nonemptySegments_eq, chars, nonemptyParts_slashed clean, List.map_map]
  simp [Function.comp_def]

theorem clean_memberParameter {segment : String} (named : IsParameterName (singular segment).toList) :
    (memberParameter segment).toList ≠ [] ∧ '/' ∉ (memberParameter segment).toList := by
  have noSlash : '/' ∉ (singular segment).toList := named.not_mem_of_mark (by simp)
  rw [toList_memberParameter]
  simp [noSlash]

/-- The pieces of the path of an action are not empty and have no slash. -/
theorem clean_actionPieces {outer : List String} {last : String} (named : IsResourceName (outer ++ [last]))
    (action : ResourceAction) :
    ∀ piece ∈ actionPieces outer last action, piece.toList ≠ [] ∧ '/' ∉ piece.toList := by
  have isLast : last ∈ outer ++ [last] := List.mem_concat_self
  intro piece listed
  simp only [actionPieces, nestedPieces, List.mem_append, List.mem_flatMap, List.mem_cons, List.not_mem_nil,
    or_false] at listed
  rcases listed with ((⟨segment, isOuter, rfl | rfl⟩ | rfl) | isMember) | isEnding
  · exact named.clean (List.mem_append_left _ isOuter)
  · exact clean_memberParameter (named.parameterName (List.mem_append_left _ isOuter))
  · exact named.clean isLast
  · split at isMember
    · rw [List.mem_singleton.mp isMember]
      exact clean_memberParameter (named.parameterName isLast)
    · cases isMember
  · exact of_mem_nonemptySegments isEnding

/-! ### Groups of braces in pieces -/

/-- The pieces of a text without braces have none. -/
theorem free_nonemptySegments (separator : Char) {text : String} (free : IsBraceFree text.toList) :
    ∀ piece ∈ nonemptySegments separator text, IsBraceFree piece.toList := by
  intro piece listed c inside
  rw [nonemptySegments_eq] at listed
  obtain ⟨chars, isPart, rfl⟩ := List.mem_map.mp listed
  rw [String.toList_ofList] at inside
  exact free c (mem_of_mem_splitOn (List.mem_filter.mp isPart).1 inside)

/-- The pieces of a path have these groups of braces, whatever follows. -/
def HasGroups (pieces : List String) (bodies : List (List Char)) : Prop :=
  ∀ rest, braceBodiesFrom none (slashed pieces ++ rest) = bodies ++ braceBodiesFrom none rest

namespace HasGroups

theorem append {left right : List String} {ofLeft ofRight : List (List Char)} (first : HasGroups left ofLeft)
    (second : HasGroups right ofRight) : HasGroups (left ++ right) (ofLeft ++ ofRight) := by
  intro rest
  rw [slashed_append, List.append_assoc, first, second, List.append_assoc]

theorem of_free {pieces : List String} (free : ∀ piece ∈ pieces, IsBraceFree piece.toList) :
    HasGroups pieces [] := by
  intro rest
  have isFree : IsBraceFree (slashed pieces) := by
    intro c inside
    obtain ⟨piece, listed, inPiece⟩ := List.mem_flatMap.mp inside
    rcases List.mem_cons.mp inPiece with rfl | inPiece
    · decide
    · exact free piece listed c inPiece
  exact braceBodiesFrom_free isFree

theorem parameter {segment : String} (named : IsParameterName (singular segment).toList) :
    HasGroups [memberParameter segment] [(singular segment).toList] := by
  intro rest
  have isFree : IsBraceFree ['/'] := by decide
  have chars : slashed [memberParameter segment] ++ rest =
      ['/'] ++ '{' :: ((singular segment).toList ++ '}' :: rest) := by
    simp [slashed, toList_memberParameter]
  rw [chars, braceBodiesFrom_free isFree, braceBodiesFrom_group named.isBraceFree named.given]
  rfl

theorem nested {segments : List String} (free : ∀ segment ∈ segments, IsBraceFree segment.toList)
    (named : ∀ segment ∈ segments, IsParameterName (singular segment).toList) :
    HasGroups (nestedPieces segments) ((segments.map singular).map String.toList) := by
  induction segments with
  | nil => exact fun _ => rfl
  | cons segment rest ih =>
    obtain ⟨firstFree, laterFree⟩ := List.forall_mem_cons.mp free
    obtain ⟨firstNamed, laterNamed⟩ := List.forall_mem_cons.mp named
    have isFree : HasGroups [segment] [] := .of_free (List.forall_mem_singleton.mpr firstFree)
    exact (isFree.append (.parameter firstNamed)).append (ih laterFree laterNamed)

end HasGroups

/-- **The parameters of a path** whose groups are all names of parameters. -/
theorem pathParameters_of_groups {path : String} {names : List String} (constraints : Dict String)
    (groups : braceBodies path = names.map String.toList)
    (named : ∀ name ∈ names, IsParameterName name.toList) :
    (pathParameters path constraints).map (·.name) = names ∧
      ∀ parameter ∈ pathParameters path constraints, parameter.optional = false := by
  have read : Placeholder.ofText path = names.map fun name => ⟨name, false, none, none⟩ := by
    rw [Placeholder.ofText, groups, List.filterMap_map, ← List.filterMap_eq_map]
    refine List.filterMap_congr fun name listed => ?_
    have isNamed := named name listed
    have isRead := Placeholder.ofBody?_eq (Placeholder.splitMark_of_ends isNamed.ends) isNamed.segments_eq isNamed
    rw [String.ofList_toList] at isRead
    rw [Function.comp_apply, Function.comp_apply, isRead]
    rfl
  have parameters : pathParameters path constraints = names.map fun name =>
      ⟨name, inferType (constraints.get? name) name, false, constraints.get? name⟩ := by
    rw [pathParameters, read, List.map_map]
    rfl
  rw [parameters]
  constructor
  · simp [Function.comp_def]
  · intro parameter isParameter
    obtain ⟨name, -, rfl⟩ := List.mem_map.mp isParameter
    rfl

/-! ### The routes -/

/-- The segments whose members an action is given: all of them, or all but the last. -/
def ResourceKind.givenSegments (kind : ResourceKind) (segments : List String) (action : String) : List String :=
  if kind.concernsMember action then segments else segments.dropLast

theorem IsResourceName.parameterName_of_given {segments : List String} (named : IsResourceName segments)
    (kind : ResourceKind) (action : String) :
    ∀ name ∈ (kind.givenSegments segments action).map singular, IsParameterName name.toList := by
  intro name listed
  obtain ⟨segment, isGiven, rfl⟩ := List.mem_map.mp listed
  unfold ResourceKind.givenSegments at isGiven
  split at isGiven
  · exact named.parameterName isGiven
  · exact named.parameterName (List.dropLast_subset _ isGiven)

/-- **The route of an action** of a resource whose name has these segments. -/
structure ExpandsTo (scope : Scope) (kind : ResourceKind) (segments : List String) (action : String)
    (route : Route) : Prop where
  expansion : route.declaration.expansion = some action
  name : route.name = some (joinWith "." (nonemptySegments '.' scope.namePrefix ++ segments ++ [action]))
  parameters : route.parameters.map (·.name) = (kind.givenSegments segments action).map singular
  required : ∀ parameter ∈ route.parameters, parameter.optional = false

/-- The parameters in the path of an action. -/
theorem hasGroups_actionPieces {outer : List String} {last : String} {kind : ResourceKind}
    {action : ResourceAction} (named : IsResourceName (outer ++ [last])) (listed : action ∈ kind.actions) :
    HasGroups (actionPieces outer last action)
      (((kind.givenSegments (outer ++ [last]) action.name).map singular).map String.toList) := by
  have isLast : last ∈ outer ++ [last] := List.mem_concat_self
  have isOuter : ∀ segment ∈ outer, segment ∈ outer ++ [last] := fun _ => List.mem_append_left _
  have nested := HasGroups.nested (fun segment isOne => named.isBraceFree (isOuter segment isOne))
    fun segment isOne => named.parameterName (isOuter segment isOne)
  have bare : HasGroups [last] [] := .of_free (List.forall_mem_singleton.mpr (named.isBraceFree isLast))
  have ending : HasGroups (nonemptySegments '/' action.ending) [] :=
    .of_free (ResourceKind.of_mem_actions listed).free
  unfold actionPieces ResourceKind.givenSegments
  rw [← (ResourceKind.of_mem_actions listed).onMember]
  cases action.onMember with
  | true => simpa using ((nested.append bare).append (.parameter (named.parameterName isLast))).append ending
  | false => simpa using (nested.append bare).append ending

section Expansion

variable {scope : Scope} {kind : ResourceKind} {action : ResourceAction} {resource : String}

/-- The name of the route of an action, as long as no names are given. -/
theorem fullName?_of_action (listed : action ∈ kind.actions) :
    fullName? (some (resourceName resource ++ "." ++ action.name)) scope.namePrefix =
      some (joinWith "." (nonemptySegments '.' scope.namePrefix ++ nonemptySegments '.' resource ++
        [action.name])) := by
  have pieces : nonemptySegments '.' (resourceName resource ++ "." ++ action.name) =
      nonemptySegments '.' resource ++ [action.name] := by
    rw [show "." = String.singleton '.' from rfl, nonemptySegments_append, resourceName,
      show "." = String.singleton '.' from rfl, nonemptySegments_joinWith,
      flatMap_nonemptySegments '.' fun _ => of_mem_nonemptySegments, (ResourceKind.of_mem_actions listed).name]
  cases given : fullName? (some (resourceName resource ++ "." ++ action.name)) scope.namePrefix with
  | none =>
    rw [fullName?_eq_none_iff, Option.toList_some, List.flatMap_singleton, pieces] at given
    simp at given
  | some name =>
    rw [eq_joinWith_of_fullName? given, Option.toList_some, List.flatMap_singleton, pieces, List.append_assoc]

/-- **The groups of the path of an action** are the names of its parameters. -/
theorem braceBodies_of_action (named : IsResourceName (nonemptySegments '.' resource))
    (free : IsBraceFree scope.pathPrefix.toList) (listed : action ∈ kind.actions) :
    braceBodies (fullPath (actionPath resource action) scope.pathPrefix) =
      ((kind.givenSegments (nonemptySegments '.' resource) action.name).map singular).map String.toList := by
  obtain ⟨outer, last, shape⟩ := (List.eq_nil_or_concat' (nonemptySegments '.' resource)).resolve_left named.given
  rw [shape] at named ⊢
  have pieces : nonemptySegments '/' (joinWith "/" [scope.pathPrefix, actionPath resource action]) =
      nonemptySegments '/' scope.pathPrefix ++ actionPieces outer last action := by
    rw [slash_eq, nonemptySegments_joinWith, List.flatMap_cons, List.flatMap_singleton,
      nonemptySegments_of_slashed (toList_actionPath shape listed) (clean_actionPieces named action)]
  have groups : HasGroups (nonemptySegments '/' scope.pathPrefix ++ actionPieces outer last action)
      (((kind.givenSegments (outer ++ [last]) action.name).map singular).map String.toList) :=
    (HasGroups.of_free (free_nonemptySegments '/' free)).append (hasGroups_actionPieces named listed)
  have given : nonemptySegments '/' scope.pathPrefix ++ actionPieces outer last action ≠ [] := by
    simp [actionPieces]
  rw [fullPath_eq, braceBodies, toList_normalizePath, pieces, if_neg given]
  simpa [braceBodiesFrom] using groups []

end Expansion

/-- **The routes of a resource**: one for each action that is asked for, in the order of the actions, as long
as the calls behind give no names. -/
theorem declaredByResource_expandsTo (origin : Origin) (scope : Scope) (kind : ResourceKind) (link : Link)
    (behind : List Link) {resource : String} (given : link.arguments.head?.bind Node.literal? = some resource)
    (named : IsResourceName (nonemptySegments '.' resource)) (free : IsBraceFree scope.pathPrefix.toList)
    (notNames : ∀ call ∈ behind, call.name ≠ "names") :
    List.Forall₂ (ExpandsTo scope kind (nonemptySegments '.' resource))
      (kind.actionNames.filter (asksFor behind)) (declaredByResource origin scope kind link behind) := by
  obtain ⟨names, namesPrefix⟩ := OwnAttributes.ofLinks_names notNames
  have wanted : kind.actionNames.filter (asksFor behind) =
      (wantedActions kind (OwnAttributes.ofLinks behind)).map (·.name) := by
    rw [← kind.map_name_actions, List.filter_map, wantedActions, OwnAttributes.ofLinks_only,
      OwnAttributes.ofLinks_except]
    congr 2
    funext action
    rw [Function.comp_apply, asksFor]
    cases onlyOf behind <;> rfl
  rw [wanted, declaredByResource, given, List.forall₂_map_left_iff]
  dsimp only
  rw [List.forall₂_map_right_iff, List.forall₂_same]
  intro action isWanted
  have listed : action ∈ kind.actions := (List.mem_filter.mp isWanted).1
  obtain ⟨parameters, required⟩ := pathParameters_of_groups (OwnAttributes.ofLinks behind).constraints
    (braceBodies_of_action named free listed) (named.parameterName_of_given kind action.name)
  refine ⟨?_, ?_, ?_, ?_⟩
  · rw [Scope.declare_declaration]
  · rw [Scope.declare_name, names, namesPrefix]
    exact fullName?_of_action listed
  · rw [Scope.declare_parameters]
    exact parameters
  · rw [Scope.declare_parameters]
    exact required

/-- The routes of the entries below photos, in a scope: a second `only` counts, and one of its actions is
excepted. -/
theorem declaredByResource_expandsTo_nested :
    let scope : Scope := { pathPrefix := "admin", namePrefix := "admin" }
    let written := fun text => Node.mk .string ⟨0, 0⟩ text []
    let entry := fun text => Node.mk .element ⟨0, 0⟩ text [written text]
    let link : Link := ⟨"apiResource", written "", [written "'photos.blog-entries'", written "'C'"]⟩
    let behind : List Link := [⟨"only", written "", [written "'store'"]⟩,
      ⟨"only", written "", [Node.mk .array ⟨0, 0⟩ "" [entry "'show'", entry "'update'", entry "'index'"]]⟩,
      ⟨"except", written "", [written "'update'"]⟩]
    ResourceKind.apiResource.actionNames.filter (asksFor behind) = ["index", "show"] ∧
      List.Forall₂ (ExpandsTo scope .apiResource ["photos", "blog-entries"]) ["index", "show"]
        (declaredByResource (Origin.ofText "routes/web.php" "") scope .apiResource link behind) := by
  intro scope written entry link behind
  have segments : nonemptySegments '.' "photos.blog-entries" = ["photos", "blog-entries"] := by decide +kernel
  have asked : ResourceKind.apiResource.actionNames.filter (asksFor behind) = ["index", "show"] := by
    decide +kernel
  have small : ∀ segment ∈ ["photos", "blog-entries"],
      segment.toList.all fun c => c = '-' ∨ 0x61 ≤ c.toNat ∧ c.toNat ≤ 0x7A := by
    decide +kernel
  have named : IsResourceName (nonemptySegments '.' "photos.blog-entries") := by
    rw [segments]
    refine ⟨by decide, fun segment listed c inside => ?_, by decide +kernel⟩
    exact (List.all_iff_forall_prop.mp (small segment listed) c inside).imp_right isWordChar_of_small
  refine ⟨asked, ?_⟩
  rw [← segments, ← asked]
  exact declaredByResource_expandsTo _ scope .apiResource link behind (by decide +kernel) named
    (by decide +kernel) (by decide +kernel)

end Route

end ArtifactIndex
