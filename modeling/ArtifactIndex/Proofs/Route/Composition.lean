/-
**What nested groups give to a route.**

The scope of a declaration is built group by group, with slashes trimmed, empty name parts dropped and
middleware united at every level. `Scope.declare_composed` says what comes out at the end, without going
through the levels:

* the path is the normal form of all path parts joined by slashes;
* the name joins the pieces of all name parts by dots;
* the middleware entries are those of all groups and of the declaration, each once, without the refused
  ones, and an entry comes from a group when any group gives it;
* the domain is the declaration's own, or else that of the innermost group with one.

Each is proved for one more group (`*_descend`) and then for all of them by induction (`*_foldl`).
-/

import ArtifactIndex.Proofs.Text.Segments
import ArtifactIndex.Route.Scope
import Mathlib.Data.List.Chain

namespace ArtifactIndex

namespace Route

/-! ### Paths -/

/-- The pieces of two joined prefixes. -/
theorem nonemptySegments_joinPrefix (outer inner : String) :
    nonemptySegments '/' (joinPrefix outer inner) =
      nonemptySegments '/' outer ++ nonemptySegments '/' inner := by
  rw [← nonemptySegments_trimmedOf '/' outer, ← nonemptySegments_trimmedOf '/' inner]
  simp only [joinPrefix]
  split
  · next empty =>
    rw [String.isEmpty_iff.mp empty, nonemptySegments_empty, List.nil_append]
  · split
    · next empty =>
      rw [String.isEmpty_iff.mp empty, nonemptySegments_empty, List.append_nil]
    · exact nonemptySegments_append '/' _ _

/-- A path depends on the pieces of its text only. -/
theorem normalizePath_congr {left right : String}
    (same : nonemptySegments '/' left = nonemptySegments '/' right) :
    normalizePath left = normalizePath right := by
  unfold normalizePath
  rw [same]

theorem slash_eq : "/" = String.singleton '/' := rfl

theorem fullPath_eq (own inherited : String) :
    fullPath own inherited = normalizePath (joinWith "/" [inherited, own]) := by
  apply normalizePath_congr
  have slash : "/" ++ joinPrefix inherited own = "" ++ String.singleton '/' ++ joinPrefix inherited own :=
    rfl
  rw [slash, nonemptySegments_append, nonemptySegments_empty, List.nil_append,
    nonemptySegments_joinPrefix, slash_eq, nonemptySegments_joinWith]
  simp

/-- A slash before each piece. -/
def slashed (pieces : List String) : List Char := pieces.flatMap fun piece => '/' :: piece.toList

/-- The characters of a path: a slash before each piece, and a slash alone when there is none. -/
theorem toList_normalizePath (raw : String) :
    (normalizePath raw).toList =
      if nonemptySegments '/' raw = [] then ['/'] else slashed (nonemptySegments '/' raw) := by
  have joined : ∀ (first : String) (rest : List String),
      ("/" ++ joinWith "/" (first :: rest)).toList = slashed (first :: rest) := by
    intro first rest
    induction rest generalizing first with
    | nil => simp [joinWith_singleton, slashed]
    | cons second rest ih =>
      rw [joinWith_cons_cons, String.append_assoc, String.toList_append, String.toList_append, ih]
      simp [slashed]
  unfold normalizePath
  split
  · next none =>
    rw [none, if_pos rfl]
    rfl
  · next some_piece =>
    cases shape : nonemptySegments '/' raw with
    | nil => exact absurd shape some_piece
    | cons first rest => rw [joined, if_neg (List.cons_ne_nil first rest)]

/-- Not both characters are slashes. -/
def NotBothSlash (left right : Char) : Prop := ¬ (left = '/' ∧ right = '/')

theorem isChain_of_free {chars : List Char} (free : '/' ∉ chars) : chars.IsChain NotBothSlash := by
  induction chars with
  | nil => exact List.isChain_nil
  | cons c rest ih =>
    refine (ih fun later => free (List.mem_cons_of_mem _ later)).cons fun next _ both => ?_
    exact free (both.1 ▸ List.mem_cons_self)

/-- Where pieces are clean, no two slashes stand side by side. -/
theorem slashed_isChain {pieces : List String}
    (clean : ∀ piece ∈ pieces, piece.toList ≠ [] ∧ '/' ∉ piece.toList) :
    (slashed pieces).IsChain NotBothSlash := by
  induction pieces with
  | nil => exact List.isChain_nil
  | cons piece rest ih =>
    obtain ⟨nonempty, free⟩ := clean piece List.mem_cons_self
    have later := ih fun other member => clean other (List.mem_cons_of_mem _ member)
    have first : ('/' :: piece.toList).IsChain NotBothSlash := by
      refine (isChain_of_free free).cons fun next isFirst both => ?_
      exact free (both.2 ▸ List.mem_of_mem_head? isFirst)
    refine first.append later fun last isLast next _ both => ?_
    rw [List.getLast?_cons_of_ne_nil nonempty] at isLast
    exact free (both.1 ▸ List.mem_of_getLast? isLast)

/-- Where pieces are clean, the last character is no slash. -/
theorem getLast?_slashed {pieces : List String} (some_piece : pieces ≠ [])
    (clean : ∀ piece ∈ pieces, piece.toList ≠ [] ∧ '/' ∉ piece.toList) :
    (slashed pieces).getLast? ≠ some '/' := by
  induction pieces with
  | nil => exact absurd rfl some_piece
  | cons piece rest ih =>
    obtain ⟨nonempty, free⟩ := clean piece List.mem_cons_self
    cases rest with
    | nil =>
      intro isSlash
      simp only [slashed, List.flatMap_singleton] at isSlash
      rw [List.getLast?_cons_of_ne_nil nonempty] at isSlash
      exact free (List.mem_of_getLast? isSlash)
    | cons second rest =>
      have later := ih (List.cons_ne_nil second rest)
        fun other member => clean other (List.mem_cons_of_mem _ member)
      intro isSlash
      apply later
      rw [← isSlash]
      show _ = (('/' :: piece.toList) ++ slashed (second :: rest)).getLast?
      rw [List.getLast?_append_of_ne_nil]
      simp [slashed]

/-- **A path in normal form**: a leading slash, no repeated one, and none at the end unless it is the
whole path. -/
structure NormalPath (path : String) : Prop where
  leading : path.toList.head? = some '/'
  single : ¬ ['/', '/'] <:+: path.toList
  trailing : path = "/" ∨ path.toList.getLast? ≠ some '/'

theorem normalizePath_eq_slash_iff (raw : String) :
    normalizePath raw = "/" ↔ nonemptySegments '/' raw = [] := by
  constructor
  · intro bare
    by_contra some_piece
    have clean : ∀ piece ∈ nonemptySegments '/' raw, piece.toList ≠ [] ∧ '/' ∉ piece.toList :=
      fun _ => of_mem_nonemptySegments
    apply getLast?_slashed some_piece clean
    have chars := toList_normalizePath raw
    rw [if_neg some_piece, bare] at chars
    rw [← chars]
    rfl
  · intro none
    unfold normalizePath
    rw [none]

theorem normalizePath_normal (raw : String) : NormalPath (normalizePath raw) := by
  by_cases none : nonemptySegments '/' raw = []
  · rw [(normalizePath_eq_slash_iff raw).mpr none]
    refine ⟨rfl, ?_, Or.inl rfl⟩
    intro double
    have := double.length_le
    simp at this
  · have chars := toList_normalizePath raw
    rw [if_neg none] at chars
    have clean : ∀ piece ∈ nonemptySegments '/' raw, piece.toList ≠ [] ∧ '/' ∉ piece.toList :=
      fun _ => of_mem_nonemptySegments
    refine ⟨?_, ?_, Or.inr ?_⟩
    · rw [chars]
      obtain ⟨first, rest, shape⟩ := List.exists_cons_of_ne_nil none
      rw [shape]
      rfl
    · intro double
      rw [chars] at double
      have pair := List.IsChain.infix (slashed_isChain clean) double
      exact List.isChain_pair.mp pair ⟨rfl, rfl⟩
    · rw [chars]
      exact getLast?_slashed none clean

/-! ### Names -/

/-- The pieces of two joined names. -/
theorem nonemptySegments_joinNames (outer inner : String) :
    nonemptySegments '.' (joinNames outer inner) =
      nonemptySegments '.' outer ++ nonemptySegments '.' inner := by
  unfold joinNames
  rw [show "." = String.singleton '.' from rfl, nonemptySegments_joinWith]
  apply flatMap_nonemptySegments
  intro piece listed
  rcases List.mem_append.mp listed with ofOuter | ofInner
  · exact of_mem_nonemptySegments ofOuter
  · exact of_mem_nonemptySegments ofInner

/-- Joined names are empty when no piece is left of them. -/
theorem joinNames_eq_empty_iff (outer inner : String) :
    joinNames outer inner = "" ↔ nonemptySegments '.' outer ++ nonemptySegments '.' inner = [] := by
  constructor
  · intro empty
    rw [← nonemptySegments_joinNames, empty, nonemptySegments_empty]
  · intro none
    unfold joinNames
    rw [none, joinWith_nil]

/-- A declaration without a name of its own, or without a piece in any part, has no name. -/
theorem fullName?_eq_none_iff (own : Option String) (inherited : String) :
    fullName? own inherited = none ↔
      own = none ∨
        nonemptySegments '.' inherited ++ own.toList.flatMap (nonemptySegments '.') = [] := by
  cases own with
  | none => simp [fullName?]
  | some own =>
    rw [Option.toList_some, List.flatMap_singleton, ← joinNames_eq_empty_iff]
    simp [fullName?]

/-- A name joins all pieces. -/
theorem eq_joinWith_of_fullName? {own : Option String} {inherited name : String}
    (given : fullName? own inherited = some name) :
    name = joinWith "." (nonemptySegments '.' inherited ++ own.toList.flatMap (nonemptySegments '.')) := by
  cases own with
  | none => cases given
  | some own =>
    simp only [fullName?] at given
    split at given
    · cases given
    · cases given
      rw [Option.toList_some, List.flatMap_singleton]
      rfl

/-! ### One group, and all groups -/

namespace Scope

/-- What grows at its end with each group is, after all groups, what they give one after another. -/
theorem foldl_descend_append (view : Scope → List String) (given : GroupAttributes → List String)
    (step : ∀ scope group, view (scope.descend group) = view scope ++ given group)
    (groups : List GroupAttributes) (scope : Scope) :
    view (groups.foldl descend scope) = view scope ++ groups.flatMap given := by
  induction groups generalizing scope with
  | nil => simp
  | cons group rest ih => rw [List.foldl_cons, ih, step, List.flatMap_cons, List.append_assoc]

/-- The parts that some groups give, and the pieces of these parts. -/
theorem flatMap_filterMap_segments (separator : Char) (part : GroupAttributes → Option String)
    (groups : List GroupAttributes) :
    (groups.filterMap part).flatMap (nonemptySegments separator) =
      groups.flatMap fun group => (part group).toList.flatMap (nonemptySegments separator) := by
  induction groups with
  | nil => rfl
  | cons group rest ih =>
    rw [List.flatMap_cons, ← ih]
    cases given : part group with
    | none => simp [given]
    | some inner => simp [given]

theorem pathSegments_descend (scope : Scope) (group : GroupAttributes) :
    nonemptySegments '/' (scope.descend group).pathPrefix =
      nonemptySegments '/' scope.pathPrefix ++ group.pathPrefix.toList.flatMap (nonemptySegments '/') := by
  unfold descend
  cases group.pathPrefix with
  | none => simp
  | some inner => simp [nonemptySegments_joinPrefix]

theorem nameSegments_descend (scope : Scope) (group : GroupAttributes) :
    nonemptySegments '.' (scope.descend group).namePrefix =
      nonemptySegments '.' scope.namePrefix ++ group.name.toList.flatMap (nonemptySegments '.') := by
  unfold descend
  cases group.name with
  | none => simp
  | some inner => simp [nonemptySegments_joinNames]

/-- **The path inside nested groups** has the pieces of all their prefixes. -/
theorem pathSegments_foldl (groups : List GroupAttributes) :
    nonemptySegments '/' (groups.foldl descend {}).pathPrefix =
      (groups.filterMap (·.pathPrefix)).flatMap (nonemptySegments '/') := by
  rw [flatMap_filterMap_segments]
  exact foldl_descend_append (fun scope => nonemptySegments '/' scope.pathPrefix) _
    pathSegments_descend groups {}

/-- **The name inside nested groups** has the pieces of all their names. -/
theorem nameSegments_foldl (groups : List GroupAttributes) :
    nonemptySegments '.' (groups.foldl descend {}).namePrefix =
      (groups.filterMap (·.name)).flatMap (nonemptySegments '.') := by
  rw [flatMap_filterMap_segments]
  exact foldl_descend_append (fun scope => nonemptySegments '.' scope.namePrefix) _
    nameSegments_descend groups {}

/-- **The domain inside nested groups** is that of the innermost one that gives any. -/
theorem domain_foldl (groups : List GroupAttributes) (scope : Scope) :
    (groups.foldl descend scope).domain =
      ((groups.reverse.findSome? (·.domain)).map normalizeDomain).orElse fun _ => scope.domain := by
  induction groups generalizing scope with
  | nil => rfl
  | cons group rest ih =>
    rw [List.foldl_cons, ih, List.reverse_cons, List.findSome?_append]
    cases rest.reverse.findSome? (·.domain) with
    | some inner => rfl
    | none =>
      cases given : group.domain with
      | none => simp [descend, given]
      | some outer => simp [descend, given]

end Scope

/-! ### Middleware -/

/-- Refusing entries and keeping first occurrences can be done in either order. -/
theorem eraseDups_filter (keep : String → Bool) (entries : List String) :
    (entries.filter keep).eraseDups = entries.eraseDups.filter keep := by
  match entries with
  | [] => rfl
  | first :: rest =>
    have shorter : (rest.filter fun other => !other == first).length < rest.length + 1 :=
      Nat.lt_succ_of_le (List.length_filter_le _ rest)
    have later := eraseDups_filter keep (rest.filter fun other => !other == first)
    rw [List.eraseDups_cons]
    by_cases kept : keep first = true
    · rw [List.filter_cons_of_pos kept, List.filter_cons_of_pos kept, List.eraseDups_cons, ← later,
        List.filter_filter, List.filter_filter]
      simp only [Bool.and_comm]
    · rw [List.filter_cons_of_neg kept, List.filter_cons_of_neg kept, ← later, List.filter_filter]
      congr 1
      refine List.filter_congr fun other _ => ?_
      by_cases same : other = first
      · simp [same, kept]
      · simp [same]
termination_by entries.length

theorem eraseDups_eraseDups (entries : List String) : entries.eraseDups.eraseDups = entries.eraseDups := by
  match entries with
  | [] => rfl
  | first :: rest =>
    have shorter : (rest.filter fun other => !other == first).length < rest.length + 1 :=
      Nat.lt_succ_of_le (List.length_filter_le _ rest)
    have later := eraseDups_eraseDups (rest.filter fun other => !other == first)
    rw [List.eraseDups_cons, List.eraseDups_cons, ← eraseDups_filter, List.filter_filter]
    simp only [Bool.and_self]
    rw [later]
termination_by entries.length

theorem removeAll_eraseDups (entries known : List String) :
    entries.removeAll known.eraseDups = entries.removeAll known := by
  unfold List.removeAll
  refine List.filter_congr fun entry _ => ?_
  simp

/-- **Entries that are new are added at the end.** After all of them the list ends with the first
occurrences of those that were not there before. -/
theorem foldl_new {β : Type} (key : β → String) (tag : String → β) (inverse : ∀ entry, key (tag entry) = entry)
    (entries : List String) (known : List β) :
    (entries.map tag).foldl (fun held entry =>
        if (held.map key).contains (key entry) then held else held ++ [entry]) known =
      known ++ ((entries.removeAll (known.map key)).eraseDups).map tag := by
  induction entries generalizing known with
  | nil => simp
  | cons first rest ih =>
    rw [List.map_cons, List.foldl_cons, inverse]
    by_cases held : first ∈ known.map key
    · rw [if_pos (List.contains_iff_mem.mpr held), ih, List.cons_removeAll]
      simp [held]
    · have split : rest.removeAll ((known ++ [tag first]).map key) =
          (rest.removeAll (known.map key)).filter fun other => !other == first := by
        unfold List.removeAll
        rw [List.filter_filter]
        refine List.filter_congr fun other _ => ?_
        by_cases same : other = first
        · simp [same, inverse]
        · simp [same, inverse]
      have isNew : (known.map key).contains first = false := by simpa using held
      rw [if_neg (fun found => held (List.contains_iff_mem.mp found)), ih, split, List.cons_removeAll,
        if_pos isNew, List.eraseDups_cons, List.map_cons, List.append_assoc, List.singleton_append]

theorem appendNew_eq (known further : List String) :
    appendNew known further = known ++ (further.removeAll known).eraseDups := by
  have general := foldl_new id id (fun _ => rfl) further known
  simpa [appendNew] using general

/-- Lists with the same first occurrences keep them when the same entries follow. -/
theorem eraseDups_append_congr {left right : List String} (same : left.eraseDups = right.eraseDups)
    (further : List String) : (left ++ further).eraseDups = (right ++ further).eraseDups := by
  rw [List.eraseDups_append, List.eraseDups_append, ← removeAll_eraseDups further left, same,
    removeAll_eraseDups]

theorem eraseDups_appendNew (known further : List String) :
    (appendNew known further).eraseDups = (known ++ further).eraseDups := by
  have apart : ((further.removeAll known).eraseDups).removeAll known =
      (further.removeAll known).eraseDups := by
    unfold List.removeAll
    rw [eraseDups_filter, List.filter_filter]
    simp only [Bool.and_self]
  rw [appendNew_eq, List.eraseDups_append, List.eraseDups_append, apart, eraseDups_eraseDups]

namespace Scope

/-- **The middleware inside nested groups**: the first occurrences of all their entries. -/
theorem middleware_foldl (groups : List GroupAttributes) (scope : Scope) :
    (groups.foldl descend scope).middleware.eraseDups =
      (scope.middleware ++ groups.flatMap (·.middleware)).eraseDups := by
  induction groups generalizing scope with
  | nil => simp
  | cons group rest ih =>
    rw [List.foldl_cons, ih, List.flatMap_cons, ← List.append_assoc]
    exact eraseDups_append_congr (eraseDups_appendNew scope.middleware group.middleware) _

/-- The entries of a route with their sources, when the scope's entries have the first occurrences of
the groups' ones. -/
theorem middlewareOf_eq {scope : Scope} {ofGroups : List String}
    (united : scope.middleware.eraseDups = ofGroups.eraseDups) (own : OwnAttributes) :
    scope.middlewareOf own =
      (((ofGroups ++ own.middleware).eraseDups.filter fun entry =>
        !own.withoutMiddleware.contains entry).map fun entry =>
          (entry, if entry ∈ ofGroups then MiddlewareSource.group else .route)) := by
  have fromGroups : (scope.middleware.filter fun entry =>
      !own.withoutMiddleware.contains entry).eraseDups =
        (ofGroups.filter fun entry => !own.withoutMiddleware.contains entry).eraseDups := by
    rw [eraseDups_filter, eraseDups_filter, united]
  simp only [middlewareOf, List.filter_append, List.filter_map, Function.comp_def, List.foldl_append]
  rw [foldl_new Prod.fst (·, MiddlewareSource.group) (fun _ => rfl),
    foldl_new Prod.fst (·, MiddlewareSource.route) (fun _ => rfl)]
  simp only [List.map_nil, List.removeAll_nil, List.nil_append, List.map_map, Function.comp_def,
    List.map_id']
  rw [fromGroups, removeAll_eraseDups, ← eraseDups_filter, List.filter_append, List.eraseDups_append,
    List.map_append]
  congr 1
  · refine List.map_congr_left fun entry listed => ?_
    have given : entry ∈ ofGroups := (List.mem_filter.mp (List.mem_eraseDups.mp listed)).1
    rw [if_pos given]
  · refine List.map_congr_left fun entry listed => ?_
    obtain ⟨isOwn, isNew⟩ := List.mem_filter.mp (List.mem_eraseDups.mp listed)
    have wanted := (List.mem_filter.mp isOwn).2
    -- An own entry that a group gives too would be among the wanted entries of the groups.
    have notGiven : entry ∉ ofGroups := by
      intro given
      have amongGroups : entry ∈ ofGroups.filter fun entry => !own.withoutMiddleware.contains entry :=
        List.mem_filter.mpr ⟨given, wanted⟩
      rw [List.elem_eq_contains, List.contains_iff_mem.mpr amongGroups] at isNew
      cases isNew
    rw [if_neg notGiven]

end Scope

/-! ### The route -/

section Fields

variable (scope : Scope) (method rawPath : String) (ownName controller : Option String)
  (own : OwnAttributes) (declaration : Site)

theorem Scope.declare_path :
    (scope.declare method rawPath ownName controller own declaration).path =
      fullPath rawPath scope.pathPrefix := by
  rw [Scope.declare]

theorem Scope.declare_name :
    (scope.declare method rawPath ownName controller own declaration).name =
      fullName? ownName scope.namePrefix := by
  rw [Scope.declare]

theorem Scope.declare_middleware :
    (scope.declare method rawPath ownName controller own declaration).middleware =
      (scope.middlewareOf own).map Prod.fst := by
  rw [Scope.declare]

theorem Scope.declare_middlewareSources :
    (scope.declare method rawPath ownName controller own declaration).middlewareSources =
      (scope.middlewareOf own).map fun entry =>
        { name := (splitMiddleware entry.1).1, parameters := (splitMiddleware entry.1).2
          source := entry.2 } := by
  rw [Scope.declare]

theorem Scope.declare_domain :
    (scope.declare method rawPath ownName controller own declaration).domain =
      own.domain.orElse fun _ => scope.domain := by
  rw [Scope.declare]

theorem Scope.declare_parameters :
    (scope.declare method rawPath ownName controller own declaration).parameters =
      pathParameters (fullPath rawPath scope.pathPrefix) own.constraints := by
  rw [Scope.declare]

theorem Scope.declare_declaration :
    (scope.declare method rawPath ownName controller own declaration).declaration = declaration := by
  rw [Scope.declare]

end Fields

section Declared

variable (groups : List GroupAttributes)

/-- The path of a declaration inside groups. -/
theorem fullPath_foldl (rawPath : String) :
    fullPath rawPath (groups.foldl Scope.descend {}).pathPrefix =
      normalizePath (joinWith "/" (groups.filterMap (·.pathPrefix) ++ [rawPath])) := by
  rw [fullPath_eq]
  apply normalizePath_congr
  rw [slash_eq, nonemptySegments_joinWith, nonemptySegments_joinWith, List.flatMap_append,
    List.flatMap_cons, Scope.pathSegments_foldl]

/-- The pieces of a declaration's name inside groups. -/
theorem nameSegments_append (ownName : Option String) :
    nonemptySegments '.' (groups.foldl Scope.descend {}).namePrefix ++
        ownName.toList.flatMap (nonemptySegments '.') =
      (groups.filterMap (·.name) ++ ownName.toList).flatMap (nonemptySegments '.') := by
  rw [Scope.nameSegments_foldl, List.flatMap_append]

/-- The middleware entries of a declaration inside groups, with their sources. -/
theorem middlewareOf_foldl (own : OwnAttributes) :
    (groups.foldl Scope.descend {}).middlewareOf own =
      (((groups.flatMap (·.middleware) ++ own.middleware).eraseDups.filter fun entry =>
        !own.withoutMiddleware.contains entry).map fun entry =>
          (entry, if entry ∈ groups.flatMap (·.middleware) then MiddlewareSource.group else .route)) :=
  Scope.middlewareOf_eq (Scope.middleware_foldl groups {}) own

/-- **The closed form of nested groups.** What a declaration inside groups, outermost first, comes to. -/
theorem Scope.declare_composed (method rawPath : String) (ownName controller : Option String)
    (own : OwnAttributes) (declaration : Site) :
    let route := (groups.foldl Scope.descend {}).declare method rawPath ownName controller own declaration
    let pathParts := groups.filterMap (·.pathPrefix) ++ [rawPath]
    let nameParts := groups.filterMap (·.name) ++ ownName.toList
    let ofGroups := groups.flatMap (·.middleware)
    (route.path = normalizePath (joinWith "/" pathParts) ∧ NormalPath route.path ∧
      (route.path = "/" ↔ ∀ part ∈ pathParts, ∀ c ∈ part.toList, c = '/')) ∧
    ((route.name = none ↔ ownName = none ∨ ∀ part ∈ nameParts, nonemptySegments '.' part = []) ∧
      ∀ name, route.name = some name → name = joinWith "." (nameParts.flatMap (nonemptySegments '.'))) ∧
    (route.middleware = ((ofGroups ++ own.middleware).eraseDups.filter fun entry =>
        !own.withoutMiddleware.contains entry) ∧
      route.middlewareSources = route.middleware.map fun entry =>
        { name := (splitMiddleware entry).1, parameters := (splitMiddleware entry).2
          source := if entry ∈ ofGroups then .group else .route }) ∧
    route.domain = own.domain.orElse fun _ =>
      (groups.reverse.findSome? (·.domain)).map normalizeDomain := by
  intro route pathParts nameParts ofGroups
  have path : route.path = normalizePath (joinWith "/" pathParts) :=
    (Scope.declare_path ..).trans (fullPath_foldl groups rawPath)
  have middleware := middlewareOf_foldl groups own
  refine ⟨⟨path, ?_, ?_⟩, ⟨?_, ?_⟩, ⟨?_, ?_⟩, ?_⟩
  · rw [path]
    exact normalizePath_normal _
  · rw [path, normalizePath_eq_slash_iff, slash_eq, nonemptySegments_joinWith, List.flatMap_eq_nil_iff]
    simp only [nonemptySegments_eq_nil_iff]
  · rw [Scope.declare_name, fullName?_eq_none_iff, nameSegments_append, List.flatMap_eq_nil_iff]
  · intro name given
    rw [Scope.declare_name] at given
    rw [eq_joinWith_of_fullName? given, nameSegments_append]
  · rw [Scope.declare_middleware, middleware, List.map_map]
    exact List.map_id _
  · rw [Scope.declare_middlewareSources, Scope.declare_middleware, middleware, List.map_map,
      List.map_map, List.map_map]
    rfl
  · rw [Scope.declare_domain, Scope.domain_foldl]
    simp

end Declared

end Route

end ArtifactIndex
