/-
**The parameters of written paths.**

A path is a row of segments between slashes; a segment is plain text, or a parameter as `{name}`, `{name?}`
or `{name:pattern}`. Reading looks for a brace that opens and for the next brace behind it, so that a
pattern with braces of its own hides its parameter: what is found there are the groups inside the pattern.

* `PathSegment`, `writtenPath`: every such path, with the parameters it is meant to have;
* `braceBodiesFrom_append`: the groups of a text whose braces come in pairs, and of what follows;
* `pathParameters_writtenPath`: what is read from a path, segment by segment;
* `pathParameters_writtenPath_eq_iff`: exactly the paths without braces in their patterns give the
  parameters that they are meant to have.
-/

import ArtifactIndex.Proofs.Text.Braces
import ArtifactIndex.Proofs.Text.Segments
import ArtifactIndex.Proofs.Text.Slices
import ArtifactIndex.Route.Parameter
import Mathlib.Data.Bool.AllAny

namespace ArtifactIndex

/-! ### Segments -/

/-- **The name of a parameter**: some characters, none of them blank or a mark of the notation. Letters,
digits and underscores are such characters. -/
structure IsParameterName (name : List Char) : Prop where
  given : name ≠ []
  plain : ∀ c ∈ name, isBlank c = false ∧ c ∉ ['{', '}', ':', '?', '/']

/-- **The pattern of a parameter.** Its braces come in pairs. -/
structure IsParameterPattern (pattern : List Char) : Prop where
  given : pattern ≠ []
  plain : ∀ c ∈ pattern, c ≠ '/' ∧ c ≠ ':'
  balanced : closesBraces 0 pattern = true
  ends : pattern.getLast? ≠ some '?'

/-- **A segment of a path.** -/
inductive PathSegment where
  | plain (text : List Char) (free : IsBraceFree text) (noSlash : '/' ∉ text)
  | required (name : List Char) (named : IsParameterName name)
  | optional (name : List Char) (named : IsParameterName name)
  | constrained (name pattern : List Char) (named : IsParameterName name)
      (isPattern : IsParameterPattern pattern)

namespace PathSegment

/-- The segment as it is written. -/
def written : PathSegment → List Char
  | plain text _ _ => text
  | required name _ => '{' :: (name ++ ['}'])
  | optional name _ => '{' :: (name ++ ['?'] ++ ['}'])
  | constrained name pattern _ _ => '{' :: (name ++ ':' :: pattern ++ ['}'])

/-- The parameter of a name and a pattern, its type taken from them. -/
def parameterOf (name : List Char) (optional : Bool) (pattern : Option (List Char)) : PathParameter :=
  let constraint := pattern.map String.ofList
  { name := String.ofList name
    inferredType := inferType constraint (String.ofList name)
    optional
    constraint }

/-- The parameter that the segment is meant to be. -/
def parameter? : PathSegment → Option PathParameter
  | plain _ _ _ => none
  | required name _ => some (parameterOf name false none)
  | optional name _ => some (parameterOf name true none)
  | constrained name pattern _ _ => some (parameterOf name false (some pattern))

/-- The segment has no braces but those around it. -/
def HasFlatPattern : PathSegment → Prop
  | constrained _ pattern _ _ => IsBraceFree pattern
  | _ => True

end PathSegment

/-- **A path** of some segments. -/
def writtenPath (segments : List PathSegment) : String :=
  joinWith "/" (segments.map fun segment => String.ofList segment.written)

/-! ### Groups of braces -/

section Groups

variable {pending : Option (List Char)} {free body rest : List Char}

theorem braceBodiesFrom_opening :
    braceBodiesFrom pending ('{' :: rest) = braceBodiesFrom (some []) rest := by
  cases pending <;> simp [braceBodiesFrom]

theorem braceBodiesFrom_closing :
    braceBodiesFrom pending ('}' :: rest) = braceBodiesFrom pending ['}'] ++ braceBodiesFrom none rest := by
  cases pending with
  | none => simp [braceBodiesFrom]
  | some body => by_cases empty : body = [] <;> simp [braceBodiesFrom, empty]

/-- Characters other than braces are kept since the last brace that opened. -/
theorem braceBodiesFrom_free (isFree : IsBraceFree free) :
    braceBodiesFrom pending (free ++ rest) = braceBodiesFrom (pending.map (free.reverse ++ ·)) rest := by
  induction free generalizing pending with
  | nil => cases pending <;> rfl
  | cons c free ih =>
    obtain ⟨⟨noOpening, noClosing⟩, later⟩ := List.forall_mem_cons.mp isFree
    cases pending with
    | none =>
      have passed : braceBodiesFrom none (c :: free ++ rest) = braceBodiesFrom none (free ++ rest) := by
        simp [braceBodiesFrom, noOpening]
      rw [passed, ih later]
      rfl
    | some body => simp [braceBodiesFrom, noOpening, noClosing, ih later]

/-- **A group without braces of its own** is found as it is. -/
theorem braceBodiesFrom_group (isFree : IsBraceFree free) (given : free ≠ []) :
    braceBodiesFrom pending ('{' :: (free ++ '}' :: rest)) = free :: braceBodiesFrom none rest := by
  rw [braceBodiesFrom_opening, braceBodiesFrom_free isFree, braceBodiesFrom_closing]
  simp [braceBodiesFrom, given]

/-- **The groups of a text that closes its braces** are found before those of what follows. Outside of all
braces nothing is kept, and the count of open braces tells that. -/
theorem braceBodiesFrom_append {depth : Nat} {chars : List Char} (closes : closesBraces depth chars = true)
    (outside : depth = 0 → pending = none) :
    braceBodiesFrom pending (chars ++ rest) = braceBodiesFrom pending chars ++ braceBodiesFrom none rest := by
  induction chars generalizing depth pending with
  | nil =>
    rw [outside (closesBraces_nil.mp closes)]
    rfl
  | cons c chars ih =>
    by_cases opening : c = '{'
    · subst opening
      rw [closesBraces_opening] at closes
      rw [List.cons_append, braceBodiesFrom_opening, braceBodiesFrom_opening, ih closes (by simp)]
    by_cases closing : c = '}'
    · subst closing
      obtain ⟨outer, rfl, closes⟩ := closesBraces_closing.mp closes
      rw [List.cons_append, braceBodiesFrom_closing, ih closes (fun _ => rfl), ← List.append_assoc,
        ← braceBodiesFrom_closing]
    rw [closesBraces_other opening closing] at closes
    have isFree : IsBraceFree [c] := by simp [IsBraceFree, opening, closing]
    have kept : depth = 0 → pending.map ([c].reverse ++ ·) = none := by
      intro zero
      rw [outside zero, Option.map_none]
    rw [← List.singleton_append, List.append_assoc, braceBodiesFrom_free isFree, braceBodiesFrom_free isFree,
      ih closes kept]

/-- **A group with braces of its own is not found**, but the groups inside it are. -/
theorem braceBodiesFrom_nested {ahead pattern : List Char} (isFree : IsBraceFree ahead)
    (balanced : closesBraces 0 pattern = true) (braced : ¬IsBraceFree pattern) :
    braceBodiesFrom pending ('{' :: (ahead ++ pattern ++ '}' :: rest)) =
      braceBodiesFrom none pattern ++ braceBodiesFrom none rest := by
  obtain ⟨before, behind, rfl, plain⟩ := (exists_opening_of_closesBraces balanced).resolve_left braced
  -- Up to the first brace of the pattern everything is forgotten.
  have forgotten : ∀ kept, braceBodiesFrom kept (before ++ '{' :: behind ++ '}' :: rest) =
      braceBodiesFrom (some []) (behind ++ '}' :: rest) := by
    intro kept
    rw [List.append_assoc, braceBodiesFrom_free plain, List.cons_append, braceBodiesFrom_opening]
  calc braceBodiesFrom pending ('{' :: (ahead ++ (before ++ '{' :: behind) ++ '}' :: rest))
      = braceBodiesFrom none (before ++ '{' :: behind ++ '}' :: rest) := by
        rw [braceBodiesFrom_opening, List.append_assoc ahead, braceBodiesFrom_free isFree, forgotten,
          forgotten]
    _ = braceBodiesFrom none (before ++ '{' :: behind) ++ braceBodiesFrom none ('}' :: rest) :=
        braceBodiesFrom_append balanced fun _ => rfl
    _ = braceBodiesFrom none (before ++ '{' :: behind) ++ braceBodiesFrom none rest := by
        rw [braceBodiesFrom_closing]
        rfl

/-- No group that is found has a brace. -/
theorem isBraceFree_of_mem_braceBodiesFrom {chars : List Char} (found : body ∈ braceBodiesFrom pending chars)
    (kept : ∀ held ∈ pending, IsBraceFree held) : IsBraceFree body := by
  fun_induction braceBodiesFrom pending chars with
  | case1 => cases found
  | case2 pending rest ih => exact ih found (by simp [IsBraceFree])
  | case3 c rest _ ih => exact ih found nofun
  | case4 rest held _ empty ih => exact ih found nofun
  | case5 rest held _ given ih =>
    rcases List.mem_cons.mp found with rfl | later
    · exact fun c inside => kept held rfl c (List.mem_reverse.mp inside)
    · exact ih later nofun
  | case6 c rest noOpening held noClosing ih =>
    apply ih found
    rintro longer ⟨⟩
    exact List.forall_mem_cons.mpr ⟨⟨noOpening, noClosing⟩, kept held rfl⟩

end Groups

/-! ### Reading a group -/

namespace Placeholder

/-- A group that ends in no question mark is not optional. -/
theorem splitMark_of_ends {body : List Char} (ends : body.getLast? ≠ some '?') :
    splitMark body = (body, false) := by
  unfold splitMark
  split
  · next c rest shape =>
    rw [← List.head?_reverse, shape] at ends
    exact absurd rfl ends
  · rfl

/-- A question mark behind something makes it optional. -/
theorem splitMark_concat {body : List Char} (given : body ≠ []) : splitMark (body ++ ['?']) = (body, true) := by
  obtain ⟨c, rest, shape⟩ := List.exists_cons_of_ne_nil (List.reverse_ne_nil_iff.mpr given)
  have whole : (c :: rest).reverse = body := by rw [← shape, List.reverse_reverse]
  unfold splitMark
  rw [List.reverse_append, shape]
  simp [← whole]

/-- What is read from a group whose first part is a name. -/
theorem ofBody?_eq {body content name : List Char} {optional : Bool} {others : List String}
    (marked : splitMark body = (content, optional))
    (parts : segments ':' (String.ofList content) = String.ofList name :: others)
    (named : IsParameterName name) :
    ofBody? body =
      some { name := String.ofList name, optional, pattern := others[0]?, fallback := others[1]? } := by
  have noBlank : ∀ c ∈ name, isBlank c = false := fun c inside => (named.plain c inside).1
  have plain : trimmed (String.ofList name) = String.ofList name := by
    apply trimmed_eq_self
    · intro c first
      exact noBlank c (by simpa using List.mem_of_mem_head? first)
    · intro c last
      exact noBlank c (by simpa using List.mem_of_mem_getLast? last)
  unfold ofBody?
  simp [marked, parts, plain, named.given]

theorem isBraceFree_splitMark {body : List Char} (free : IsBraceFree body) :
    IsBraceFree (splitMark body).1 := by
  unfold splitMark
  split
  · next c rest shape =>
    intro d inside
    apply free
    rw [← List.mem_reverse, shape]
    exact List.mem_cons_of_mem _ (List.mem_reverse.mp inside)
  · exact free

/-- **A pattern that is read from a group has no braces**, when the group has none. -/
theorem isBraceFree_of_ofBody? {body : List Char} {placeholder : Placeholder} (free : IsBraceFree body)
    (read : ofBody? body = some placeholder) {pattern : String} (isPattern : placeholder.pattern = some pattern) :
    IsBraceFree pattern.toList := by
  unfold ofBody? at read
  split at read
  next content optional marked =>
  dsimp only at read
  split at read
  · cases read
  · rw [← Option.some.inj read] at isPattern
    obtain ⟨piece, isPiece, rfl⟩ := List.mem_map.mp (List.mem_of_getElem? isPattern)
    rw [String.toList_ofList] at isPiece ⊢
    intro c inside
    have among : c ∈ ':' :: content := by
      rw [← flatMap_splitOn]
      exact List.mem_flatMap.mpr ⟨piece, isPiece, List.mem_cons_of_mem _ inside⟩
    rcases List.mem_cons.mp among with rfl | inContent
    · decide
    · have inPart : c ∈ (splitMark body).1 := by rwa [marked]
      exact isBraceFree_splitMark free c inPart

end Placeholder

namespace IsParameterName

variable {name : List Char}

theorem isBraceFree (named : IsParameterName name) : IsBraceFree name := by
  intro c inside
  have apart := (named.plain c inside).2
  constructor <;> rintro rfl <;> simp at apart

theorem not_mem_of_mark (named : IsParameterName name) {mark : Char}
    (isMark : mark ∈ ['{', '}', ':', '?', '/']) : mark ∉ name :=
  fun inside => (named.plain mark inside).2 isMark

theorem segments_eq (named : IsParameterName name) :
    segments ':' (String.ofList name) = [String.ofList name] := by
  apply segments_of_free
  rw [String.toList_ofList]
  exact named.not_mem_of_mark (by simp)

theorem ends (named : IsParameterName name) : name.getLast? ≠ some '?' := fun last =>
  named.not_mem_of_mark (by simp) (List.mem_of_mem_getLast? last)

end IsParameterName

/-- A pattern in which no brace opens has no braces at all. -/
theorem IsParameterPattern.isBraceFree_iff {pattern : List Char} (isPattern : IsParameterPattern pattern) :
    IsBraceFree pattern ↔ '{' ∉ pattern := by
  constructor
  · intro free inside
    exact (free _ inside).1 rfl
  · intro noOpening
    refine (exists_opening_of_closesBraces isPattern.balanced).resolve_right ?_
    rintro ⟨before, behind, rfl, -⟩
    exact noOpening (by simp)

/-- A parameter as it is taken from a group of braces, where no constraints are given. -/
def Placeholder.parameter (placeholder : Placeholder) : PathParameter where
  name := placeholder.name
  inferredType := inferType placeholder.pattern placeholder.name
  optional := placeholder.optional
  constraint := placeholder.pattern

/-- The parameters of a path are read from its groups of braces. -/
theorem pathParameters_empty (path : String) :
    pathParameters path .empty =
      ((braceBodies path).filterMap Placeholder.ofBody?).map Placeholder.parameter := by
  unfold pathParameters Placeholder.ofText
  congr 1
  funext placeholder
  have unconstrained : (Dict.empty : Dict String).get? placeholder.name = none := rfl
  simp [Placeholder.parameter, unconstrained]

/-! ### Reading a path -/

namespace PathSegment

/-- The groups of braces that are found in the segment. -/
def groups : PathSegment → List (List Char)
  | plain _ _ _ => []
  | required name _ => [name]
  | optional name _ => [name ++ ['?']]
  | constrained name pattern _ _ =>
    if '{' ∈ pattern then braceBodiesFrom none pattern else [name ++ ':' :: pattern]

/-- **The parameters that are read from the segment**: those that are written in its pattern, when that has
braces, or else the one that it is meant to be. -/
def found : PathSegment → List PathParameter
  | constrained name pattern _ _ =>
    if '{' ∈ pattern then pathParameters (String.ofList pattern) .empty
    else [parameterOf name false (some pattern)]
  | segment => segment.parameter?.toList

/-- **The groups of a segment** stand before those of what follows. -/
theorem braceBodiesFrom_written (segment : PathSegment) (rest : List Char) :
    braceBodiesFrom none (segment.written ++ rest) = segment.groups ++ braceBodiesFrom none rest := by
  cases segment with
  | plain text free noSlash => exact braceBodiesFrom_free free
  | required name named =>
    have shape : (required name named).written ++ rest = '{' :: (name ++ '}' :: rest) := by
      simp [written]
    rw [shape, braceBodiesFrom_group named.isBraceFree named.given]
    rfl
  | optional name named =>
    have shape : (optional name named).written ++ rest = '{' :: ((name ++ ['?']) ++ '}' :: rest) := by
      simp [written]
    have free : IsBraceFree (name ++ ['?']) :=
      List.forall_mem_append.mpr ⟨named.isBraceFree, by simp⟩
    rw [shape, braceBodiesFrom_group free (by simp)]
    rfl
  | constrained name pattern named isPattern =>
    have ahead : IsBraceFree (name ++ [':']) := List.forall_mem_append.mpr ⟨named.isBraceFree, by simp⟩
    by_cases braced : '{' ∈ pattern
    · have shape : (constrained name pattern named isPattern).written ++ rest =
          '{' :: ((name ++ [':']) ++ pattern ++ '}' :: rest) := by simp [written]
      rw [shape, braceBodiesFrom_nested ahead isPattern.balanced
        (fun free => isPattern.isBraceFree_iff.mp free braced), groups, if_pos braced]
    · have shape : (constrained name pattern named isPattern).written ++ rest =
          '{' :: ((name ++ [':'] ++ pattern) ++ '}' :: rest) := by simp [written]
      have free : IsBraceFree (name ++ [':'] ++ pattern) :=
        List.forall_mem_append.mpr ⟨ahead, isPattern.isBraceFree_iff.mpr braced⟩
      rw [shape, braceBodiesFrom_group free (by simp), groups, if_neg braced]
      simp

/-- **The parameters of a segment** are those of its groups. -/
theorem found_eq (segment : PathSegment) :
    (segment.groups.filterMap Placeholder.ofBody?).map Placeholder.parameter = segment.found := by
  cases segment with
  | plain text free noSlash => rfl
  | required name named =>
    have read := Placeholder.ofBody?_eq (Placeholder.splitMark_of_ends named.ends) named.segments_eq named
    rw [groups, List.filterMap_cons_some read]
    rfl
  | optional name named =>
    have read := Placeholder.ofBody?_eq (Placeholder.splitMark_concat named.given) named.segments_eq named
    rw [groups, List.filterMap_cons_some read]
    rfl
  | constrained name pattern named isPattern =>
    rw [groups, found]
    by_cases braced : '{' ∈ pattern
    · rw [if_pos braced, if_pos braced, pathParameters_empty, braceBodies, String.toList_ofList]
    · have ends : (name ++ ':' :: pattern).getLast? ≠ some '?' := by
        obtain ⟨c, others, shape⟩ := List.exists_cons_of_ne_nil isPattern.given
        have last := isPattern.ends
        rw [shape] at last ⊢
        rwa [List.getLast?_append_cons, List.getLast?_cons_cons]
      have text : String.ofList (name ++ ':' :: pattern) =
          String.ofList name ++ String.singleton ':' ++ String.ofList pattern := by
        rw [← String.toList_inj]
        simp
      have inPattern : segments ':' (String.ofList pattern) = [String.ofList pattern] := by
        apply segments_of_free
        rw [String.toList_ofList]
        exact fun inside => (isPattern.plain _ inside).2 rfl
      have parts : segments ':' (String.ofList (name ++ ':' :: pattern)) =
          [String.ofList name, String.ofList pattern] := by
        rw [text, segments_append, named.segments_eq, inPattern, List.singleton_append]
      have read := Placeholder.ofBody?_eq (Placeholder.splitMark_of_ends ends) parts named
      rw [if_neg braced, if_neg braced, List.filterMap_cons_some read]
      rfl

/-- What is found is what is meant, where no pattern has braces. -/
theorem found_of_hasFlatPattern {segment : PathSegment} (flat : segment.HasFlatPattern) :
    segment.found = segment.parameter?.toList := by
  cases segment with
  | constrained name pattern named isPattern =>
    rw [found, if_neg (isPattern.isBraceFree_iff.mp flat)]
    rfl
  | _ => rfl

end PathSegment

/-- The groups of braces of a path, segment by segment. -/
theorem braceBodies_writtenPath (segments : List PathSegment) :
    braceBodies (writtenPath segments) = segments.flatMap PathSegment.groups := by
  unfold braceBodies writtenPath
  induction segments with
  | nil => rfl
  | cons first rest ih =>
    cases rest with
    | nil =>
      have alone := first.braceBodiesFrom_written []
      rw [List.append_nil] at alone
      rw [List.map_singleton, joinWith_singleton, String.toList_ofList, alone]
      simp [braceBodiesFrom]
    | cons second rest =>
      have slash : IsBraceFree ['/'] := by simp [IsBraceFree]
      rw [List.map_cons, List.map_cons, joinWith_cons_cons, String.toList_append, String.toList_append,
        String.toList_ofList, List.append_assoc, first.braceBodiesFrom_written, List.flatMap_cons, ← ih]
      exact congrArg (first.groups ++ ·) (braceBodiesFrom_free slash)

/-- **What is read from a path**, segment by segment. -/
theorem pathParameters_writtenPath (segments : List PathSegment) :
    pathParameters (writtenPath segments) .empty = segments.flatMap PathSegment.found := by
  rw [pathParameters_empty, braceBodies_writtenPath, List.filterMap_flatMap, List.map_flatMap]
  congr 1
  funext segment
  exact segment.found_eq

/-- **A constraint that is read from a path has no braces.** -/
theorem isBraceFree_of_mem_pathParameters {path pattern : String} {parameter : PathParameter}
    (isParameter : parameter ∈ pathParameters path .empty) (constrained : parameter.constraint = some pattern) :
    IsBraceFree pattern.toList := by
  rw [pathParameters_empty] at isParameter
  obtain ⟨placeholder, isRead, rfl⟩ := List.mem_map.mp isParameter
  obtain ⟨body, isGroup, read⟩ := List.mem_filterMap.mp isRead
  exact Placeholder.isBraceFree_of_ofBody? (isBraceFree_of_mem_braceBodiesFrom isGroup nofun) read
    constrained

/-- **A path gives the parameters that it is meant to have exactly when no pattern has braces.** -/
theorem pathParameters_writtenPath_eq_iff (segments : List PathSegment) :
    pathParameters (writtenPath segments) .empty = segments.filterMap PathSegment.parameter? ↔
      ∀ segment ∈ segments, segment.HasFlatPattern := by
  constructor
  · intro same segment listed
    cases segment with
    | constrained name pattern named isPattern =>
      have isMeant : PathSegment.parameterOf name false (some pattern) ∈
          segments.filterMap PathSegment.parameter? := List.mem_filterMap.mpr ⟨_, listed, rfl⟩
      rw [← same] at isMeant
      have free := isBraceFree_of_mem_pathParameters isMeant rfl
      rwa [String.toList_ofList] at free
    | _ => trivial
  · intro flat
    rw [pathParameters_writtenPath, List.filterMap_eq_flatMap_toList]
    exact List.flatMap_congr fun segment listed => PathSegment.found_of_hasFlatPattern (flat segment listed)

/-- **A parameter whose pattern counts characters is lost.** The group inside its pattern is taken for a
parameter instead. -/
theorem parameter_with_braced_pattern_lost :
    ∃ segments : List PathSegment, writtenPath segments = "/y/\x7bcode:[A-Z]\x7b2\x7d\x7d" ∧
      segments.filterMap PathSegment.parameter? = [⟨"code", .string, false, some "[A-Z]\x7b2\x7d"⟩] ∧
      pathParameters "/y/\x7bcode:[A-Z]\x7b2\x7d\x7d" .empty = [⟨"2", .string, false, none⟩] := by
  let named : IsParameterName "code".toList := ⟨by decide, List.all_iff_forall_prop.mp (by decide)⟩
  let isPattern : IsParameterPattern "[A-Z]\x7b2\x7d".toList :=
    ⟨by decide, List.all_iff_forall_prop.mp (by decide), by decide, by decide⟩
  let segments : List PathSegment :=
    [.plain [] (by decide) (by decide), .plain ['y'] (by decide) (by decide), .constrained _ _ named isPattern]
  exact ⟨segments, by decide +kernel⟩

end ArtifactIndex
