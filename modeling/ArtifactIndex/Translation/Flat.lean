/-
**Files of flat translations.**

A locale can have a file that maps texts to texts, written as a JSON object. It is read in one of two
ways: strictly, as JSON, or by its look, as pairs of quoted texts with a colon between them.

* `FlatEntry.ofPairs`: the pairs in a text, by their look;
* `FlatEntry.ofObject?`: the members of an object that are texts; `none` when the text is no JSON;
* `keySpan?`: where a key stands in a text.
-/

import ArtifactIndex.Json.Reader
import ArtifactIndex.Text.Basic

namespace ArtifactIndex

/-- An entry of a file of flat translations. -/
structure FlatEntry where
  key : String
  value : String
  /-- The key with its quotes; `none` when it is not found in the text as it is read. -/
  span : Option Span
deriving Repr, DecidableEq

namespace FlatEntry

/-! ### By their look -/

/-- The characters up to the next quote, at least one, and what stands behind the quote. -/
def quotedRun? (chars : List Char) : Option (List Char × List Char) :=
  match chars.takeWhile (· != '"'), chars.dropWhile (· != '"') with
  | c :: run, _ :: rest => some (c :: run, rest)
  | _, _ => none

/-- The text behind a mark that may stand behind blanks. -/
def behindMark? (mark : Char) (chars : List Char) : Option (List Char) :=
  match chars.dropWhile isBlank with
  | c :: rest => if c = mark then some rest else none
  | [] => none

/-- The pair at the start of a text, and what stands behind it. -/
def pairAt? (chars : List Char) : Option (List Char × List Char × List Char) :=
  match chars with
  | '"' :: inner =>
    match quotedRun? inner with
    | none => none
    | some (key, rest) =>
      match (behindMark? ':' rest).bind (behindMark? '"') with
      | none => none
      | some rest => (quotedRun? rest).map fun found => (key, found.1, found.2)
  | _ => none

/-- The pairs in a text that starts at an offset. -/
def pairsFrom (offset : Nat) (chars : List Char) : List FlatEntry :=
  match chars with
  | [] => []
  | c :: rest =>
    match pairAt? (c :: rest) with
    | none => pairsFrom (offset + c.utf8Size) rest
    | some (key, value, behind) =>
      let taken := max 1 ((c :: rest).length - behind.length)
      { key := String.ofList key, value := String.ofList value
        span := some ⟨offset, offset + byteCount key + 2⟩ } ::
        pairsFrom (offset + byteCount ((c :: rest).take taken)) ((c :: rest).drop taken)
termination_by chars.length
decreasing_by
  · simp
  · simp only [List.length_drop, List.length_cons]
    omega

/-- The pairs in a text, in order. -/
def ofPairs (text : String) : List FlatEntry :=
  pairsFrom 0 text.toList

end FlatEntry

/-! ### As JSON -/

/-- The offset of the first place where a quoted key stands before a colon, in a text that starts at an
offset. -/
def keyOffset? (key : List Char) (offset : Nat) : List Char → Option Nat
  | [] => none
  | c :: rest =>
    let quoted := '"' :: key ++ ['"']
    if quoted.isPrefixOf (c :: rest) &&
        (FlatEntry.behindMark? ':' ((c :: rest).drop quoted.length)).isSome then some offset
    else keyOffset? key (offset + c.utf8Size) rest

/-- The first place where a quoted key stands before a colon. -/
def keySpan? (text key : String) : Option Span :=
  (keyOffset? key.toList 0 text.toList).map fun start => ⟨start, start + byteLength key + 2⟩

namespace FlatEntry

/-- The members of an object that are texts, in ascending order of their names. -/
def ofObject? (text : String) : Option (List FlatEntry) :=
  match Json.parse text with
  | .error _ => none
  | .ok (.object members) =>
    some (members.filterMap fun entry =>
      match entry.2 with
      | .string value => some { key := entry.1, value, span := keySpan? text entry.1 }
      | _ => none)
  | .ok _ => some []

/-- The entries of a file, read strictly or by their look. -/
def read? (strict : Bool) (text : String) : Option (List FlatEntry) :=
  if strict then ofObject? text else some (ofPairs text)

end FlatEntry

end ArtifactIndex
