/-
**Text patterns for references to routes.**

Markup and client scripts are not read as programs; references in them are found by patterns of
text. A `Pattern` is a row of parts, exactly one of which is the key of the route. Patterns are tried
at each place of a text from left to right, and the search goes on behind a match.

* `matchParts?`: whether the parts match at the start of a text;
* `findAll`: the keys that a table of patterns finds, in order of the table.
-/

import ArtifactIndex.Path
import ArtifactIndex.Reference.Rules
import ArtifactIndex.Text.Word

namespace ArtifactIndex

namespace Pattern

/-- A part of a pattern. -/
inductive Part where
  /-- Exactly these characters. -/
  | exact (text : List Char)
  /-- Any number of blanks. -/
  | blanks
  /-- At least one blank. -/
  | someBlanks
  /-- One of these characters. -/
  | oneOf (choices : List Char)
  /-- The key: the characters up to the next quote, at least one. -/
  | key
  /-- As few characters as the rest of the pattern allows, none of them among these. -/
  | gap (excluded : List Char)
deriving Repr, DecidableEq

/-- What a match takes: its number of characters, and those before the key and of the key. -/
structure Extent where
  length : Nat
  keyStart : Nat
  keyLength : Nat
deriving Repr, DecidableEq

/-- The same behind a number of further characters. -/
def Extent.shift (extent : Extent) (count : Nat) : Extent :=
  { extent with length := extent.length + count, keyStart := extent.keyStart + count }

/-- The first attempt that succeeds, at the start of the text or behind ever more of it, as long as no
excluded character is passed. -/
def attemptTails (attempt : List Char → Option Extent) (excluded : List Char) :
    List Char → Option Extent
  | [] => attempt []
  | c :: rest =>
    match attempt (c :: rest) with
    | some extent => some extent
    | none =>
      if excluded.contains c then none
      else (attemptTails attempt excluded rest).map (·.shift 1)

/-- A single or a double quote. -/
def quotes : List Char := ['\'', '"']

/-- Matches the parts at the start of a text. A part that takes a run of characters takes all of
them, since what follows such a part never starts with one of them. -/
def matchParts? : List Part → List Char → Option Extent
  | [], _ => some ⟨0, 0, 0⟩
  | .exact text :: parts, chars =>
    if text.isPrefixOf chars then
      (matchParts? parts (chars.drop text.length)).map (·.shift text.length)
    else none
  | .blanks :: parts, chars =>
    let count := (chars.takeWhile isBlank).length
    (matchParts? parts (chars.drop count)).map (·.shift count)
  | .someBlanks :: parts, chars =>
    let count := (chars.takeWhile isBlank).length
    if count = 0 then none else (matchParts? parts (chars.drop count)).map (·.shift count)
  | .oneOf choices :: parts, chars =>
    match chars with
    | [] => none
    | c :: rest => if choices.contains c then (matchParts? parts rest).map (·.shift 1) else none
  | .key :: parts, chars =>
    let count := (chars.takeWhile (!quotes.contains ·)).length
    if count = 0 then none
    else
      (matchParts? parts (chars.drop count)).map fun extent =>
        { length := extent.length + count, keyStart := 0, keyLength := count }
  | .gap excluded :: parts, chars => attemptTails (matchParts? parts) excluded chars

end Pattern

/-- A pattern of text that refers to a route. -/
structure Pattern where
  parts : List Pattern.Part
  helper : RouteHelper
  /-- The pattern matches only where a word starts. -/
  atWordStart : Bool := false
deriving Repr, DecidableEq

/-- A key found in a text. -/
structure PatternMatch where
  key : String
  /-- The bytes of the key. -/
  span : Span
  helper : RouteHelper
deriving Repr, DecidableEq

namespace Pattern

/-- The match at the start of a text, behind the given character. -/
def matchAt? (pattern : Pattern) (previous : Option Char) (chars : List Char) : Option Extent :=
  if pattern.atWordStart && previous.any isWordChar then none else matchParts? pattern.parts chars

/-- The matches of a pattern in a text that starts at an offset, behind the given character. -/
def findFrom (pattern : Pattern) (previous : Option Char) (offset : Nat) (chars : List Char) :
    List PatternMatch :=
  match chars with
  | [] => []
  | c :: rest =>
    match pattern.matchAt? previous (c :: rest) with
    | none => pattern.findFrom (some c) (offset + c.utf8Size) rest
    | some extent =>
      let key := ((c :: rest).drop extent.keyStart).take extent.keyLength
      let start := offset + byteCount ((c :: rest).take extent.keyStart)
      let taken := (c :: rest).take (max 1 extent.length)
      { key := String.ofList key, span := ⟨start, start + byteCount key⟩, helper := pattern.helper } ::
        pattern.findFrom taken.getLast? (offset + byteCount taken)
          ((c :: rest).drop (max 1 extent.length))
termination_by chars.length
decreasing_by
  · simp
  · simp only [List.length_drop, List.length_cons]
    omega

/-- The matches of a pattern in a text, from left to right. -/
def find (pattern : Pattern) (text : String) : List PatternMatch :=
  pattern.findFrom none 0 text.toList

/-- The matches of all patterns of a table, pattern by pattern. -/
def findAll (table : List Pattern) (text : String) : List PatternMatch :=
  table.flatMap (·.find text)

/-! ### Tables -/

/-- A part that is exactly this text. -/
def word (text : String) : Part := .exact text.toList

/-- A key in quotes. -/
def quotedKey : List Part := [.oneOf quotes, .key, .oneOf quotes]

/-- A helper's call with a key in quotes, up to what follows the key. -/
def helperCall (name : String) (endings : List Char) : List Part :=
  word (name ++ "(") :: quotedKey ++ [.blanks, .oneOf endings]

/-- A call of a helper at the start of an echo. -/
def echoCall (name : String) : List Part :=
  [word "\x7b\x7b", .blanks] ++ helperCall name ['}', ',', ')']

/-- An attribute whose value starts with an echo of a route. -/
def attributeCall (name : String) : List Part :=
  [word name, .blanks, word "=", .blanks, .oneOf quotes] ++ echoCall "route"

/-- A key under `name:`, at the end of an object. -/
def namedKey : List Part := [word "name:", .blanks] ++ quotedKey ++ [.blanks, word "\x7d"]

/-- An object given to a call, whose only member is the name of a route. -/
def namedTarget : List Part := [.blanks, word "\x7b", .blanks] ++ namedKey

/-- A key given to a call, up to a comma or the closing parenthesis. -/
def visitedKey : List Part := .blanks :: quotedKey ++ [.blanks, .oneOf [')', ',']]

/-- The creation of a router in a component. -/
def routerCreation : List Part :=
  [word "const", .someBlanks, word "router", .blanks, word "=", .blanks, word "useRouter()"]

/-- A router created in a component, and later a call on it. -/
def createdRouterPush : Pattern :=
  ⟨routerCreation ++ [.gap [], word "router.push("] ++ namedTarget, .name, false⟩

/-- A call on a component's own router. -/
def ownRouterPush : Pattern := ⟨word "this.$router.push(" :: namedTarget, .name, false⟩

/-- A route helper in a script. -/
def scriptRoute : Pattern := ⟨helperCall "route" [')', ','], .name, false⟩

/-- A visit by a component's own client. -/
def ownVisit : Pattern := ⟨word "this.$inertia.visit(" :: visitedKey, .name, false⟩

/-- The function `visit` taken out of an object, and later called. -/
def takenVisit (source : Part) : Pattern :=
  ⟨[word "const", .blanks, word "\x7b", .blanks, word "visit", .blanks, word "\x7d", .blanks, word "=",
    .blanks, source, .gap [], word "visit("] ++ visitedKey, .name, false⟩

/-- The first quoted key of a section of a component. -/
def sectionKey (name : String) : Pattern :=
  ⟨[word (name ++ ":"), .blanks, word "\x7b", .gap ['}']] ++ quotedKey ++ [.blanks, .oneOf [')', ',']],
    .name, false⟩

/-- References in the markup of templates. -/
def templateTable : List Pattern :=
  [⟨echoCall "route", .name, false⟩, ⟨helperCall "@route" [')', ','], .name, false⟩,
    ⟨echoCall "url", .url, false⟩, ⟨echoCall "action", .action, false⟩,
    ⟨attributeCall "href", .name, false⟩, ⟨attributeCall "action", .name, false⟩,
    ⟨attributeCall "wire:navigate.href", .name, false⟩]

/-- References in scripts. -/
def scriptTable : List Pattern :=
  [scriptRoute, ownRouterPush, createdRouterPush, ⟨word "useRouter().push(" :: namedTarget, .name, false⟩,
    ownVisit, ⟨word "Inertia.visit(" :: visitedKey, .name, false⟩,
    ⟨word "router.visit(" :: visitedKey, .name, false⟩, takenVisit (word "router")]

/-- References in components. -/
def componentTable : List Pattern :=
  [⟨[word ":to=\"\x7b", .blanks] ++ namedKey, .name, false⟩,
    ⟨[word "to=\"\x7b", .blanks] ++ namedKey, .name, true⟩, createdRouterPush, ownRouterPush,
    scriptRoute,
    ⟨[word "<Link", .someBlanks, word ":href=\""] ++ helperCall "route" [')', ','], .name, false⟩,
    ⟨[word "<Link", .someBlanks, word "href=\"", .key, word "\""], .url, false⟩,
    takenVisit (word "useForm("), ownVisit, sectionKey "methods", sectionKey "computed",
    ⟨routerCreation ++ [.gap []] ++ namedKey, .name, false⟩]

/-- The table for a client file. -/
def tableFor (file : String) : List Pattern :=
  if endsWith ".vue" (Path.fileName file) then componentTable else scriptTable

end Pattern

end ArtifactIndex
