/-
**Text by characters and by bytes.**

File contents, keys and paths are strings. Positions inside a file are *byte* offsets into its
UTF-8 form, so this module has both views: cutting and trimming by characters, and slices by
byte offsets.

* `slice?`: the text between two byte offsets, when both are character boundaries;
* `segments`, `joinWith`: cutting at a separator character and putting the pieces together;
* `trimmed`, `trimmedOf`: dropping blank characters, or one given character, from the ends.
-/

import ArtifactIndex.Text.Blank

namespace ArtifactIndex

/-! ### Bytes -/

/-- The length of a text in bytes of its UTF-8 form. -/
abbrev byteLength (text : String) : Nat := text.utf8ByteSize

/-- The bytes a list of characters takes in UTF-8. -/
def byteCount : List Char → Nat
  | [] => 0
  | c :: rest => c.utf8Size + byteCount rest

@[simp]
theorem byteCount_append (left right : List Char) :
    byteCount (left ++ right) = byteCount left + byteCount right := by
  induction left with
  | nil => simp [byteCount]
  | cons c rest ih => simp [byteCount, ih, Nat.add_assoc]

/-- A half-open range of byte offsets. -/
structure Span where
  /-- The offset of the first byte. -/
  start : Nat
  /-- The offset just behind the last byte. -/
  stop : Nat
deriving Repr, DecidableEq, Inhabited

/-- The offset lies in the range. -/
def Span.covers (span : Span) (offset : Nat) : Bool :=
  span.start ≤ offset && offset < span.stop

/-- The text between two byte offsets; `none` when the range leaves the text or cuts through a
character. -/
def slice? (text : String) (start stop : Nat) : Option String :=
  if start ≤ stop ∧ stop ≤ text.toByteArray.size then
    String.fromUTF8? (text.toByteArray.extract start stop)
  else
    none

/-- The text of a range, empty when the range is no slice of the text. -/
def textOf (text : String) (span : Span) : String :=
  (slice? text span.start span.stop).getD ""

/-- The first `count` bytes' worth of characters; `none` when the count falls inside a character
or behind the end. -/
def takeBytes? : Nat → List Char → Option (List Char)
  | 0, _ => some []
  | _ + 1, [] => none
  | count + 1, c :: rest =>
    if c.utf8Size ≤ count + 1 then (takeBytes? (count + 1 - c.utf8Size) rest).map (c :: ·) else none
termination_by _ chars => chars.length

/-! ### Trimming -/

/-- The list without the longest end whose members all satisfy the test. -/
def dropEndWhile (test : Char → Bool) (chars : List Char) : List Char :=
  (chars.reverse.dropWhile test).reverse

/-- The text without blank characters at either end. -/
def trimmed (text : String) : String :=
  String.ofList (dropEndWhile isBlank (text.toList.dropWhile isBlank))

/-- The text without the given character at its start. -/
def trimmedStartOf (mark : Char) (text : String) : String :=
  String.ofList (text.toList.dropWhile (· == mark))

/-- The text without the given character at its end. -/
def trimmedEndOf (mark : Char) (text : String) : String :=
  String.ofList (dropEndWhile (· == mark) text.toList)

/-- The text without the given character at either end. -/
def trimmedOf (mark : Char) (text : String) : String :=
  trimmedEndOf mark (trimmedStartOf mark text)

/-- The text has only blank characters. -/
def allBlank (text : String) : Bool :=
  text.toList.all isBlank

/-! ### Cutting and joining -/

/-- The text behind a given beginning. -/
def afterStart? (beginning text : String) : Option String :=
  (beginning.toList.isPrefixOf? text.toList).map String.ofList

/-- The text before a given ending. -/
def beforeEnd? (ending text : String) : Option String :=
  (ending.toList.isSuffixOf? text.toList).map String.ofList

/-- The text begins so. -/
def startsWith (beginning text : String) : Bool :=
  beginning.toList.isPrefixOf text.toList

/-- The text ends so. -/
def endsWith (ending text : String) : Bool :=
  ending.toList.isSuffixOf text.toList

/-- The pieces between the separators, empty ones included. -/
def segments (separator : Char) (text : String) : List String :=
  (text.toList.splitOn separator).map String.ofList

/-- The pieces between the separators that are not empty. -/
def nonemptySegments (separator : Char) (text : String) : List String :=
  (segments separator text).filter (!·.isEmpty)

/-- The texts with a separator between each two. -/
def joinWith (separator : String) (pieces : List String) : String :=
  String.ofList (List.intercalate separator.toList (pieces.map String.toList))

/-- The part before the first separator and the part behind it. -/
def splitFirst? (separator : Char) (text : String) : Option (String × String) :=
  let chars := text.toList
  match chars.dropWhile (· != separator) with
  | [] => none
  | _ :: rest => some (String.ofList (chars.takeWhile (· != separator)), String.ofList rest)

/-- The part before the last separator and the part behind it. -/
def splitLast? (separator : Char) (text : String) : Option (String × String) :=
  let chars := text.toList.reverse
  match chars.dropWhile (· != separator) with
  | [] => none
  | _ :: rest =>
    some (String.ofList rest.reverse, String.ofList (chars.takeWhile (· != separator)).reverse)

/-- The text with one character in place of another. -/
def exchange (old new : Char) (text : String) : String :=
  String.ofList (text.toList.map fun c => if c == old then new else c)

/-- Lower case for the ASCII letters, all else unchanged. -/
def lowered (text : String) : String :=
  String.ofList (text.toList.map Char.toLower)

/-- Upper case for the ASCII letters, all else unchanged. -/
def raised (text : String) : String :=
  String.ofList (text.toList.map Char.toUpper)

/-- The text has the character. -/
def hasChar (mark : Char) (text : String) : Bool :=
  text.toList.contains mark

/-- The needle is a contiguous part of the list. -/
def isPartOf (needle : List Char) : List Char → Bool
  | [] => needle.isEmpty
  | c :: rest => needle.isPrefixOf (c :: rest) || isPartOf needle rest

/-- The needle occurs somewhere in the text. -/
def occursIn (needle text : String) : Bool :=
  isPartOf needle.toList text.toList

/-- The candidates that are not empty, each once, in order of first appearance. -/
def distinctNonempty (candidates : List String) : List String :=
  (candidates.filter (!·.isEmpty)).eraseDups

end ArtifactIndex
