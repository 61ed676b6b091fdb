/-
**Reading JSON text.**

A reader works on a `Cursor`: the characters that are left and the number of bytes taken so far. It
fails with a `Fault`, a cause and the byte index at which it is reported; `Fault.describe` turns the
index into a line and a column.

* `readValue`: one value;
* `Json.parse`: a whole text, with blanks around the value allowed and nothing else.
-/

import ArtifactIndex.Json.Value
import ArtifactIndex.Text.Basic

namespace ArtifactIndex

namespace Json

/-- Why a text is no JSON value, or not one of the wanted shape. -/
inductive Cause where
  | endInList
  | endInObject
  | endInString
  | endInValue
  | colonExpected
  | listCommaExpected
  | objectCommaExpected
  | identExpected
  | valueExpected
  | badEscape
  | badNumber
  | numberOutOfRange
  | controlCharacter
  | keyNotString
  | loneSurrogate
  | trailingComma
  | trailingCharacters
  | hexEscapeEnded
  | tooDeep
  | shape (message : String)
deriving Repr, DecidableEq

/-- The wording of a cause. -/
def Cause.message : Cause → String
  | .endInList => "EOF while parsing a list"
  | .endInObject => "EOF while parsing an object"
  | .endInString => "EOF while parsing a string"
  | .endInValue => "EOF while parsing a value"
  | .colonExpected => "expected `:`"
  | .listCommaExpected => "expected `,` or `]`"
  | .objectCommaExpected => "expected `,` or `\x7d`"
  | .identExpected => "expected ident"
  | .valueExpected => "expected value"
  | .badEscape => "invalid escape"
  | .badNumber => "invalid number"
  | .numberOutOfRange => "number out of range"
  | .controlCharacter => "control character (\\u0000-\\u001F) found while parsing a string"
  | .keyNotString => "key must be a string"
  | .loneSurrogate => "lone leading surrogate in hex escape"
  | .trailingComma => "trailing comma"
  | .trailingCharacters => "trailing characters"
  | .hexEscapeEnded => "unexpected end of hex escape"
  | .tooDeep => "recursion limit exceeded"
  | .shape message => message

/-- A cause and the byte index at which it is reported. -/
structure Fault where
  cause : Cause
  index : Nat
deriving Repr, DecidableEq

/-- The line, from one, and the column behind the first `index` bytes of a text. -/
def position (text : String) (index : Nat) : Nat × Nat :=
  let seen := text.toByteArray.toList.take index
  (1 + seen.count 10, (seen.reverse.takeWhile (· != 10)).length)

/-- The fault in words, with its line and column. -/
def Fault.describe (fault : Fault) (text : String) : String :=
  let (line, column) := position text fault.index
  fault.cause.message ++ " at line " ++ toString line ++ " column " ++ toString column

/-- A place in a text that is being read. -/
structure Cursor where
  /-- The characters that are left. -/
  rest : List Char
  /-- The bytes taken so far. -/
  index : Nat
deriving Repr, DecidableEq

/-- A reader's result: a value and the place behind it, or a fault. -/
abbrev Outcome (α : Type) := Except Fault (α × Cursor)

namespace Cursor

/-- The start of a text. -/
def ofText (text : String) : Cursor := ⟨text.toList, 0⟩

/-- The place behind the next character. -/
def next (cursor : Cursor) : Cursor :=
  match cursor.rest with
  | [] => cursor
  | c :: rest => ⟨rest, cursor.index + c.utf8Size⟩

/-- A fault at the place itself. -/
def fault (cursor : Cursor) (cause : Cause) : Fault := ⟨cause, cursor.index⟩

/-- A fault about the next byte. -/
def peekFault (cursor : Cursor) (cause : Cause) : Fault :=
  ⟨cause, if cursor.rest.isEmpty then cursor.index else cursor.index + 1⟩

/-- The blanks that may stand between tokens. -/
def isGap (c : Char) : Bool := c == ' ' || c == '\n' || c == '\t' || c == '\r'

/-- The place behind the blanks. -/
def skipGaps (cursor : Cursor) : Cursor :=
  let gaps := cursor.rest.takeWhile isGap
  ⟨cursor.rest.dropWhile isGap, cursor.index + gaps.length⟩

end Cursor

/-! ### Words and strings -/

/-- Takes the given characters one by one. -/
def expectWord : List Char → Cursor → Outcome Unit
  | [], cursor => .ok ((), cursor)
  | c :: word, cursor =>
    match cursor.rest with
    | [] => .error (cursor.fault .endInValue)
    | found :: _ =>
      if found = c then expectWord word cursor.next
      else .error (cursor.peekFault .identExpected)

/-- The value of a hexadecimal digit. -/
def hexDigit? (c : Char) : Option Nat :=
  if c.isDigit then some (c.toNat - '0'.toNat)
  else if 'a' ≤ c ∧ c ≤ 'f' then some (c.toNat - 'a'.toNat + 10)
  else if 'A' ≤ c ∧ c ≤ 'F' then some (c.toNat - 'A'.toNat + 10)
  else none

/-- The value of the four hexadecimal digits at a place. -/
def readHex (cursor : Cursor) : Outcome Nat :=
  let digits := cursor.rest.take 4
  if byteCount digits < 4 then .error ⟨.endInString, cursor.index + byteCount digits⟩
  else
    match digits.mapM hexDigit? with
    | some digits =>
      .ok (digits.foldl (fun value digit => value * 16 + digit) 0,
        ⟨cursor.rest.drop 4, cursor.index + 4⟩)
    | none => .error ⟨.badEscape, cursor.index + 4⟩

/-- The character behind a backslash and a `u`; a leading surrogate takes a second escape. -/
def readUnicode (cursor : Cursor) : Except Fault (Char × Cursor) := do
  let (code, cursor) ← readHex cursor
  if 0xDC00 ≤ code && code ≤ 0xDFFF then .error (cursor.fault .loneSurrogate)
  else if code < 0xD800 || 0xDBFF < code then .ok (Char.ofNat code, cursor)
  else
    match cursor.rest with
    | [] => .error (cursor.fault .endInString)
    | '\\' :: 'u' :: _ =>
      let (low, cursor) ← readHex cursor.next.next
      if 0xDC00 ≤ low && low ≤ 0xDFFF then
        .ok (Char.ofNat (0x10000 + (code - 0xD800) * 0x400 + (low - 0xDC00)), cursor)
      else .error (cursor.fault .loneSurrogate)
    | ['\\'] => .error ⟨.endInString, cursor.index + 1⟩
    | '\\' :: _ => .error ⟨.hexEscapeEnded, cursor.index + 2⟩
    | _ => .error ⟨.hexEscapeEnded, cursor.index + 1⟩

/-- The character that a single-letter escape stands for. -/
def plainEscape? (c : Char) : Option Char :=
  if c = '"' then some '"'
  else if c = '\\' then some '\\'
  else if c = '/' then some '/'
  else if c = 'b' then some (Char.ofNat 8)
  else if c = 'f' then some (Char.ofNat 12)
  else if c = 'n' then some '\n'
  else if c = 'r' then some '\r'
  else if c = 't' then some '\t'
  else none

/-- The rest of a string behind its opening quote; the accumulated characters are in reverse. One
unit of fuel is spent for each character or escape. -/
def readCharacters : Nat → List Char → Cursor → Outcome String
  | 0, _, cursor => .error (cursor.fault .endInString)
  | fuel + 1, read, cursor =>
    match cursor.rest with
    | [] => .error (cursor.fault .endInString)
    | c :: _ =>
      if c = '"' then .ok (String.ofList read.reverse, cursor.next)
      else if c = '\\' then
        match cursor.next.rest with
        | [] => .error (cursor.next.fault .endInString)
        | mark :: _ =>
          let inside := cursor.next.next
          if mark = 'u' then
            match readUnicode inside with
            | .ok (found, behind) => readCharacters fuel (found :: read) behind
            | .error fault => .error fault
          else
            match plainEscape? mark with
            | some found => readCharacters fuel (found :: read) inside
            | none => .error (cursor.next.peekFault .badEscape)
      else if c.toNat < 32 then .error (cursor.next.fault .controlCharacter)
      else readCharacters fuel (c :: read) cursor.next

/-- A string, from its opening quote on. -/
def readString (cursor : Cursor) : Outcome String :=
  readCharacters (cursor.rest.length + 1) [] cursor.next

/-! ### Numbers -/

/-- The largest integer that is kept exactly. -/
def largest : Nat := 0xFFFFFFFFFFFFFFFF

/-- The digits at a place, and the place behind them. -/
def takeDigits (cursor : Cursor) : List Nat × Cursor :=
  let digits := cursor.rest.takeWhile Char.isDigit
  (digits.map fun c => c.toNat - '0'.toNat,
    ⟨cursor.rest.dropWhile Char.isDigit, cursor.index + digits.length⟩)

/-- Appends digits to a number as long as it stays within the largest; also the count of the digits
that were left out. -/
def appendDigits : Nat → List Nat → Nat × Nat
  | value, [] => (value, 0)
  | value, digit :: rest =>
    if value * 10 + digit ≤ largest then appendDigits (value * 10 + digit) rest
    else (value, rest.length + 1)

/-- Divides by powers of ten in steps that a double can hold. -/
def shrink : Nat → Float → Nat → Float
  | 0, value, _ => value
  | fuel + 1, value, power =>
    if power ≤ 308 then value / Float.ofScientific 1 false power
    else shrink fuel (value / Float.ofScientific 1 false 308) (power - 308)

/-- The double nearest to a number with a power of ten, when it is finite. -/
def scaled? (significand : Nat) (exponent : Int) : Option Float :=
  let value := Float.ofNat significand
  if significand == 0 then some value
  else if exponent < 0 then
    let power := (-exponent).toNat
    some (if power > 100000 then 0 else shrink (power / 308 + 1) value power)
  else if exponent > 308 then none
  else
    let product := value * Float.ofScientific 1 false exponent.toNat
    if product.isInf then none else some product

/-- The decimal of a number with a power of ten. -/
def decimalAt (negative : Bool) (significand : Nat) (exponent : Int) (cursor : Cursor) :
    Outcome Json :=
  match scaled? significand exponent with
  | some value => .ok (.decimal { Decimal.ofFloat value with negative }, cursor)
  | none => .error (cursor.fault .numberOutOfRange)

/-- The exponent behind its letter. -/
def readExponent (negative : Bool) (significand : Nat) (exponent : Int) (cursor : Cursor) :
    Outcome Json :=
  let (down, cursor) :=
    match cursor.rest with
    | '+' :: _ => (false, cursor.next)
    | '-' :: _ => (true, cursor.next)
    | _ => (false, cursor)
  match cursor.rest with
  | [] => .error (cursor.fault .endInValue)
  | c :: _ =>
    if c.isDigit then
      let (digits, cursor) := takeDigits cursor
      let amount : Int := (digits.foldl (fun value digit => value * 10 + digit) 0 : Nat)
      decimalAt negative significand (if down then exponent - amount else exponent + amount) cursor
    else .error (cursor.peekFault .badNumber)

/-- What follows the digits of a number: nothing, or an exponent. -/
def readScale (negative : Bool) (significand : Nat) (exponent : Int) (cursor : Cursor) :
    Outcome Json :=
  match cursor.rest with
  | 'e' :: _ => readExponent negative significand exponent cursor.next
  | 'E' :: _ => readExponent negative significand exponent cursor.next
  | _ => decimalAt negative significand exponent cursor

/-- The fraction behind its point. -/
def readFraction (negative : Bool) (significand : Nat) (exponent : Int) (cursor : Cursor) :
    Outcome Json :=
  let (digits, behind) := takeDigits cursor
  if digits.isEmpty then
    .error (behind.peekFault (if behind.rest.isEmpty then .endInValue else .badNumber))
  else
    let (value, left) := appendDigits significand digits
    readScale negative value (exponent - (digits.length - left : Nat)) behind

/-- What follows the integer part of a number, from which the given count of digits was left
out. -/
def readNumberTail (negative : Bool) (significand left : Nat) (cursor : Cursor) : Outcome Json :=
  match cursor.rest with
  | '.' :: _ => readFraction negative significand left cursor.next
  | 'e' :: _ => readExponent negative significand left cursor.next
  | 'E' :: _ => readExponent negative significand left cursor.next
  | _ =>
    if left > 0 then decimalAt negative significand left cursor
    else if negative then
      if significand == 0 || significand > 0x8000000000000000 then decimalAt true significand 0 cursor
      else .ok (.int (-(significand : Int)), cursor)
    else .ok (.int significand, cursor)

/-- A number without its sign. -/
def readNumber (negative : Bool) (cursor : Cursor) : Outcome Json :=
  match cursor.rest with
  | [] => .error (cursor.fault .endInValue)
  | c :: rest =>
    if c = '0' then
      match rest with
      | following :: _ =>
        if following.isDigit then .error (cursor.next.peekFault .badNumber)
        else readNumberTail negative 0 0 cursor.next
      | [] => readNumberTail negative 0 0 cursor.next
    else if c.isDigit then
      let (digits, behind) := takeDigits cursor
      let (value, left) := appendDigits 0 digits
      readNumberTail negative value left behind
    else .error (cursor.peekFault .badNumber)

/-! ### Values -/

/-- Arrays and objects may be nested less deep than this. -/
def depthLimit : Nat := 128

/-- A value that is neither array nor object. -/
def readScalar (cursor : Cursor) : Outcome Json :=
  match cursor.rest with
  | [] => .error (cursor.peekFault .endInValue)
  | c :: _ =>
    if c = 'n' then (expectWord ['u', 'l', 'l'] cursor.next).map fun found => (.null, found.2)
    else if c = 't' then
      (expectWord ['r', 'u', 'e'] cursor.next).map fun found => (.bool true, found.2)
    else if c = 'f' then
      (expectWord ['a', 'l', 's', 'e'] cursor.next).map fun found => (.bool false, found.2)
    else if c = '-' then readNumber true cursor.next
    else if c.isDigit then readNumber false cursor
    else if c = '"' then (readString cursor).map fun found => (.string found.1, found.2)
    else .error (cursor.peekFault .valueExpected)

/-- Looks for an element behind the ones already read: the place of its first character, or `none`
before the closing bracket. -/
def nextElement (first : Bool) (cursor : Cursor) : Outcome Bool :=
  let cursor := cursor.skipGaps
  match cursor.rest with
  | [] => .error (cursor.peekFault .endInList)
  | c :: _ =>
    if c = ']' then .ok (false, cursor)
    else if first then .ok (true, cursor)
    else if c = ',' then
      let cursor := cursor.next.skipGaps
      match cursor.rest with
      | [] => .error (cursor.peekFault .endInValue)
      | following :: _ =>
        if following = ']' then .error (cursor.peekFault .trailingComma) else .ok (true, cursor)
    else .error (cursor.peekFault .listCommaExpected)

/-- Looks for a member's name behind the members already read. -/
def nextMember (first : Bool) (cursor : Cursor) : Outcome Bool :=
  let cursor := cursor.skipGaps
  match cursor.rest with
  | [] => .error (cursor.peekFault .endInObject)
  | c :: _ =>
    if c = '}' then .ok (false, cursor)
    else if first then
      if c = '"' then .ok (true, cursor) else .error (cursor.peekFault .keyNotString)
    else if c = ',' then
      let cursor := cursor.next.skipGaps
      match cursor.rest with
      | [] => .error (cursor.peekFault .endInValue)
      | following :: _ =>
        if following = '"' then .ok (true, cursor)
        else if following = '}' then .error (cursor.peekFault .trailingComma)
        else .error (cursor.peekFault .keyNotString)
    else .error (cursor.peekFault .objectCommaExpected)

/-- The colon between a member's name and its value. -/
def readColon (cursor : Cursor) : Outcome Unit :=
  let cursor := cursor.skipGaps
  match cursor.rest with
  | [] => .error (cursor.peekFault .endInObject)
  | c :: _ => if c = ':' then .ok ((), cursor.next) else .error (cursor.peekFault .colonExpected)

mutual

/-- One value with the blanks before it. The fuel bounds the steps, the depth the nesting that is
still allowed. -/
def readValue : Nat → Nat → Cursor → Outcome Json
  | 0, _, cursor => .error (cursor.fault .endInValue)
  | fuel + 1, depth, cursor =>
    let cursor := cursor.skipGaps
    match cursor.rest with
    | [] => .error (cursor.peekFault .endInValue)
    | c :: _ =>
      if c = '[' then
        if depth ≤ 1 then .error (cursor.peekFault .tooDeep)
        else
          match readElements fuel (depth - 1) true cursor.next with
          | .ok (elements, behind) => .ok (.array elements, behind.next)
          | .error fault => .error fault
      else if c = '{' then
        if depth ≤ 1 then .error (cursor.peekFault .tooDeep)
        else
          match readMembers fuel (depth - 1) true cursor.next with
          | .ok (members, behind) => .ok (.object (Dict.ofList members).entries, behind.next)
          | .error fault => .error fault
      else readScalar cursor

/-- The elements of an array up to its closing bracket. -/
def readElements : Nat → Nat → Bool → Cursor → Outcome (List Json)
  | 0, _, _, cursor => .error (cursor.fault .endInList)
  | fuel + 1, depth, first, cursor =>
    match nextElement first cursor with
    | .error fault => .error fault
    | .ok (false, cursor) => .ok ([], cursor)
    | .ok (true, cursor) =>
      match readValue fuel depth cursor with
      | .error fault => .error fault
      | .ok (value, cursor) =>
        match readElements fuel depth false cursor with
        | .error fault => .error fault
        | .ok (rest, cursor) => .ok (value :: rest, cursor)

/-- The members of an object up to its closing brace, in the order in which they are written. -/
def readMembers : Nat → Nat → Bool → Cursor → Outcome (List (String × Json))
  | 0, _, _, cursor => .error (cursor.fault .endInObject)
  | fuel + 1, depth, first, cursor =>
    match nextMember first cursor with
    | .error fault => .error fault
    | .ok (false, cursor) => .ok ([], cursor)
    | .ok (true, cursor) =>
      match readString cursor with
      | .error fault => .error fault
      | .ok (name, cursor) =>
        match readColon cursor with
        | .error fault => .error fault
        | .ok (_, cursor) =>
          match readValue fuel depth cursor with
          | .error fault => .error fault
          | .ok (value, cursor) =>
            match readMembers fuel depth false cursor with
            | .error fault => .error fault
            | .ok (rest, cursor) => .ok ((name, value) :: rest, cursor)

end

/-- Steps enough for any text at the place. -/
def fuelFor (cursor : Cursor) : Nat := 2 * cursor.rest.length + 2

/-- The end of a text, blanks aside. -/
def readEnd (cursor : Cursor) : Except Fault Unit :=
  let cursor := cursor.skipGaps
  if cursor.rest.isEmpty then .ok () else .error (cursor.peekFault .trailingCharacters)

/-- Reads a text as one value. -/
def parse (text : String) : Except Fault Json :=
  let cursor := Cursor.ofText text
  match readValue (fuelFor cursor) depthLimit cursor with
  | .error fault => .error fault
  | .ok (value, cursor) =>
    match readEnd cursor with
    | .error fault => .error fault
    | .ok () => .ok value

end Json

end ArtifactIndex
