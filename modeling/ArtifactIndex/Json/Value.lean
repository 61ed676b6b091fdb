/-
**JSON values and their written forms.**

Objects keep their members in ascending order of the names when they are built by `Json.record`;
`Json.listed` keeps a given order.

* `Json.compact`: no blanks at all;
* `Json.pretty`: one member or element to a line, two blanks to a level.
-/

import ArtifactIndex.Text.Dict
import ArtifactIndex.Text.Decimal

namespace ArtifactIndex

/-- A JSON value. -/
inductive Json where
  | null
  | bool (value : Bool)
  | int (value : Int)
  | decimal (value : Decimal)
  | string (value : String)
  | array (elements : List Json)
  | object (members : List (String × Json))
deriving Repr, Inhabited

namespace Json

/-- A natural number. -/
def nat (value : Nat) : Json := .int value

/-- An optional value, `null` when absent. -/
def ofOption {α : Type} (encode : α → Json) : Option α → Json
  | none => .null
  | some value => encode value

/-- A list of values. -/
def ofList {α : Type} (encode : α → Json) (values : List α) : Json :=
  .array (values.map encode)

/-- A list of texts. -/
def strings (values : List String) : Json := ofList .string values

/-- An optional text. -/
def optionalString (value : Option String) : Json := ofOption .string value

/-- An object with its members in ascending order of their names. -/
def record (members : List (String × Json)) : Json :=
  .object (Dict.ofList members).entries

/-- The member of an object. -/
def member? (value : Json) (name : String) : Option Json :=
  match value with
  | .object members => members.lookup name
  | _ => none

/-- The lower-case hexadecimal digits of a control character, four of them. -/
def controlDigits (code : Nat) : List Char :=
  ['0', '0', Nat.digitChar (code / 16), Nat.digitChar (code % 16)]

/-- A character inside quotes: quotes, backslashes and control characters are escaped. -/
def escapeChar (c : Char) : List Char :=
  if c = '"' then ['\\', '"']
  else if c = '\\' then ['\\', '\\']
  else if c.toNat = 8 then ['\\', 'b']
  else if c.toNat = 12 then ['\\', 'f']
  else if c = '\n' then ['\\', 'n']
  else if c = '\r' then ['\\', 'r']
  else if c = '\t' then ['\\', 't']
  else if c.toNat < 32 then ['\\', 'u'] ++ controlDigits c.toNat
  else [c]

/-- A text in quotes. -/
def quote (text : String) : String :=
  String.ofList ('"' :: text.toList.flatMap escapeChar ++ ['"'])

/-- The texts one after another. -/
def concat (texts : List String) : String :=
  texts.foldl (· ++ ·) ""

mutual

/-- The value without blanks. -/
def compact : Json → String
  | .null => "null"
  | .bool value => if value then "true" else "false"
  | .int value => toString value
  | .decimal value => value.render
  | .string value => quote value
  | .array elements => "[" ++ String.intercalate "," (compactAll elements) ++ "]"
  | .object members => "\x7b" ++ String.intercalate "," (compactMembers members) ++ "\x7d"

/-- The elements without blanks. -/
def compactAll : List Json → List String
  | [] => []
  | value :: rest => compact value :: compactAll rest

/-- The members without blanks. -/
def compactMembers : List (String × Json) → List String
  | [] => []
  | (name, value) :: rest => (quote name ++ ":" ++ compact value) :: compactMembers rest

end

/-- A line break and the blanks of a level. -/
def lineBreak (level : Nat) : String :=
  "\n" ++ String.ofList (List.replicate (2 * level) ' ')

mutual

/-- The value with its elements or members on lines of their own, at the given level. -/
def prettyAt (level : Nat) : Json → String
  | .array [] => "[]"
  | .array elements =>
    "[" ++ String.intercalate "," (prettyAll (level + 1) elements) ++ lineBreak level ++ "]"
  | .object [] => "\x7b\x7d"
  | .object members =>
    "\x7b" ++ String.intercalate "," (prettyMembers (level + 1) members) ++ lineBreak level ++ "\x7d"
  | .null => "null"
  | .bool value => if value then "true" else "false"
  | .int value => toString value
  | .decimal value => value.render
  | .string value => quote value

/-- The elements, each behind a line break. -/
def prettyAll (level : Nat) : List Json → List String
  | [] => []
  | value :: rest => (lineBreak level ++ prettyAt level value) :: prettyAll level rest

/-- The members, each behind a line break. -/
def prettyMembers (level : Nat) : List (String × Json) → List String
  | [] => []
  | (name, value) :: rest =>
    (lineBreak level ++ quote name ++ ": " ++ prettyAt level value) :: prettyMembers level rest

end

/-- The value with its elements and members on lines of their own. -/
def pretty (value : Json) : String := prettyAt 0 value

end Json

end ArtifactIndex
