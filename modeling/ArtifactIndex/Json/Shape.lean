/-
**Values of a wanted shape.**

A record is read from an object, whose members are found by name, or from an array, whose elements
come in the order of the fields. Members without a field are left aside.

* `Shape.read`: the values of a record's fields, or the first thing that is wrong with them;
* `ShapeError.message`: what is wrong in words.
-/

import ArtifactIndex.Json.Value
import ArtifactIndex.Text.Quoted

namespace ArtifactIndex

/-- The value in the words of an error message. -/
def Json.description : Json → String
  | .null => "null"
  | .bool value => "boolean `" ++ (if value then "true" else "false") ++ "`"
  | .int value => "integer `" ++ toString value ++ "`"
  | .decimal value => "floating point `" ++ value.render ++ "`"
  | .string value => "string " ++ Quoted.quote value
  | .array _ => "sequence"
  | .object _ => "map"

/-- What is wrong with a value. -/
inductive ShapeError where
  | missingField (name : String)
  | duplicateField (name : String)
  | wrongType (found : Json) (expected : String)
  | wrongValue (found : Json) (expected : String)
  | wrongLength (length : Nat) (expected : String)

/-- What is wrong in words. -/
def ShapeError.message : ShapeError → String
  | .missingField name => "missing field `" ++ name ++ "`"
  | .duplicateField name => "duplicate field `" ++ name ++ "`"
  | .wrongType found expected => "invalid type: " ++ found.description ++ ", expected " ++ expected
  | .wrongValue found expected => "invalid value: " ++ found.description ++ ", expected " ++ expected
  | .wrongLength length expected => "invalid length " ++ toString length ++ ", expected " ++ expected

/-- The types of fields. -/
inductive FieldType where
  | text
  | flag
  /-- A number that is not negative. -/
  | index
deriving Repr, DecidableEq

/-- The value is of the type. -/
def FieldType.check : FieldType → Json → Except ShapeError Unit
  | .text, .string _ => .ok ()
  | .text, found => .error (.wrongType found "a string")
  | .flag, .bool _ => .ok ()
  | .flag, found => .error (.wrongType found "a boolean")
  | .index, .int value => if value < 0 then .error (.wrongValue (.int value) "usize") else .ok ()
  | .index, found => .error (.wrongType found "usize")

/-- A field of a record. -/
structure Field where
  name : String
  /-- Further names for it. -/
  aliases : List String
  type : FieldType
  /-- The value of a field that is not given; without one the field has to be given. -/
  fallback : Option Json

/-- The name is one of the field's. -/
def Field.isNamed (field : Field) (name : String) : Bool :=
  field.name == name || field.aliases.contains name

/-- A record: its name in error messages, and its fields. -/
structure Shape where
  title : String
  fields : List Field

namespace Shape

/-- The shape in the words of an error message. -/
def description (shape : Shape) : String := "struct " ++ shape.title

/-- The shape as an array, in the words of an error message. -/
def arrayDescription (shape : Shape) : String :=
  let count := shape.fields.length
  shape.description ++ " with " ++ toString count ++ (if count == 1 then " element" else " elements")

/-- The values of fields among the elements of an array, from the field of the given position on. -/
def readElements (shape : Shape) (position : Nat) : List Field → List Json → Except ShapeError (List Json)
  | [], [] => .ok []
  | [], rest => .error (.wrongLength (position + rest.length) "fewer elements in array")
  | field :: fields, [] =>
    match field.fallback with
    | some value => (readElements shape (position + 1) fields []).map (value :: ·)
    | none => .error (.wrongLength position shape.arrayDescription)
  | field :: fields, value :: rest =>
    match field.type.check value with
    | .error error => .error error
    | .ok () => (readElements shape (position + 1) fields rest).map (value :: ·)

/-- Takes the members of an object one by one; the values found so far are listed by field. -/
def readMembers (shape : Shape) (found : List (String × Json)) :
    List (String × Json) → Except ShapeError (List (String × Json))
  | [] => .ok found
  | (name, value) :: rest =>
    match shape.fields.find? (·.isNamed name) with
    | none => readMembers shape found rest
    | some field =>
      if (found.lookup field.name).isSome then .error (.duplicateField field.name)
      else
        match field.type.check value with
        | .error error => .error error
        | .ok () => readMembers shape ((field.name, value) :: found) rest

/-- The values of the fields in their order. -/
def arrange (found : List (String × Json)) : List Field → Except ShapeError (List Json)
  | [] => .ok []
  | field :: fields =>
    match (found.lookup field.name).orElse fun _ => field.fallback with
    | some value => (arrange found fields).map (value :: ·)
    | none => .error (.missingField field.name)

/-- The values of a record's fields. -/
def read (shape : Shape) : Json → Except ShapeError (List Json)
  | .array elements => shape.readElements 0 shape.fields elements
  | .object members => do arrange (← shape.readMembers [] members) shape.fields
  | found => .error (.wrongType found shape.description)

end Shape

end ArtifactIndex
