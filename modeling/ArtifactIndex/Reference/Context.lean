/-
**Literals and their surroundings.**

Whether a literal refers to an artifact depends on where it stands: in which file, as which argument
of which call, and, inside a template, in which directive or attribute. `LiteralContext` holds these
facts, and `LiteralContext.owner?` finds the call that the literal is given to, looking through
arrays.
-/

import ArtifactIndex.Code.Query
import ArtifactIndex.Path

namespace ArtifactIndex

/-- The function that stands for a directive in the code made from a template. -/
def directiveFunction : String := "__blade_directive"

/-- A literal with a value, and where it stands. -/
structure LiteralContext where
  /-- The literal in its tree. -/
  place : Place
  /-- The literal's value. -/
  value : String
  /-- The file that holds it. -/
  file : String
  /-- The directive of the template fragment it was read from. -/
  directive : Option String
  /-- The markup attribute around that fragment. -/
  markupAttribute : Option String

/-- The call that a literal is given to. -/
structure Owner where
  call : Node
  callee : Callee
  /-- The position of the argument that holds the literal. -/
  index : Nat
  /-- The literal stands inside an array given as that argument. -/
  nested : Bool

/-- The literal is itself the first argument. -/
def Owner.isDirectFirst (owner : Owner) : Bool :=
  owner.index == 0 && !owner.nested

/-- The call that a node is given to, directly or inside arrays. -/
def Place.owner? (place : Place) : Option Owner :=
  let (outer, nested) := place.outermostArray
  match outer.enclosingCall? with
  | none => none
  | some (call, index) =>
    match call.node.callee? with
    | none => none
    | some callee => some { call := call.node, callee, index, nested }

namespace LiteralContext

/-- The context of a literal in a file; a literal with embedded code has none. -/
def of? (place : Place) (file : String) (directive markupAttribute : Option String) :
    Option LiteralContext :=
  place.node.literal?.map fun value => { place, value, file, directive, markupAttribute }

/-- The file is a template. -/
def isTemplate (context : LiteralContext) : Bool := endsWith templateEnding context.file

/-- The value has nothing but blanks. -/
def isBlank (context : LiteralContext) : Bool := allBlank context.value

/-- The call that the literal is given to. -/
def owner? (context : LiteralContext) : Option Owner := context.place.owner?

/-- The directive whose argument the literal is. -/
def directiveArgument? (context : LiteralContext) : Option String :=
  match context.owner? with
  | some { callee := .function name, .. } =>
    if name == directiveFunction then context.directive else none
  | _ => none

end LiteralContext

end ArtifactIndex
