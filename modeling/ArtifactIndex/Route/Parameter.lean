/-
**Parameters of paths and domains.**

A parameter is written in braces: `{name}`, `{name?}` or `{name:pattern}`. `braceBodies` finds the
groups of braces, `Placeholder.ofBody?` reads one, and `pathParameters` and `domainParameters`
give the parameters of a route path and of a domain.
-/

import ArtifactIndex.Text.Basic
import ArtifactIndex.Text.Dict

namespace ArtifactIndex

/-- What a parameter's pattern and name tell about its values. -/
inductive ParameterType where
  | integer
  | uuid
  | hex
  | alpha
  | slug
  | date
  | datetime
  | email
  | phone
  | url
  | string
deriving Repr, DecidableEq

/-- The type's written form. -/
def ParameterType.text : ParameterType → String
  | .integer => "integer"
  | .uuid => "uuid"
  | .hex => "hex"
  | .alpha => "alpha"
  | .slug => "slug"
  | .date => "date"
  | .datetime => "datetime"
  | .email => "email"
  | .phone => "phone"
  | .url => "url"
  | .string => "string"

/-- A parameter of a route path. -/
structure PathParameter where
  name : String
  inferredType : ParameterType
  optional : Bool
  constraint : Option String
deriving Repr, DecidableEq

/-- A parameter of a domain. -/
structure DomainParameter where
  name : String
  optional : Bool
  pattern : Option String
  fallback : Option String
deriving Repr, DecidableEq

/-- The content of one group of braces. -/
structure Placeholder where
  name : String
  optional : Bool
  pattern : Option String
  fallback : Option String
deriving Repr, DecidableEq

/-- The nonempty texts between a `{` and the next brace, where that is a `}`. The first argument is
what has been read, last character first, since the last `{`. -/
def braceBodiesFrom : Option (List Char) → List Char → List (List Char)
  | _, [] => []
  | pending, c :: rest =>
    if c = '{' then braceBodiesFrom (some []) rest
    else
      match pending with
      | none => braceBodiesFrom none rest
      | some body =>
        if c = '}' then
          if body.isEmpty then braceBodiesFrom none rest
          else body.reverse :: braceBodiesFrom none rest
        else braceBodiesFrom (some (c :: body)) rest

/-- The groups of braces of a text, in order, without the braces. -/
def braceBodies (text : String) : List (List Char) :=
  braceBodiesFrom none text.toList

namespace Placeholder

/-- A body and whether it is optional: a `?` at the end that is not the whole body marks it so. -/
def splitMark (body : List Char) : List Char × Bool :=
  match body.reverse with
  | '?' :: c :: rest => ((c :: rest).reverse, true)
  | _ => (body, false)

/-- Reads a body as a name, a pattern and a fallback between colons; a blank name is refused. -/
def ofBody? (body : List Char) : Option Placeholder :=
  let (content, optional) := splitMark body
  let parts := segments ':' (String.ofList content)
  let name := trimmed (parts.headD "")
  if name.isEmpty then none
  else some { name, optional, pattern := parts[1]?, fallback := parts[2]? }

/-- The placeholders of a text, in order. -/
def ofText (text : String) : List Placeholder :=
  (braceBodies text).filterMap ofBody?

end Placeholder

/-- The type that a pattern gives away, if it is one of the known ones. -/
def typeOfPattern? (pattern : String) : Option ParameterType :=
  if occursIn "\\d+" pattern || occursIn "[0-9]+" pattern then some .integer
  else if occursIn "\\w+" pattern then some .string
  else if occursIn "[0-9a-fA-F]" pattern then some .hex
  else if occursIn "^[A-Z]\x7b2\x7d$" pattern then some .alpha
  else if occursIn "uuid" pattern then some .uuid
  else none

/-- The type that a parameter's name suggests. -/
def typeOfName (name : String) : ParameterType :=
  if endsWith "_id" name || endsWith "Id" name || name == "id" then .integer
  else if name == "uuid" then .uuid
  else if name == "slug" then .slug
  else if occursIn "date" name then .date
  else if occursIn "time" name then .datetime
  else if occursIn "email" name then .email
  else if occursIn "phone" name then .phone
  else if occursIn "url" name then .url
  else .string

/-- The pattern decides the type when it is a known one, else the name does. -/
def inferType (pattern : Option String) (name : String) : ParameterType :=
  (pattern.bind typeOfPattern?).getD (typeOfName name)

/-- The parameters of a route path; a constraint stands in for a pattern that is not written in
the path. -/
def pathParameters (path : String) (constraints : Dict String) : List PathParameter :=
  (Placeholder.ofText path).map fun placeholder =>
    let constraint := placeholder.pattern.orElse fun _ => constraints.get? placeholder.name
    { name := placeholder.name
      inferredType := inferType constraint placeholder.name
      optional := placeholder.optional
      constraint }

/-- The parameters of a domain. -/
def domainParameters (domain : String) : List DomainParameter :=
  (Placeholder.ofText domain).map fun placeholder =>
    { name := placeholder.name
      optional := placeholder.optional
      pattern := placeholder.pattern
      fallback := placeholder.fallback }

/-- The pattern that a constraining method of a route stands for. -/
def methodPattern? (method : String) : Option String :=
  match method with
  | "whereNumber" => some "[0-9]+"
  | "whereAlpha" => some "[a-zA-Z]+"
  | "whereAlphaNumeric" => some "[a-zA-Z0-9]+"
  | "whereUuid" =>
    some ("[0-9a-fA-F]\x7b8\x7d-[0-9a-fA-F]\x7b4\x7d-[0-9a-fA-F]\x7b4\x7d-[0-9a-fA-F]\x7b4\x7d-" ++
      "[0-9a-fA-F]\x7b12\x7d")
  | _ => none

/-- A middleware entry's name and its parameters: `throttle:60,1` is `throttle` with `60` and
`1`. -/
def splitMiddleware (entry : String) : String × List String :=
  match splitFirst? ':' entry with
  | some (name, parameters) =>
    (name, ((segments ',' parameters).map trimmed).filter (!·.isEmpty))
  | none => (entry, [])

end ArtifactIndex
