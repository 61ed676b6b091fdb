/-
**Values of quoted literals.**

`unquote?` gives the value of a literal as written in a program, with its quotes and an optional
`b` before them. `encodeSingle` and `encodeDouble` write a value as a literal.
-/

import ArtifactIndex.Text.Basic

namespace ArtifactIndex

namespace Literal

/-- The character that a backslash and the given one stand for inside the given quotes; every other
backslash stands for itself. -/
def escaped? (quote c : Char) : Option Char :=
  if quote = '\'' then
    if c = '\'' ∨ c = '\\' then some c else none
  else if c = '"' ∨ c = '\\' ∨ c = '$' then some c
  else if c = 'n' then some '\n'
  else if c = 't' then some '\t'
  else none

/-- The value of the text between the quotes. -/
def decode (quote : Char) : List Char → List Char
  | [] => []
  | [c] => [c]
  | c :: next :: rest =>
    if c = '\\' then
      match escaped? quote next with
      | some meant => meant :: decode quote rest
      | none => c :: decode quote (next :: rest)
    else c :: decode quote (next :: rest)

/-- The character opens and closes a literal. -/
def isQuote (c : Char) : Bool := c == '\'' || c == '"'

/-- The literal without a leading `b` or `B`. -/
def withoutMark (chars : List Char) : List Char :=
  match chars with
  | b :: quote :: rest => if (b = 'b' ∨ b = 'B') ∧ isQuote quote then quote :: rest else chars
  | _ => chars

/-- The value of a literal, blanks around it aside; `none` when it is not in quotes. -/
def unquote? (raw : String) : Option String :=
  match withoutMark (trimmed raw).toList with
  | quote :: rest =>
    if isQuote quote then
      match rest.reverse with
      | last :: inner => if last = quote then some (String.ofList (decode quote inner.reverse)) else none
      | [] => none
    else none
  | [] => none

/-- A value between single quotes: quotes and backslashes behind a backslash. -/
def encodeSingle : List Char → List Char
  | [] => []
  | c :: rest => if c = '\'' ∨ c = '\\' then '\\' :: c :: encodeSingle rest else c :: encodeSingle rest

/-- A value between double quotes: quotes, backslashes and dollar signs behind a backslash, line ends
and tabs as letters behind one. -/
def encodeDouble : List Char → List Char
  | [] => []
  | c :: rest =>
    if c = '"' ∨ c = '\\' ∨ c = '$' then '\\' :: c :: encodeDouble rest
    else if c = '\n' then '\\' :: 'n' :: encodeDouble rest
    else if c = '\t' then '\\' :: 't' :: encodeDouble rest
    else c :: encodeDouble rest

end Literal

end ArtifactIndex
