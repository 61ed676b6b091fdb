/-
**Texts quoted in messages.**

A message that repeats a text given to it writes the text in double quotes; quotes, backslashes,
line ends, tabs and every character that would not show are escaped.
-/

import ArtifactIndex.Text.Visible

namespace ArtifactIndex

namespace Quoted

/-- The hexadecimal digits of a number. -/
def hexText (code : Nat) : List Char := Nat.toDigits 16 code

/-- A character as it stands inside the quotes. -/
def escape (c : Char) : List Char :=
  if c.toNat = 0 then ['\\', '0']
  else if c = '\t' then ['\\', 't']
  else if c = '\r' then ['\\', 'r']
  else if c = '\n' then ['\\', 'n']
  else if c = '\\' then ['\\', '\\']
  else if c = '"' then ['\\', '"']
  else if isVisible c then [c]
  else ['\\', 'u', '{'] ++ hexText c.toNat ++ ['}']

/-- The text in quotes. -/
def quote (text : String) : String :=
  String.ofList ('"' :: text.toList.flatMap escape ++ ['"'])

end Quoted

end ArtifactIndex
