/-
**Translation keys.**

A key such as `messages.dashboard.title` names an entry of the language files called `messages`.
-/

import ArtifactIndex.Text.Basic

namespace ArtifactIndex

namespace Translation

/-- A key's namespace, its first dot segment, and the rest; `none` when either is empty. -/
def splitKey? (key : String) : Option (String × String) :=
  match splitFirst? '.' key with
  | some (name, rest) => if name.isEmpty || rest.isEmpty then none else some (name, rest)
  | none => none

/-- A text that could be a key: not blank and not all digits. -/
def isCandidate (text : String) : Bool :=
  let bare := trimmed text
  !bare.isEmpty && !bare.toList.all Char.isDigit

end Translation

/-- A file below a directory of language files. -/
def isLanguageFile (path : String) : Bool :=
  occursIn "/lang/" ("/" ++ trimmedStartOf '/' path)

end ArtifactIndex
