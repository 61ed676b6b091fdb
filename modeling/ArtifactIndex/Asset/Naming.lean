/-
**Names of assets.**

An asset is referred to by its path, with or without a leading slash or the name of its root, and
possibly with a query or fragment behind it. `Asset.spellings` lists the forms under which a
reference is looked up.
-/

import ArtifactIndex.Path

namespace ArtifactIndex

/-- The kinds of static assets. -/
inductive AssetType where
  | css
  | js
  | image
  | font
  | other
deriving Repr, DecidableEq

namespace AssetType

/-- The type's written form. -/
def text : AssetType → String
  | .css => "CSS"
  | .js => "JS"
  | .image => "IMAGE"
  | .font => "FONT"
  | .other => "OTHER"

end AssetType

namespace Asset

/-- The part of a reference before its query or fragment. -/
def withoutQuery (reference : String) : String :=
  String.ofList (reference.toList.takeWhile fun c => c != '?' && c != '#')

/-- The forms under which an asset is looked up: without query, without leading slashes, and
without the name of either root; empty and repeated forms are left out. -/
def spellings (reference : String) : List String :=
  let bare := withoutQuery (trimmed reference)
  let relative := trimmedStartOf '/' bare
  distinctNonempty
    [bare, relative, (afterStart? "resources/" relative).getD relative,
      (afterStart? "public/" relative).getD relative]

end Asset

end ArtifactIndex
