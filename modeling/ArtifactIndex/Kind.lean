/-
**Kinds of artifacts.**

A project declares artifacts of four kinds, and its code refers to them.
-/

import ArtifactIndex.Text.Basic

namespace ArtifactIndex

/-- The kinds of artifacts. -/
inductive Kind where
  | route
  | translation
  | view
  | asset
deriving Repr, DecidableEq, Hashable

namespace Kind

/-- All kinds. -/
def all : List Kind := [.route, .translation, .view, .asset]

/-- The kind's written form. -/
def text : Kind → String
  | .route => "route"
  | .translation => "translation"
  | .view => "view"
  | .asset => "asset"

/-- The words for a kind. -/
def words : Kind → List String
  | .route => ["route", "routes"]
  | .translation => ["translation", "translations", "lang", "trans"]
  | .view => ["view", "views", "template"]
  | .asset => ["asset", "assets"]

/-- The kind that a word means, in any case and with blanks around it. -/
def ofText? (text : String) : Option Kind :=
  let word := lowered (trimmed text)
  all.find? (·.words.contains word)

end Kind

/-- A word that means no kind. -/
structure UnknownKind where
  word : String
deriving Repr, DecidableEq

/-- What is wrong in words. -/
def UnknownKind.message (error : UnknownKind) : String := "unknown artifact kind: " ++ error.word

/-- The kind that a word means, or the word that means none. -/
def Kind.read (word : String) : Except UnknownKind Kind :=
  match ofText? word with
  | some kind => .ok kind
  | none => .error ⟨word⟩

end ArtifactIndex
