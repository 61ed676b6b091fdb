/-
**The translations of a project.**

A table holds the declared translations of all locales in the order in which they were found. Of
several declarations of a key the last one is the key's record.
-/

import ArtifactIndex.Ordered
import ArtifactIndex.Site

namespace ArtifactIndex

/-- A translation in one locale. -/
structure TranslationRecord where
  key : String
  locale : String
  file : String
  value : String
  declaration : Site
deriving Repr, DecidableEq

/-- Translations in the order in which they were found. -/
structure TranslationTable where
  records : List TranslationRecord
deriving Repr, DecidableEq

/-- The locale of translations that name none. -/
def defaultLocale : String := "en"

namespace TranslationTable

/-- No translations. -/
def empty : TranslationTable := ⟨[]⟩

/-- The declarations of a key in all locales. -/
def all (table : TranslationTable) (key : String) : List TranslationRecord :=
  table.records.filter (·.key == key)

/-- The record of a key: its last declaration. -/
def get? (table : TranslationTable) (key : String) : Option TranslationRecord :=
  table.records.reverse.find? (·.key == key)

/-- The key is declared. -/
def contains (table : TranslationTable) (key : String) : Bool :=
  table.records.any (·.key == key)

/-- The keys in ascending order, each once. -/
def keys (table : TranslationTable) : List String :=
  ascendingDistinct (table.records.map (·.key))

/-- A key's text; a key that is not declared stands for itself. -/
def valueOf (table : TranslationTable) (key : String) : String :=
  ((table.get? key).map (·.value)).getD key

/-- The locale of a key's text. -/
def localeOf (table : TranslationTable) (key : String) : String :=
  ((table.get? key).map (·.locale)).getD defaultLocale

end TranslationTable

end ArtifactIndex
