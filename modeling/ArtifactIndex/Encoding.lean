/-
**Records as JSON.**
-/

import ArtifactIndex.Cursor
import ArtifactIndex.Route.Encoding

namespace ArtifactIndex

/-- A translation. -/
def TranslationRecord.toJson (record : TranslationRecord) : Json :=
  .record [("key", .string record.key), ("locale", .string record.locale),
    ("source_file", .string record.file), ("value", .string record.value),
    ("declaration", record.declaration.toJson)]

/-- A view. -/
def View.toJson (view : View) : Json :=
  .record [("canonical_name", .string view.name), ("relative_path", .string view.relativePath),
    ("extension", .string view.ending), ("file", .string view.file)]

/-- An asset. -/
def Asset.toJson (asset : Asset) : Json :=
  .record [("canonical_name", .string asset.name), ("relative_path", .string asset.relativePath),
    ("extension", .string asset.ending), ("asset_type", .string asset.assetType.text),
    ("file", .string asset.file)]

/-- A usage. -/
def Usage.toJson (usage : Usage) : Json :=
  .record [("file", .string usage.file), ("line_number", .nat usage.line),
    ("site", usage.site.toJson), ("usage_kind", .string usage.usageKind.text)]

namespace Stats

/-- The counts by name, in the order in which they are reported. The time taken is not counted. -/
def members (stats : Stats) : List (String × Json) :=
  [("routes", .nat stats.routes), ("route_names", .nat stats.routeNames),
    ("translations", .nat stats.translations), ("views", .nat stats.views),
    ("assets", .nat stats.assets), ("usages", .nat stats.usages), ("files_scanned", .nat stats.files),
    ("errors", .nat stats.errors), ("duration_ms", .nat 0)]

/-- The counts in the order of their names. -/
def toJson (stats : Stats) : Json := .record stats.members

end Stats

/-- What is known of a literal. -/
def Classification.toJson (classification : Classification) : Json :=
  .record [("kind", .string classification.kind.text), ("literal", .string classification.literal),
    ("key", Json.optionalString classification.key),
    ("declarations", Json.ofList Site.toJson classification.declarations),
    ("usage_count", .nat classification.usageCount), ("site", classification.site.toJson)]

/-- A key that could stand in a literal's place. -/
def Completion.toJson (completion : Completion) : Json :=
  .record [("label", .string completion.label), ("kind", .string completion.kind.text),
    ("detail", .string completion.detail)]

namespace Index

/-- The record of a key, `null` when there is none. A translation comes with those of all locales. -/
def lookup (index : Index) : Kind → String → Json
  | .route, key => Json.ofOption Route.toJson (index.artifacts.routes.get? key)
  | .translation, key =>
    Json.ofOption
      (fun record =>
        .record [("record", TranslationRecord.toJson record),
          ("locales", Json.ofList TranslationRecord.toJson (index.artifacts.translations.all key))])
      (index.artifacts.translations.get? key)
  | .view, key => Json.ofOption View.toJson (index.artifacts.views.resolve? key)
  | .asset, key => Json.ofOption Asset.toJson (index.artifacts.assets.resolve? key)

end Index

end ArtifactIndex
