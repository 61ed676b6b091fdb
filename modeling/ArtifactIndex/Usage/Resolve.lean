/-
**What references mean.**

A literal that is classified as a reference means an artifact when one is declared under it; otherwise
it means nothing.

* `Artifacts`: all that a project declares;
* `Artifacts.resolve?`: the artifact that a classified literal refers to.
-/

import ArtifactIndex.Asset.Table
import ArtifactIndex.Reference.Rules
import ArtifactIndex.Route.Table
import ArtifactIndex.Translation.Table
import ArtifactIndex.Usage.Basic
import ArtifactIndex.View.Table

namespace ArtifactIndex

/-- All that a project declares. -/
structure Artifacts where
  routes : RouteTable
  translations : TranslationTable
  views : ViewTable
  assets : AssetTable
deriving Repr, DecidableEq

/-- The artifact that a reference means. -/
structure Resolved where
  kind : Kind
  key : String
  usageKind : UsageKind
deriving Repr, DecidableEq

/-- How a route was referred to, by the helper and by what the helper found. -/
def RouteHelper.usageKind (helper : RouteHelper) (byName : Bool) : UsageKind :=
  match helper with
  | .name => if byName then .name else .path
  | .url => .url
  | .action => .action

/-- The route that a helper finds. -/
def RouteHelper.find? (helper : RouteHelper) (routes : RouteTable) (text : String) : Option RouteMatch :=
  match helper with
  | .name => routes.resolve? text
  | .url => routes.resolvePath? text
  | .action => routes.resolveAction? text

namespace Artifacts

/-- Nothing declared. -/
def empty : Artifacts := ⟨.empty, .empty, .empty, .empty⟩

/-- The route that a text means to a helper. -/
def resolveRoute? (artifacts : Artifacts) (helper : RouteHelper) (text : String) : Option Resolved :=
  (helper.find? artifacts.routes text).map fun found =>
    { kind := .route, key := found.key, usageKind := helper.usageKind found.byName }

/-- The artifact that a classified literal refers to; a part of a declaration refers to none. -/
def resolve? (artifacts : Artifacts) (classified : Classified) (value : String) : Option Resolved :=
  match classified with
  | .route .definition => none
  | .route (.reference helper) => artifacts.resolveRoute? helper value
  | .translation .languageFileKey => none
  | .translation _ =>
    if artifacts.translations.contains value then
      some { kind := .translation, key := value, usageKind := .name }
    else none
  | .view =>
    (artifacts.views.resolve? value).map fun view =>
      { kind := .view, key := view.name, usageKind := .name }
  | .asset =>
    (artifacts.assets.resolve? value).map fun asset =>
      { kind := .asset, key := asset.name, usageKind := .path }

end Artifacts

end ArtifactIndex
