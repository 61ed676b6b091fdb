/-
**Which literals refer to artifacts.**

Each kind of artifact has rules for the places in which a literal refers to one. The rules are asked
in a fixed order, routes before translations before views before assets, and the first that applies
decides; a literal that no rule covers may still be a known translation key.

* `routeRole?`, `translationRole?`, `isViewReference`, `isAssetReference`: the rules of each kind;
* `classify?`: all of them in order.
-/

import ArtifactIndex.Kind
import ArtifactIndex.Reference.Context
import ArtifactIndex.Route.Chain
import ArtifactIndex.Translation.Key

namespace ArtifactIndex

/-- The helper through which a route is referred to. -/
inductive RouteHelper where
  /-- By the route's name. -/
  | name
  /-- By its path. -/
  | url
  /-- By its controller action. -/
  | action
deriving Repr, DecidableEq

/-- What a literal is to routes. -/
inductive RouteRole where
  | reference (helper : RouteHelper)
  /-- A part of a route's declaration. -/
  | definition
deriving Repr, DecidableEq

/-- What a literal is to translations. -/
inductive TranslationRole where
  /-- The first argument of a translating function. -/
  | call
  /-- A key of an array in a language file. -/
  | languageFileKey
  /-- A declared key in any other place. -/
  | known
deriving Repr, DecidableEq

/-- What a literal refers to. -/
inductive Classified where
  | route (role : RouteRole)
  | translation (role : TranslationRole)
  | view
  | asset
deriving Repr, DecidableEq

/-- The kind of artifact referred to. -/
def Classified.kind : Classified → Kind
  | .route _ => .route
  | .translation _ => .translation
  | .view => .view
  | .asset => .asset

/-! ### Vocabulary -/

/-- Functions whose first argument is a translation key. -/
def translationFunctions : List String :=
  ["trans", "__", "trans_choice", "lang", "__t", "_", "localize", "translate"]

/-- Methods of translators whose first argument is a translation key. -/
def translationMethods : List String := ["get", "choice", "trans", "__", "transChoice"]

/-- Classes, functions and variables that give a translator. -/
def translationReceivers : List String :=
  ["Lang", "Trans", "Translator", "app", "translator", "I18n", "TranslatorContract", "Localization"]

/-- Directives whose first argument is a translation key. -/
def translationDirectives : List String := ["lang", "__", "trans", "translate", "choice"]

/-- Functions whose first argument is a view. -/
def viewFunctions : List String := ["view", "markdown", "render", "renderView"]

/-- Directives whose arguments are views. -/
def viewDirectives : List String :=
  ["include", "extends", "component", "livewire", "each", "includeIf", "includeWhen", "includeUnless",
    "includeFirst", "yield"]

/-- The facades with the methods whose first argument is a view. -/
def viewFacades : List (String × List String) :=
  [("View", ["make", "first", "renderWhen", "renderUnless", "composer"]),
    ("Blade", ["render", "renderComponent", "compile"]), ("Response", ["view"])]

/-- Functions whose first argument is an asset. -/
def assetFunctions : List String :=
  ["asset", "mix", "vite", "elixir", "secure_asset", "viteReactRefresh", "viteRender", "vite_asset"]

/-- Methods of the URL facade whose first argument is an asset. -/
def assetMethods : List String := ["asset", "secure", "assetFrom", "secureAssetFrom"]

/-- The names of the URL facade. -/
def assetReceivers : List String := ["URL", "url", "Illuminate\\Support\\Facades\\URL"]

/-- Directives whose first argument is an asset. -/
def assetDirectives : List String := ["asset", "mix", "vite", "viteReactRefresh"]

/-- Attributes of markup that hold assets. -/
def assetAttributes : List String :=
  ["src", "href", "data-src", "data-background", "content", "data-vite"]

/-! ### Routes -/

/-- The literal is the value of its entry: the only part of the entry, or the second one. -/
def Place.isEntryValue (place : Place) : Bool :=
  match place.up? with
  | none => false
  | some element =>
    if element.node.children.length == 1 then place.indexInParent == 0 else place.indexInParent == 1

/-- The literal stands with a class in an array of two values without keys, as the method of a
controller does. -/
def isControllerAction (place : Place) : Bool :=
  match place.enclosingArray? with
  | none => false
  | some (array, isKey) =>
    let entries := array.node.arrayEntries
    !isKey && entries.length == 2 && entries.all (·.key.isNone) && place.isEntryValue &&
      entries.any (·.value.className?.isSome)

/-- The literal is the template of a route that only shows a view. -/
def isRouteViewTarget (owner : Owner) : Bool :=
  owner.index == 1 && !owner.nested && owner.callee.name == "view" && Route.isRouterCall owner.call

/-- What a literal in a directive is to routes. -/
def directiveRouteRole? (directive : Option String) (owner : Owner) : Option RouteRole :=
  match directive with
  | some "route" => if owner.isDirectFirst then some (.reference .name) else none
  | some "url" => if owner.isDirectFirst then some (.reference .url) else none
  | some "action" => if owner.index == 0 then some (.reference .action) else none
  | _ => none

/-- What an argument of a function is to routes. -/
def functionRouteRole? (name : String) (owner : Owner) : Option RouteRole :=
  if name == "route" || name == "to_route" then
    if owner.isDirectFirst then some (.reference .name) else none
  else if name == "url" then if owner.isDirectFirst then some (.reference .url) else none
  else if name == "action" then if owner.index == 0 then some (.reference .action) else none
  else none

/-- What an argument of a method is to routes: part of a declaration in a chain on the router, the
template of a route's view apart; else a reference as the first argument of a method `route`. -/
def methodRouteRole? (place : Place) (owner : Owner) : Option RouteRole :=
  if isRouteViewTarget owner then none
  else if Route.isRouterChain owner.call then some .definition
  else if isControllerAction place then none
  else if owner.callee.name == "route" && owner.isDirectFirst then some (.reference .name)
  else none

/-- What the literal is to routes. -/
def routeRole? (context : LiteralContext) : Option RouteRole :=
  if context.isBlank then none
  else
    match context.owner? with
    | none => none
    | some owner =>
      match owner.callee with
      | .function name =>
        if name == directiveFunction then directiveRouteRole? context.directive owner
        else functionRouteRole? name owner
      | _ => methodRouteRole? context.place owner

/-! ### Translations -/

/-- The class, function or variable gives a translator. -/
def isTranslationReceiver (receiver : String) : Bool :=
  let bare := trimmedStartOf '\\' (trimmed receiver)
  translationReceivers.contains bare || endsWith "\\Translator" bare

/-- What an object is called by: its variable or name, or the callee that gives it. -/
def receiverName? (object : Node) : Option String :=
  match object.kind with
  | .variable => some (trimmedStartOf '$' (trimmed object.text))
  | .name => some (trimmed object.text)
  | _ =>
    match object.callee? with
    | some (.function name) => some name
    | some (.static scope _) => some scope
    | some (.member _ name) => some name
    | none => none

/-- The callee translates its first argument. -/
def isTranslating (directive : Option String) : Callee → Bool
  | .function name =>
    if name == directiveFunction then directive.any translationDirectives.contains
    else translationFunctions.contains name
  | .static scope name => translationMethods.contains name && isTranslationReceiver scope
  | .member object name =>
    translationMethods.contains name && (receiverName? object).any isTranslationReceiver

/-- What the literal is to translations, by its place alone. -/
def translationRole? (context : LiteralContext) : Option TranslationRole :=
  if !Translation.isCandidate context.value then none
  else if context.owner?.any fun owner =>
      owner.isDirectFirst && isTranslating context.directive owner.callee then some .call
  else if isLanguageFile context.file && (context.place.enclosingArray?.any (·.2)) then
    some .languageFileKey
  else none

/-! ### Views -/

/-- The class is the facade, possibly qualified. -/
def isFacadeNamed (facade scope : String) : Bool :=
  scope == facade || endsWith ("\\" ++ facade) scope

/-- The literal refers to a view. -/
def isViewReference (context : LiteralContext) : Bool :=
  !context.isBlank &&
    match context.owner? with
    | none => false
    | some owner =>
      match owner.callee with
      | .function name =>
        if name == directiveFunction then context.directive.any viewDirectives.contains
        else owner.index == 0 && viewFunctions.contains name
      | .static scope name =>
        (owner.index == 0 &&
          viewFacades.any fun facade => isFacadeNamed facade.1 scope && facade.2.contains name) ||
          isRouteViewTarget owner
      | .member _ _ => isRouteViewTarget owner

/-! ### Assets -/

/-- The callee takes the literal as an asset. -/
def isAssetArgument (directive : Option String) (owner : Owner) : Bool :=
  match owner.callee with
  | .function name =>
    if name == directiveFunction then owner.index == 0 && directive.any assetDirectives.contains
    else owner.index == 0 && assetFunctions.contains name && (!owner.nested || name == "vite")
  | .static scope name =>
    owner.isDirectFirst && assetMethods.contains name && assetReceivers.contains scope
  | .member _ _ => false

/-- The literal refers to an asset. -/
def isAssetReference (context : LiteralContext) : Bool :=
  !context.isBlank &&
    (context.owner?.any (isAssetArgument context.directive) ||
      context.markupAttribute.any assetAttributes.contains)

/-! ### All kinds -/

/-- What the literal refers to, by the first rule that applies; a known translation key is asked for
only when no rule does. -/
def classify? (isKnownKey : String → Bool) (context : LiteralContext) : Option Classified :=
  if context.isBlank then none
  else
    match routeRole? context with
    | some role => some (.route role)
    | none =>
      match translationRole? context with
      | some role => some (.translation role)
      | none =>
        if isViewReference context then some .view
        else if isAssetReference context then some .asset
        else if Translation.isCandidate context.value && isKnownKey context.value then
          some (.translation .known)
        else none

end ArtifactIndex
