/-
**The assets of a project.**

An asset is a file with one of a fixed list of extensions below one of a few directories. Its name is
its path there, behind the directory's own name. Of several assets with one name the last one found
has it.

* `AssetTable.resolve?`: the asset that a reference means;
* `scanAssets`: all assets of a project.
-/

import ArtifactIndex.Asset.Naming
import ArtifactIndex.Ordered
import ArtifactIndex.Scan
import ArtifactIndex.Site

namespace ArtifactIndex

/-- The type of files with an extension. -/
def AssetType.ofExtension (ending : String) : AssetType :=
  let ending := lowered ending
  if ["css", "scss", "sass", "less"].contains ending then .css
  else if ["js", "ts", "jsx", "tsx"].contains ending then .js
  else if ["jpg", "jpeg", "png", "gif", "svg", "webp", "ico"].contains ending then .image
  else if ["ttf", "woff", "woff2", "eot"].contains ending then .font
  else .other

/-- The extensions of assets. -/
def assetExtensions : List String :=
  ["css", "scss", "sass", "less", "js", "ts", "jsx", "tsx", "jpg", "jpeg", "png", "gif", "svg", "webp",
    "ico", "ttf", "woff", "woff2", "eot", "pdf", "json"]

/-- A static asset. -/
structure Asset where
  name : String
  relativePath : String
  ending : String
  assetType : AssetType
  file : String
deriving Repr, DecidableEq

/-- Assets in the order in which they were found. -/
structure AssetTable where
  assets : List Asset
deriving Repr, DecidableEq

namespace AssetTable

/-- No assets. -/
def empty : AssetTable := ⟨[]⟩

/-- The last asset with a name. -/
def get? (table : AssetTable) (name : String) : Option Asset :=
  table.assets.reverse.find? (·.name == name)

/-- The names in ascending order, each once. -/
def keys (table : AssetTable) : List String :=
  ascendingDistinct (table.assets.map (·.name))

/-- The asset that a reference means: the first one that a spelling of it names. -/
def resolve? (table : AssetTable) (reference : String) : Option Asset :=
  (Asset.spellings reference).findSome? table.get?

/-- The file of an asset. -/
def declarations (table : AssetTable) (reference : String) : List Site :=
  ((table.resolve? reference).map fun asset => Site.ofFile asset.file).toList

end AssetTable

/-! ### The search for assets -/

/-- A directory that holds assets, and how they are named. -/
structure AssetRoot where
  directory : String
  /-- What relative paths start with. -/
  lead : String
  /-- Names start with `assets/`. -/
  underAssets : Bool
deriving Repr, DecidableEq

/-- Packages whose distributed files count as assets. -/
def distributedPackages : List String :=
  ["bootstrap", "jquery", "vue", "react", "alpinejs", "tailwindcss", "livewire"]

/-- The directories that hold assets of the project itself. -/
def projectAssetRoots : List AssetRoot :=
  [⟨"public", "", false⟩, ⟨"resources/assets", "", true⟩, ⟨"resources/js", "js", false⟩,
    ⟨"resources/css", "css", false⟩, ⟨"resources/sass", "sass", true⟩, ⟨"resources/scss", "scss", true⟩]

/-- The directory that holds the assets of a package. -/
def packageAssetRoot (package : String) : AssetRoot :=
  let directory := "node_modules/" ++ package ++ "/dist"
  ⟨directory, directory, true⟩

/-- The directories of a project that hold assets. -/
def assetRoots (tree : Tree) : List AssetRoot :=
  (projectAssetRoots ++ distributedPackages.map packageAssetRoot).filter fun root =>
    tree.isDirectory root.directory

/-- The asset in a file below a root; `none` when it is none. -/
def AssetRoot.asset? (root : AssetRoot) (file : String) : Option Asset :=
  match Path.extension? file with
  | none => none
  | some ending =>
    if !assetExtensions.contains ending then none
    else
      let inner := (afterStart? (root.directory ++ "/") file).getD file
      let relativePath := if root.lead.isEmpty then inner else root.lead ++ "/" ++ inner
      some
        { name := if root.underAssets then "assets/" ++ relativePath else relativePath
          relativePath, ending, assetType := AssetType.ofExtension ending, file }

/-- All assets of a project. -/
def scanAssets (tree : Tree) : AssetTable × ScanCounts :=
  let assets := (assetRoots tree).flatMap fun root =>
    (tree.filesBelow root.directory).filterMap root.asset?
  (⟨assets⟩, { files := assets.length })

end ArtifactIndex
