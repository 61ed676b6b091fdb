/-
**The search for translations.**

Language files stand below a few directories, the language roots: programs that return an array, in a
directory for each locale, and files of flat translations at a root itself. Without any root, language
files are looked for in the whole project.

* `languageRoots`, `languageFiles`: where translations are declared, in the order of the scan;
* `leavesOf`: the texts of a returned array, with the dotted paths of their keys;
* `scanTranslations`: all translations of a project.
-/

import ArtifactIndex.Code.Query
import ArtifactIndex.Scan
import ArtifactIndex.Translation.Flat
import ArtifactIndex.Translation.Key
import ArtifactIndex.Translation.Table

namespace ArtifactIndex

/-! ### Files -/

/-- The directories that hold language files, in order of priority. -/
def languageRoots (tree : Tree) : List String :=
  ["resources/lang", "lang", "app/lang", "vendor/laravel/lang"].filter tree.isDirectory ++
    ((tree.childDirectories modulesDirectory).map fun entry => entry.path ++ "/Resources/lang").filter
      tree.isDirectory ++
    (tree.childDirectories "lang/vendor").map (·.path)

/-- The two forms of language files. -/
inductive LanguageFormat where
  /-- A program that returns an array. -/
  | program
  /-- A file of flat translations. -/
  | flat
deriving Repr, DecidableEq

/-- A file with translations of one locale. -/
structure LanguageFile where
  path : String
  locale : String
  format : LanguageFormat
deriving Repr, DecidableEq

/-- The file name of a path without its extension. -/
def stemOf (path : String) : String :=
  match splitLast? '.' (Path.fileName path) with
  | some (stem, _) => stem
  | none => Path.fileName path

/-- The name of the directory that a path stands in. -/
def directoryNameOf (path : String) : String :=
  match splitLast? '/' path with
  | some (directory, _) => Path.fileName directory
  | none => ""

/-- The programs in the locale directories of a root. -/
def localeFiles (tree : Tree) (root : String) : List LanguageFile :=
  (tree.childDirectories root).flatMap fun directory =>
    ((tree.childFiles directory.path).filter fun file => Path.extension? file.path == some "php").map
      fun file => { path := file.path, locale := directory.name, format := .program }

/-- A language file that stands at a root itself. -/
def rootFile? (path : String) : Option LanguageFile :=
  match Path.extension? path with
  | some "json" => some { path, locale := stemOf path, format := .flat }
  | some "php" => some { path, locale := defaultLocale, format := .program }
  | _ => none

/-- A language file found without a root, by the directories it stands in. -/
def looseFile? (path : String) : Option LanguageFile :=
  let inLanguages := occursIn "/lang/" ("/" ++ path)
  match Path.extension? path with
  | some "php" =>
    if inLanguages then some { path, locale := directoryNameOf path, format := .program } else none
  | some "json" =>
    if inLanguages || occursIn "/translations/" ("/" ++ path) then
      some { path, locale := stemOf path, format := .flat }
    else none
  | _ => none

/-- The language files in the order of the scan: root by root, the locale directories of a root before
its own files. -/
def languageFiles (tree : Tree) : List LanguageFile :=
  match languageRoots tree with
  | [] => tree.ownFiles.filterMap looseFile?
  | roots =>
    roots.flatMap fun root =>
      localeFiles tree root ++ (tree.childFiles root).filterMap fun file => rootFile? file.path

/-! ### Content -/

/-- A text of a returned array. -/
structure Leaf where
  /-- The keys down to the text, joined by dots. -/
  path : String
  /-- The last key's literal. -/
  span : Span
  value : String
deriving Repr, DecidableEq

/-- A key below the keys before it. -/
def dottedPath (outer key : String) : String :=
  if outer.isEmpty then key else outer ++ "." ++ key

/-- The text of a value: that of a literal, or else the code as it is written. -/
def leafValue (value : Node) : String :=
  match value.literal? with
  | some text => text
  | none =>
    let written := trimmed value.text
    if written.isEmpty then "[complex value]" else written

/-- The texts of an array below the given keys; arrays inside it are gone into, and entries without a
literal key are left out. -/
def leavesOf (outer : String) (array : Node) : List Leaf :=
  array.arrayEntries.attach.flatMap fun entry =>
    match entry.1.key with
    | none => []
    | some keyNode =>
      match keyNode.literal? with
      | none => []
      | some key =>
        let path := dottedPath outer key
        if entry.1.value.isArray then leavesOf path entry.1.value
        else [{ path, span := keyNode.span, value := leafValue entry.1.value }]
termination_by array.nodeCount
decreasing_by exact Node.nodeCount_lt_of_mem_arrayEntries entry.2

/-- The translations in a program that returns an array. -/
def programTranslations (file : LanguageFile) (source : String) : List TranslationRecord :=
  match (Node.ofSource source).returnedArray? with
  | none => []
  | some array =>
    let origin := Origin.ofText file.path source
    (leavesOf "" array).map fun leaf =>
      { key := dottedPath (stemOf file.path) leaf.path, locale := file.locale, file := file.path
        value := leaf.value, declaration := origin.site leaf.span }

/-- The translations in a file of flat translations; `none` when it cannot be read. -/
def flatTranslations? (strict : Bool) (file : LanguageFile) (source : String) :
    Option (List TranslationRecord) :=
  let origin := Origin.ofText file.path source
  (FlatEntry.read? strict source).map fun entries =>
    entries.map fun entry =>
      { key := entry.key, locale := file.locale, file := file.path, value := entry.value
        declaration := (entry.span.map origin.site).getD (Site.ofFile file.path) }

/-- The translations in a file, and what is counted for it. -/
def scanLanguageFile (tree : Tree) (strict : Bool) (file : LanguageFile) :
    List TranslationRecord × ScanCounts :=
  match tree.scan file.path with
  | (none, counts) => ([], counts)
  | (some source, counts) =>
    match file.format with
    | .program => (programTranslations file source, counts)
    | .flat =>
      match flatTranslations? strict file source with
      | some records => (records, counts)
      | none => ([], counts.add { errors := 1 })

/-- All translations of a project. -/
def scanTranslations (tree : Tree) (strict : Bool) : TranslationTable × ScanCounts :=
  let scans := (languageFiles tree).map (scanLanguageFile tree strict)
  (⟨scans.flatMap Prod.fst⟩, ScanCounts.sum (scans.map Prod.snd))

/-! ### Declarations of a key -/

/-- The sites of the keys in an array whose dotted path is the given one; a key may have dots of its
own. -/
def keySites (origin : Origin) (array : Node) (path : String) : List Site :=
  array.arrayEntries.attach.flatMap fun entry =>
    match entry.1.key with
    | none => []
    | some keyNode =>
      match keyNode.literal? with
      | none => []
      | some key =>
        if key = path then [origin.site keyNode.span]
        else
          match afterStart? (key ++ ".") path with
          | none => []
          | some rest => if entry.1.value.isArray then keySites origin entry.1.value rest else []
termination_by array.nodeCount
decreasing_by exact Node.nodeCount_lt_of_mem_arrayEntries entry.2

/-- The sites of a key in the file of its namespace in one locale directory. -/
def localeSites (tree : Tree) (directory name rest : String) : List Site :=
  let path := directory ++ "/" ++ name ++ ".php"
  if !tree.isFile path then []
  else
    match tree.read path with
    | .error _ => []
    | .ok source =>
      match (Node.ofSource source).returnedArray? with
      | none => []
      | some array => keySites (Origin.ofText path source) array rest

/-- The site of a key in a file of flat translations. -/
def flatSites (tree : Tree) (key path : String) : List Site :=
  if Path.extension? path != some "json" then []
  else
    match tree.read path with
    | .error _ => []
    | .ok source => ((keySpan? source key).map (Origin.ofText path source).site).toList

/-- The sites of a key in the language files as they are now. -/
def currentSites (tree : Tree) (key : String) : List Site :=
  (languageRoots tree).flatMap fun root =>
    (match Translation.splitKey? key with
      | none => []
      | some (name, rest) =>
        (tree.childDirectories root).flatMap fun directory => localeSites tree directory.path name rest) ++
      (tree.childFiles root).flatMap fun file => flatSites tree key file.path

/-- The sites at which a key is declared: those in the language files as they are now, or else those
of the last scan. -/
def TranslationTable.declarations (table : TranslationTable) (tree : Tree) (key : String) : List Site :=
  match currentSites tree key with
  | [] => (table.all key).map (·.declaration)
  | sites => sites

end ArtifactIndex
