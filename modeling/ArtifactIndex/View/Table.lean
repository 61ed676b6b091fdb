/-
**The views of a project.**

A view is a template below a root of views. It is known under three forms of its name: with dots, with
slashes, and with dots and its ending. Of several views with one form the last one found has it.

* `ViewTable.get?`: the view that has a form;
* `ViewTable.resolve?`, `ViewTable.resolveAll`: the views that a reference means.
-/

import ArtifactIndex.Ordered
import ArtifactIndex.Scan
import ArtifactIndex.Site
import ArtifactIndex.View.Naming

namespace ArtifactIndex

/-- A template. -/
structure View where
  /-- The name with dots, behind the root's own name. -/
  name : String
  /-- The path below the root. -/
  relativePath : String
  /-- The ending, without its dot. -/
  ending : String
  file : String
deriving Repr, DecidableEq

/-- The forms under which a view is known. -/
def View.forms (view : View) : List String :=
  [view.name, exchange '.' '/' view.name, view.name ++ "." ++ view.ending]

/-- Views in the order in which they were found. -/
structure ViewTable where
  views : List View
deriving Repr, DecidableEq

namespace ViewTable

/-- No views. -/
def empty : ViewTable := ⟨[]⟩

/-- The last view with a form. -/
def get? (table : ViewTable) (form : String) : Option View :=
  table.views.reverse.find? (·.forms.contains form)

/-- The names in ascending order, each once. -/
def keys (table : ViewTable) : List String :=
  ascendingDistinct (table.views.map (·.name))

/-- The view that a reference means: the first one that a spelling of it gives. -/
def resolve? (table : ViewTable) (reference : String) : Option View :=
  (View.spellings reference).findSome? table.get?

/-- The list with a view at its end, unless one of the same file is there. -/
def addNew (found : List View) (view : View) : List View :=
  if found.any (·.file == view.file) then found else found ++ [view]

/-- The views that the spellings of a reference give, each file once. -/
def resolveAll (table : ViewTable) (reference : String) : List View :=
  ((View.spellings reference).filterMap table.get?).foldl addNew []

end ViewTable

/-! ### The search for views -/

/-- A directory that holds templates, and what their names start with. -/
structure ViewRoot where
  directory : String
  lead : String
deriving Repr, DecidableEq

/-- The directories that hold templates in any project. -/
def commonViewRoots : List ViewRoot :=
  [⟨"resources/views", ""⟩, ⟨"app/views", ""⟩, ⟨"vendor/views", "vendor"⟩]

/-- The directory that holds the templates of a module. -/
def moduleViewRoot (entry : DirectoryEntry) : ViewRoot :=
  { directory := entry.path ++ "/Resources/views", lead := "modules." ++ entry.name }

/-- The directories of a project that hold templates. -/
def viewRoots (tree : Tree) : List ViewRoot :=
  (commonViewRoots ++ (tree.childDirectories modulesDirectory).map moduleViewRoot).filter fun root =>
    tree.isDirectory root.directory

/-- The view in a file below a root; `none` when it is no template. -/
def ViewRoot.view? (root : ViewRoot) (file : String) : Option View :=
  if Path.extension? file != some "php" then none
  else
    let relativePath := (afterStart? (root.directory ++ "/") file).getD file
    let name := View.nameOfPath relativePath
    some
      { name := if root.lead.isEmpty then name else root.lead ++ "." ++ name
        relativePath
        ending := if endsWith templateEnding relativePath then "blade.php" else "php"
        file }

/-- All views of a project. -/
def scanViews (tree : Tree) : ViewTable × ScanCounts :=
  let views := (viewRoots tree).flatMap fun root =>
    (tree.filesBelow root.directory).filterMap root.view?
  (⟨views⟩, { files := views.length })

/-- The paths below a root at which a view of the given spelling can stand. -/
def templatePaths (spelling : String) : List String :=
  let slashed := exchange '.' '/' spelling
  [slashed ++ templateEnding, slashed ++ ".php", spelling ++ templateEnding, spelling ++ ".php"]

/-- The files of the project that a view's name can mean, each once. -/
def templatesNamed (tree : Tree) (name : String) : List String :=
  ((viewRoots tree).flatMap fun root =>
    (View.spellings name).flatMap fun spelling =>
      (templatePaths spelling).map fun path => root.directory ++ "/" ++ path).filter tree.isFile
    |>.eraseDups

/-- The files of a view: those of the last scan, or else those that stand where it could. -/
def ViewTable.declarations (table : ViewTable) (tree : Tree) (name : String) : List Site :=
  match table.resolveAll name with
  | [] => (templatesNamed tree name).map Site.ofFile
  | views => views.map fun view => Site.ofFile view.file

end ArtifactIndex
