/-
**The search for usages.**

Each of the project's own files is searched in the way of its category: programs by their literals,
templates by the literals of their code and by text patterns, scripts by text patterns. In templates
and scripts a reference that is found twice on a line counts once.

* `codeReferences`, `templateReferences`, `textReferences`: the three ways of searching;
* `scanUsages`: all usages of a project.
-/

import ArtifactIndex.Reference.Pattern
import ArtifactIndex.Scan
import ArtifactIndex.Template.Fragment
import ArtifactIndex.Usage.Resolve

namespace ArtifactIndex

/-- A reference in a file, and the bytes of its literal. -/
structure Reference where
  resolved : Resolved
  span : Span
deriving Repr, DecidableEq

/-- The references among the literals of a program's tree, in source order. -/
def Node.references (root : Node) (artifacts : Artifacts) (file : String)
    (directive markupAttribute : Option String) : List Reference :=
  root.literals.filterMap fun place =>
    match LiteralContext.of? place file directive markupAttribute with
    | none => none
    | some context =>
      match classify? artifacts.translations.contains context with
      | none => none
      | some classified =>
        (artifacts.resolve? classified context.value).map fun resolved =>
          { resolved, span := place.node.span }

/-- The references in a program. -/
def codeReferences (artifacts : Artifacts) (file source : String)
    (directive markupAttribute : Option String) : List Reference :=
  (Node.ofSource source).references artifacts file directive markupAttribute

/-- A range of a fragment's program as a range of its template. -/
def Fragment.spanInTemplate? (fragment : Fragment) (span : Span) : Option Span :=
  match fragment.toTemplate? span.start, fragment.toTemplate? span.stop with
  | some start, some stop => some ⟨start, stop⟩
  | _, _ => none

/-- The references in the code of a template, fragment by fragment. -/
def templateReferences (artifacts : Artifacts) (file template : String) : List Reference :=
  (fragments template).flatMap fun fragment =>
    (codeReferences artifacts file fragment.code fragment.directive fragment.markupAttribute).filterMap
      fun reference =>
        (fragment.spanInTemplate? reference.span).map fun span => { reference with span }

/-- The references that text patterns find; the quotes belong to the literal. -/
def textReferences (artifacts : Artifacts) (table : List Pattern) (text : String) : List Reference :=
  (Pattern.findAll table text).filterMap fun found =>
    (artifacts.resolveRoute? found.helper found.key).map fun resolved =>
      { resolved, span := ⟨found.span.start - 1, found.span.stop + 1⟩ }

/-- The references in a file, in the way of its category. -/
def fileReferences (artifacts : Artifacts) (file text : String) : FileCategory → List Reference
  | .php => codeReferences artifacts file text none none
  | .blade =>
    templateReferences artifacts file text ++ textReferences artifacts Pattern.templateTable text
  | .script => textReferences artifacts (Pattern.tableFor file) text

/-- A reference as a usage. -/
def Reference.record (origin : Origin) (reference : Reference) : UsageRecord :=
  { kind := reference.resolved.kind
    key := reference.resolved.key
    usage :=
      { file := origin.file
        line := origin.lines.lineOf reference.span.start
        site := origin.site reference.span
        usageKind := reference.resolved.usageKind } }

/-- Two usages refer to the same artifact in the same way on the same line. -/
def UsageRecord.repeats (left right : UsageRecord) : Bool :=
  left.usage.line == right.usage.line && left.kind == right.kind && left.key == right.key &&
    left.usage.usageKind == right.usage.usageKind

/-- The usages without those that repeat an earlier one. -/
def withoutRepeats : List UsageRecord → List UsageRecord
  | [] => []
  | record :: rest => record :: (withoutRepeats rest).filter fun later => !record.repeats later

/-- The usages in a file. -/
def fileUsages (artifacts : Artifacts) (file text : String) (category : FileCategory) :
    List UsageRecord :=
  let records := (fileReferences artifacts file text category).map
    (Reference.record (Origin.ofText file text))
  match category with
  | .php => records
  | .blade => withoutRepeats records
  | .script => withoutRepeats records

/-- The usages in one of the project's files, and what is counted for it. -/
def scanUsagesOf (tree : Tree) (artifacts : Artifacts) (file : String) : List UsageRecord × ScanCounts :=
  match FileCategory.of? file with
  | none => ([], {})
  | some category =>
    match tree.scan file with
    | (none, counts) => ([], counts)
    | (some text, counts) => (fileUsages artifacts file text category, counts)

/-- All usages of a project. -/
def scanUsages (tree : Tree) (artifacts : Artifacts) : UsageTable × ScanCounts :=
  let scans := tree.ownFiles.map (scanUsagesOf tree artifacts)
  (⟨scans.flatMap Prod.fst⟩, ScanCounts.sum (scans.map Prod.snd))

end ArtifactIndex
