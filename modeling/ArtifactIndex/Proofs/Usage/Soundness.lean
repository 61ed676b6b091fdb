/-
**Recorded usages are sound.**

Three passes record usages: over the literals of programs, over those of the fragments of templates, and
over the matches of text patterns. All of them leave exact ranges of quoted literals, and keys that the
index lists.

* `quotes_of_mem_references`, `quotes_of_mem_templateReferences`, `quotes_of_mem_textReferences`:
  what each pass finds is a quoted literal of its text;
* `Index.sound_of_mem_usages`: every usage of an index, behind any row of refreshes.
-/

import ArtifactIndex.Proofs.Code.Source
import ArtifactIndex.Proofs.Reference.QuotedKeys
import ArtifactIndex.Proofs.Template.Fragments
import ArtifactIndex.Proofs.Text.Lines
import ArtifactIndex.Proofs.Usage.Keys
import ArtifactIndex.Tree.Memory

namespace ArtifactIndex

/-! ### What a slice means -/

namespace Artifacts

/-- The value of a literal means the artifact, in some role. -/
def MeantByValue (artifacts : Artifacts) (literal : String) (resolved : Resolved) : Prop :=
  ∃ value, Literal.unquote? literal = some value ∧
    ∃ classified, artifacts.resolve? classified value = some resolved

/-- The text between the quotes means the artifact, to some helper. -/
def MeantByText (artifacts : Artifacts) (body : List Char) (resolved : Resolved) : Prop :=
  ∃ helper, artifacts.resolveRoute? helper (String.ofList body) = some resolved

/-- A quoted literal in a file means the artifact, to one of the passes over files of its category. -/
def MeantIn (artifacts : Artifacts) (literal : String) (body : List Char) (resolved : Resolved) :
    FileCategory → Prop
  | .php => artifacts.MeantByValue literal resolved
  | .blade => artifacts.MeantByValue literal resolved ∨ artifacts.MeantByText body resolved
  | .script => artifacts.MeantByText body resolved

end Artifacts

/-- The range holds a quoted literal of the text, of which something is true. -/
structure Span.Quotes (text : String) (holds : String → List Char → Prop) (span : Span) : Prop where
  ordered : span.start < span.stop
  inside : span.stop ≤ byteLength text
  literal : ∃ slice body, slice? text span.start span.stop = some slice ∧ IsQuoted slice body ∧
    holds slice body

theorem Span.Quotes.imp {text : String} {holds more : String → List Char → Prop} {span : Span}
    (quotes : span.Quotes text holds) (weaker : ∀ slice body, holds slice body → more slice body) :
    span.Quotes text more := by
  obtain ⟨slice, body, isSlice, isQuoted, held⟩ := quotes.literal
  exact ⟨quotes.ordered, quotes.inside, slice, body, isSlice, isQuoted, weaker slice body held⟩

/-! ### The three passes -/

section Passes

variable {artifacts : Artifacts} {file text : String} {reference : Reference}

/-- **References in code** are literals of it, and their values mean what they refer to. -/
theorem quotes_of_mem_references {root : Node} {directive markupAttribute : Option String}
    (isTree : root.IsTreeOf text)
    (isReference : reference ∈ root.references artifacts file directive markupAttribute) :
    reference.span.Quotes text fun slice _ => artifacts.MeantByValue slice reference.resolved := by
  obtain ⟨place, listed, context, classified, known, -, resolves, same⟩ :=
    Node.mem_references.mp isReference
  obtain ⟨value, hasValue, rfl⟩ := Option.map_eq_some_iff.mp known
  obtain ⟨ordered, inside, slice, body, isSlice, isQuoted, isValue⟩ :=
    isTree.exact_of_mem_literals listed hasValue
  rw [same]
  exact ⟨ordered, inside, slice, body, isSlice, isQuoted, value, isValue, classified, resolves⟩

/-- **References in templates** stand in the template as they do in the program of their fragment. -/
theorem quotes_of_mem_templateReferences
    (isReference : reference ∈ templateReferences artifacts file text) :
    reference.span.Quotes text fun slice _ => artifacts.MeantByValue slice reference.resolved := by
  obtain ⟨fragment, isFragment, span, inCode, mapped⟩ := mem_templateReferences isReference
  have quotes := quotes_of_mem_references (Node.isTreeOf_ofSource _) inCode
  have cut := cutFrom_of_mem_fragments isFragment
  have same := cut.slice?_eq mapped (Nat.le_of_lt quotes.ordered)
  obtain ⟨slice, body, isSlice, isQuoted, meant⟩ := quotes.literal
  refine ⟨?_, cut.stop_le mapped, slice, body, same.trans isSlice, isQuoted, meant⟩
  obtain ⟨first, last⟩ := Fragment.spanInTemplate?_eq_some.mp mapped
  obtain ⟨⟨startAhead, _⟩, start⟩ := Fragment.toTemplate?_eq_some.mp first
  obtain ⟨_, stop⟩ := Fragment.toTemplate?_eq_some.mp last
  have ordered : span.start < span.stop := quotes.ordered
  omega

/-- **References found by text patterns** are keys in quotes that mean a route. -/
theorem quotes_of_mem_textReferences {table : List Pattern}
    (quoted : ∀ pattern ∈ table, Pattern.quotesKey pattern.parts = true)
    (isReference : reference ∈ textReferences artifacts table text) :
    reference.span.Quotes text fun _ body => artifacts.MeantByText body reference.resolved := by
  obtain ⟨found, isFound, resolves, same⟩ := mem_textReferences isReference
  obtain ⟨ordered, inside, slice, isSlice, isQuoted⟩ := Pattern.quoted_of_mem_findAll quoted isFound
  rw [same]
  refine ⟨ordered, inside, slice, _, isSlice, isQuoted, found.helper, ?_⟩
  rw [String.ofList_toList]
  exact resolves

/-- **All references of a file** are quoted literals of its text. -/
theorem quotes_of_mem_fileReferences {category : FileCategory}
    (isReference : reference ∈ fileReferences artifacts file text category) :
    reference.span.Quotes text fun slice body =>
      artifacts.MeantIn slice body reference.resolved category := by
  cases category with
  | php => exact quotes_of_mem_references (Node.isTreeOf_ofSource _) isReference
  | blade =>
    rcases List.mem_append.mp isReference with inCode | inText
    · exact (quotes_of_mem_templateReferences inCode).imp fun _ _ => Or.inl
    · exact (quotes_of_mem_textReferences Pattern.quotesKey_of_mem_templateTable inText).imp
        fun _ _ => Or.inr
  | script => exact quotes_of_mem_textReferences (Pattern.quotesKey_of_mem_tableFor file) isReference

end Passes

/-! ### Usages of an index -/

/-- **A sound usage.** Its key is listed, and it stands in one of the project's own files, at the exact
range of a quoted literal that means the key. -/
structure Usage.Sound (index : Index) (tree : Tree) (kind : Kind) (key : String) (usage : Usage) :
    Prop where
  listed : key ∈ index.keys kind
  own : usage.file ∈ tree.ownFiles
  sameFile : usage.site.file = usage.file
  sameLine : usage.line = usage.site.line
  exact : ∃ category text, FileCategory.of? usage.file = some category ∧
    tree.read usage.file = .ok text ∧ usage.site.line = newlinesBefore text usage.site.start ∧
    Span.Quotes text
      (fun slice body => index.artifacts.MeantIn slice body ⟨kind, key, usage.usageKind⟩ category)
      ⟨usage.site.start, usage.site.stop⟩

namespace Index

theorem mem_keys_of_meantByText {index : Index} {body : List Char} {resolved : Resolved}
    (normal : ∀ route ∈ index.artifacts.routes.routes, Route.NormalPath route.path)
    (meant : index.artifacts.MeantByText body resolved) : resolved.key ∈ index.keys resolved.kind := by
  obtain ⟨helper, resolves⟩ := meant
  exact mem_keys_of_resolveRoute? normal resolves

theorem mem_keys_of_meantByValue {index : Index} {literal : String} {resolved : Resolved}
    (normal : ∀ route ∈ index.artifacts.routes.routes, Route.NormalPath route.path)
    (meant : index.artifacts.MeantByValue literal resolved) :
    resolved.key ∈ index.keys resolved.kind := by
  obtain ⟨value, -, classified, resolves⟩ := meant
  exact mem_keys_of_resolve? normal resolves

/-- What a literal means is listed. -/
theorem mem_keys_of_meantIn {index : Index} {category : FileCategory} {literal : String}
    {body : List Char} {resolved : Resolved}
    (normal : ∀ route ∈ index.artifacts.routes.routes, Route.NormalPath route.path)
    (meant : index.artifacts.MeantIn literal body resolved category) :
    resolved.key ∈ index.keys resolved.kind := by
  cases category with
  | php => exact mem_keys_of_meantByValue normal meant
  | blade =>
    rcases meant with byValue | byText
    · exact mem_keys_of_meantByValue normal byValue
    · exact mem_keys_of_meantByText normal byText
  | script => exact mem_keys_of_meantByText normal meant

/-- The usages of a search of the tree are sound, when no route has an empty path. -/
theorem sound_of_scanned {index : Index} {tree : Tree} {kind : Kind} {key : String} {usage : Usage}
    (normal : ∀ route ∈ index.artifacts.routes.routes, Route.NormalPath route.path)
    (isStored : ⟨kind, key, usage⟩ ∈ (scanUsages tree index.artifacts).1.records) :
    usage.Sound index tree kind key := by
  obtain ⟨file, isOwn, category, text, known, read, reference, isReference, isRecord⟩ :=
    mem_records_scanUsages isStored
  cases isRecord
  have quotes := quotes_of_mem_fileReferences isReference
  obtain ⟨slice, body, -, -, meant⟩ := quotes.literal
  refine ⟨mem_keys_of_meantIn normal meant, isOwn, rfl, rfl, category, text, known, read, ?_, quotes⟩
  exact LineTable.lineOf_ofText text reference.span.start

/-- **Soundness of recorded usages.** Behind a refresh, and whatever was refreshed before, every usage
stored under a kind and a key is sound. -/
theorem sound_of_mem_usages (strictJson : Bool) (earlier : List Tree) (tree : Tree) {kind : Kind}
    {key : String} {usage : Usage}
    (isStored : usage ∈
      ((earlier.foldl refresh (empty strictJson)).refresh tree).usageTable.get kind key) :
    usage.Sound ((earlier.foldl refresh (empty strictJson)).refresh tree) tree kind key := by
  have normal := (normalPaths_refresh (normalPaths_foldl strictJson earlier) tree).1
  exact sound_of_scanned normal (UsageTable.mem_get.mp isStored)

/-- A template that includes itself. -/
theorem sound_of_mem_usages_include :
    let file := "resources/views/a.blade.php"
    let tree := (MemoryFiles.mk ⟨[(file, "@include('a')")]⟩).toTree
    let index := (Index.empty false).refresh tree
    let usage : Usage := ⟨file, 0, { file, line := 0, start := 9, stop := 12 }, .name⟩
    usage ∈ index.usageTable.get .view "a" ∧ usage.Sound index tree .view "a" := by
  intro file tree index usage
  have isStored : usage ∈ index.usageTable.get .view "a" := by decide +kernel
  exact ⟨isStored, sound_of_mem_usages false [] tree isStored⟩

end Index

end ArtifactIndex
