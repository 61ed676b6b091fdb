/-
**The cursor and the search for usages agree.**

Usages are found by listing the literals of a tree; the literal under a cursor is found by its position,
in a template by that of the first fragment around it. Both read the same literal, in the same context:

* `Index.literalInProgram?_of_mem`, `Index.literalInTemplate?_of_mem`: over each offset of a reference,
  its literal is found;
* `Index.classifyAt_eq_usage`: over each offset of a usage that the syntax of a file gives, the usage's
  artifact and site are answered.
-/

import ArtifactIndex.Cursor
import ArtifactIndex.Proofs.Code.Source
import ArtifactIndex.Proofs.Template.Fragments
import ArtifactIndex.Proofs.Usage.Passes
import ArtifactIndex.Tree.Memory

namespace ArtifactIndex

/-- The literal is classified, and means the given artifact. -/
def LocatedLiteral.Means (artifacts : Artifacts) (literal : LocatedLiteral) (resolved : Resolved) :
    Prop :=
  ∃ classified, literal.classified = some classified ∧
    artifacts.resolve? classified literal.value = some resolved

/-- An artifact is of the kind that its reference is classified as. -/
theorem Artifacts.kind_of_resolve? {artifacts : Artifacts} {classified : Classified} {value : String}
    {resolved : Resolved} (resolves : artifacts.resolve? classified value = some resolved) :
    resolved.kind = classified.kind := by
  obtain ⟨helper, rfl, found⟩ | ⟨role, rfl, -, rfl⟩ | ⟨view, rfl, -, rfl⟩ | ⟨asset, rfl, -, rfl⟩ :=
    resolve?_eq_some resolves
  · obtain ⟨route, -, rfl⟩ := Option.map_eq_some_iff.mp found
    rfl
  · rfl
  · rfl
  · rfl

namespace Index

variable {index : Index} {file : String} {offset : Nat}

/-- The key of a literal that means an artifact is the artifact's. -/
theorem keyFor?_eq_some {classified : Classified} {value : String} {resolved : Resolved}
    (resolves : index.artifacts.resolve? classified value = some resolved) :
    index.keyFor? classified value = some resolved.key := by
  fun_cases index.keyFor? classified value with
  | case1 => cases resolves
  | case2 =>
    rw [resolves]
    rfl

/-- What is known of a literal that means an artifact. -/
theorem classification?_of_means {literal : LocatedLiteral} {resolved : Resolved} (tree : Tree)
    (means : literal.Means index.artifacts resolved) :
    ∃ found, index.classification? tree literal = some found ∧ found.kind = resolved.kind ∧
      found.key = some resolved.key ∧ found.site = literal.site := by
  obtain ⟨classified, isClassified, resolves⟩ := means
  rw [classification?, isClassified]
  exact ⟨_, rfl, (Artifacts.kind_of_resolve? resolves).symm, keyFor?_eq_some resolves, rfl⟩

/-! ### Programs -/

/-- Over each offset of a reference in code, its literal is found, in its context. -/
theorem literalInCode?_of_mem {source : String} {directive markupAttribute : Option String}
    {reference : Reference}
    (isReference : reference ∈
      codeReferences index.artifacts file source directive markupAttribute)
    (covered : reference.span.covers offset) :
    ∃ context classified,
      index.literalInCode? file source directive markupAttribute offset =
          some (context, some classified) ∧
        index.artifacts.resolve? classified context.value = some reference.resolved ∧
        context.place.node.span = reference.span := by
  obtain ⟨place, listed, context, classified, known, isClassified, resolves, same⟩ :=
    Node.mem_references.mp isReference
  obtain ⟨value, hasValue, rfl⟩ := Option.map_eq_some_iff.mp known
  rw [same] at covered
  refine ⟨_, classified, ?_, resolves, same.symm⟩
  rw [literalInCode?, (Node.isTreeOf_ofSource source).literalAt?_eq_some listed hasValue covered]
  show Option.map _ (LiteralContext.of? place file directive markupAttribute) = _
  rw [known, Option.map_some, isClassified]

/-- **The cursor in a program.** -/
theorem literalInProgram?_of_mem {text : String} {reference : Reference}
    (isReference : reference ∈ codeReferences index.artifacts file text none none)
    (covered : reference.span.covers offset) :
    ∃ literal, index.literalInProgram? file text offset = some literal ∧
      literal.Means index.artifacts reference.resolved ∧
      literal.site = (Origin.ofText file text).site reference.span := by
  obtain ⟨context, classified, found, resolves, same⟩ := literalInCode?_of_mem isReference covered
  rw [literalInProgram?, found]
  refine ⟨_, rfl, ⟨classified, rfl, resolves⟩, ?_⟩
  show (Origin.ofText file text).site context.place.node.span = _
  rw [same]

/-! ### Templates -/

/-- No literal is found in a fragment that ends before the offset. -/
theorem literalInFragment?_eq_none {text : String} {fragment : Fragment}
    (behind : fragment.start + fragment.length < offset) :
    index.literalInFragment? file text offset fragment = none := by
  have outside : fragment.toCode? offset = none := if_neg (by omega)
  rw [literalInFragment?, outside]

/-- Over each offset of a reference in a fragment, its literal is found there. -/
theorem literalInFragment?_of_mem {text : String} {fragment : Fragment} {span inTemplate : Span}
    {resolved : Resolved}
    (isReference : ⟨resolved, span⟩ ∈ codeReferences index.artifacts file fragment.code
      fragment.directive fragment.markupAttribute)
    (mapped : fragment.spanInTemplate? span = some inTemplate)
    (covered : inTemplate.covers offset) :
    ∃ literal, index.literalInFragment? file text offset fragment = some literal ∧
      literal.Means index.artifacts resolved ∧
      literal.site = (Origin.ofText file text).site inTemplate := by
  obtain ⟨first, last⟩ := Fragment.spanInTemplate?_eq_some.mp mapped
  obtain ⟨⟨startAhead, _⟩, start⟩ := Fragment.toTemplate?_eq_some.mp first
  obtain ⟨⟨_, stopInside⟩, stop⟩ := Fragment.toTemplate?_eq_some.mp last
  rw [Span.covers_iff] at covered
  have inCode : fragment.toCode? offset = some (fragment.lead + (offset - fragment.start)) :=
    if_pos (by omega)
  have coveredInCode : span.covers (fragment.lead + (offset - fragment.start)) := by
    rw [Span.covers_iff]
    omega
  obtain ⟨context, classified, found, resolves, same⟩ :=
    literalInCode?_of_mem isReference coveredInCode
  have same : context.place.node.span = span := same
  rw [literalInFragment?, inCode]
  simp only [found, Option.map_some]
  refine ⟨_, rfl, ⟨classified, rfl, resolves⟩, ?_⟩
  simp only [same, first, last, Option.getD_some]

/-- **The cursor in a template.** The fragments before that of the reference end before it, so the
first one that is found is that of the reference. -/
theorem literalInTemplate?_of_mem {text : String} {reference : Reference}
    (isReference : reference ∈ templateReferences index.artifacts file text)
    (covered : reference.span.covers offset) :
    ∃ literal, index.literalInTemplate? file text offset = some literal ∧
      literal.Means index.artifacts reference.resolved ∧
      literal.site = (Origin.ofText file text).site reference.span := by
  obtain ⟨fragment, isFragment, span, inCode, mapped⟩ := mem_templateReferences isReference
  obtain ⟨literal, found, means, site⟩ := literalInFragment?_of_mem inCode mapped covered
  refine ⟨literal, ?_, means, site⟩
  obtain ⟨earlier, later, split⟩ := List.append_of_mem isFragment
  have apart := pairwise_fragments text
  rw [split, List.pairwise_append] at apart
  have start := (Fragment.toTemplate?_eq_some.mp (Fragment.spanInTemplate?_eq_some.mp mapped).1).2
  rw [Span.covers_iff] at covered
  have noneEarlier : earlier.findSome? (index.literalInFragment? file text offset) = none := by
    rw [List.findSome?_eq_none_iff]
    intro other isEarlier
    have := apart.2.2 other isEarlier fragment List.mem_cons_self
    exact literalInFragment?_eq_none (by omega)
  rw [literalInTemplate?, split, List.findSome?_append, noneEarlier, Option.none_or,
    List.findSome?_cons, found]

/-! ### Usages -/

/-- The references that the syntax of a file gives. -/
def syntaxReferences (artifacts : Artifacts) (file text : String) : FileCategory → List Reference
  | .php => codeReferences artifacts file text none none
  | .blade => templateReferences artifacts file text
  | .script => []

/-- The syntax of its file gives the usage: that of a program gives all of them, that of a template those
in its fragments. -/
def GivenBySyntax (index : Index) (tree : Tree) (record : UsageRecord) : Prop :=
  let file := record.usage.file
  FileCategory.of? file = some .php ∨
    FileCategory.of? file = some .blade ∧
      ∃ text, tree.read file = .ok text ∧
        ∃ reference ∈ templateReferences index.artifacts file text,
          reference.record (Origin.ofText file text) = record

/-- Over each offset of a reference that the syntax of a file gives, its literal is found. -/
theorem literalAt_of_mem {tree : Tree} {category : FileCategory} {text : String}
    {reference : Reference} (known : FileCategory.of? file = some category)
    (read : tree.read file = .ok text)
    (isReference : reference ∈ syntaxReferences index.artifacts file text category)
    (covered : reference.span.covers offset) :
    ∃ literal, index.literalAt tree file offset = .ok (some literal) ∧
      literal.Means index.artifacts reference.resolved ∧
      literal.site = (Origin.ofText file text).site reference.span := by
  rw [literalAt, known, read]
  cases category with
  | php =>
    obtain ⟨literal, found, agrees⟩ := literalInProgram?_of_mem isReference covered
    exact ⟨literal, congrArg Except.ok found, agrees⟩
  | blade =>
    obtain ⟨literal, found, agrees⟩ := literalInTemplate?_of_mem isReference covered
    exact ⟨literal, congrArg Except.ok found, agrees⟩
  | script => cases isReference

/-- What is known of the literal at an offset, when that literal means an artifact. -/
theorem classifyAt_of_literalAt {tree : Tree} {literal : LocatedLiteral} {resolved : Resolved}
    (found : index.literalAt tree file offset = .ok (some literal))
    (means : literal.Means index.artifacts resolved) :
    ∃ answer, index.classifyAt tree file offset = .ok (some answer) ∧ answer.kind = resolved.kind ∧
      answer.key = some resolved.key ∧ answer.site = literal.site := by
  obtain ⟨answer, known, kind, key, site⟩ := classification?_of_means tree means
  refine ⟨answer, ?_, kind, key, site⟩
  rw [classifyAt, found]
  exact congrArg Except.ok known

/-- A usage that the syntax of its file gives is that of one of the references in it. -/
theorem exists_syntaxReference {tree : Tree} {record : UsageRecord}
    (isStored : record ∈ (scanUsages tree index.artifacts).1.records)
    (bySyntax : index.GivenBySyntax tree record) :
    ∃ file category text, FileCategory.of? file = some category ∧ tree.read file = .ok text ∧
      ∃ reference ∈ syntaxReferences index.artifacts file text category,
        reference.record (Origin.ofText file text) = record := by
  obtain ⟨file, -, category, text, known, read, reference, isReference, rfl⟩ :=
    mem_records_scanUsages isStored
  rcases bySyntax with isProgram | ⟨isTemplate, text, read, found, isFound, same⟩
  · cases known.symm.trans isProgram
    exact ⟨file, .php, text, known, read, reference, isReference, rfl⟩
  · exact ⟨file, .blade, text, isTemplate, read, found, isFound, same⟩

/-- **The cursor agrees with the usages.** Behind a refresh, over each offset of a usage that the syntax
of its file gives, the answer is the usage's kind, key and site. -/
theorem classifyAt_eq_usage (index : Index) (tree : Tree) (offset : Nat) {kind : Kind} {key : String}
    {usage : Usage} (isStored : usage ∈ (index.refresh tree).usageTable.get kind key)
    (bySyntax : (index.refresh tree).GivenBySyntax tree ⟨kind, key, usage⟩)
    (startsBefore : usage.site.start ≤ offset) (endsBehind : offset < usage.site.stop) :
    ∃ answer, (index.refresh tree).classifyAt tree usage.file offset = .ok (some answer) ∧
      answer.kind = kind ∧ answer.key = some key ∧ answer.site = usage.site := by
  have scanned : (index.refresh tree).usageTable =
      (scanUsages tree (index.refresh tree).artifacts).1 := rfl
  rw [UsageTable.mem_get, scanned] at isStored
  obtain ⟨file, category, text, known, read, reference, isReference, isRecord⟩ :=
    exists_syntaxReference isStored bySyntax
  cases isRecord
  obtain ⟨literal, found, means, site⟩ := literalAt_of_mem known read isReference
    (Span.covers_iff.mpr ⟨startsBefore, endsBehind⟩)
  obtain ⟨answer, answered, isKind, isKey, isSite⟩ := classifyAt_of_literalAt found means
  exact ⟨answer, answered, isKind, isKey, isSite.trans site⟩

/-- A template that includes itself, with the cursor in the name of the included one. -/
theorem classifyAt_eq_usage_include :
    let file := "resources/views/a.blade.php"
    let template := "@include('a')"
    let tree := (MemoryFiles.mk ⟨[(file, template)]⟩).toTree
    let index := (Index.empty false).refresh tree
    let usage : Usage := ⟨file, 0, { file, line := 0, start := 9, stop := 12 }, .name⟩
    usage ∈ index.usageTable.get .view "a" ∧ index.GivenBySyntax tree ⟨.view, "a", usage⟩ ∧
      ∃ answer, index.classifyAt tree file 10 = .ok (some answer) ∧ answer.kind = .view ∧
        answer.key = some "a" ∧ answer.site = usage.site := by
  intro file template tree index usage
  -- Both are read off one scan.
  obtain ⟨isStored, isFound⟩ : usage ∈ index.usageTable.get .view "a" ∧
      ⟨⟨.view, "a", .name⟩, ⟨9, 12⟩⟩ ∈ templateReferences index.artifacts file template := by decide +kernel
  have isTemplate : FileCategory.of? file = some .blade := by decide +kernel
  have read : tree.read file = .ok template := by decide +kernel
  have isLine : (LineTable.ofText template).lineOf 9 = 0 := by decide +kernel
  have bySyntax : index.GivenBySyntax tree ⟨.view, "a", usage⟩ := by
    refine Or.inr ⟨isTemplate, template, read, _, isFound, ?_⟩
    simp only [Reference.record, Origin.site, Origin.ofText, isLine]
    rfl
  have answered := classifyAt_eq_usage (.empty false) tree 10 isStored bySyntax (by decide)
    (by decide)
  exact ⟨isStored, bySyntax, answered⟩

end Index

end ArtifactIndex
