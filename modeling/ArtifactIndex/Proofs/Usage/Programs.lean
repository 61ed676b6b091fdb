/-
**Usages in programs.**

In a program the range of a usage is that of one literal, and the literal has one meaning at most. So a
usage leads back to its literal by its site alone.

* `Artifacts.Means`: what a literal means in its surroundings;
* `means_of_mem_get`: a usage over the range of a literal is what that literal means;
* `exists_usage_of_means`: and what a literal means is recorded over its range.
-/

import ArtifactIndex.Proofs.Code.Places
import ArtifactIndex.Proofs.Code.Source
import ArtifactIndex.Proofs.Usage.Passes

namespace ArtifactIndex

variable {artifacts : Artifacts} {file source text : String} {directive markupAttribute : Option String}
  {place : Place}

/-- **The meaning of a literal** of a program in a file, by its place in the program and by the template
around the program: the literal is classified, and resolved to an artifact. -/
def Artifacts.Means (artifacts : Artifacts) (file : String) (directive markupAttribute : Option String)
    (place : Place) (resolved : Resolved) : Prop :=
  ∃ context classified, LiteralContext.of? place file directive markupAttribute = some context ∧
    classify? artifacts.translations.contains context = some classified ∧
    artifacts.resolve? classified context.value = some resolved

/-- A literal that means something has a value. -/
theorem Artifacts.Means.exists_value {resolved : Resolved}
    (means : artifacts.Means file directive markupAttribute place resolved) :
    ∃ value, place.node.literal? = some value := by
  obtain ⟨context, -, isContext, -⟩ := means
  obtain ⟨value, isValue, -⟩ := Option.map_eq_some_iff.mp isContext
  exact ⟨value, isValue⟩

theorem mem_codeReferences_iff_means {reference : Reference} :
    reference ∈ codeReferences artifacts file source directive markupAttribute ↔
      ∃ place ∈ (Node.ofSource source).literals,
        artifacts.Means file directive markupAttribute place reference.resolved ∧
          reference.span = place.node.span := by
  rw [codeReferences, Node.mem_references]
  constructor
  · rintro ⟨place, listed, context, classified, known, isClassified, resolves, same⟩
    exact ⟨place, listed, ⟨context, classified, known, isClassified, resolves⟩, same⟩
  · rintro ⟨place, listed, ⟨context, classified, known, isClassified, resolves⟩, same⟩
    exact ⟨place, listed, context, classified, known, isClassified, resolves, same⟩

theorem Origin.span_eq_of_site_eq {origin other : Origin} {first second : Span}
    (same : origin.site first = other.site second) : first = second := by
  injection same with _ _ start stop
  cases first
  cases second
  exact congrArg₂ Span.mk start stop

/-- **A usage over the range of a literal** is what that literal means. -/
theorem means_of_mem_get {tree : Tree} {kind : Kind} {key : String} {usage : Usage}
    (isProgram : FileCategory.of? file = some .php) (isRead : tree.read file = .ok text)
    (isLiteral : place ∈ (Node.ofSource text).literals)
    (isStored : usage ∈ (scanUsages tree artifacts).1.get kind key)
    (atLiteral : usage.site = (Origin.ofText file text).site place.node.span) :
    artifacts.Means file none none place ⟨kind, key, usage.usageKind⟩ := by
  obtain ⟨other, -, category, otherText, known, read, reference, isReference, isRecord⟩ :=
    mem_records_scanUsages (UsageTable.mem_get.mp isStored)
  cases isRecord
  have sameFile : other = file := congrArg Site.file atLiteral
  subst sameFile
  cases known.symm.trans isProgram
  cases read.symm.trans isRead
  obtain ⟨found, isFound, means, sameSpan⟩ := mem_codeReferences_iff_means.mp isReference
  obtain ⟨value, hasValue⟩ := means.exists_value
  have overLiteral : place.node.span = found.node.span :=
    (Origin.span_eq_of_site_eq atLiteral).symm.trans sameSpan
  rw [(Node.isTreeOf_ofSource text).eq_of_span_eq isLiteral isFound hasValue overLiteral]
  exact means

/-- **What a literal means is recorded**, over the range of the literal. -/
theorem exists_usage_of_means {tree : Tree} {resolved : Resolved}
    (isProgram : FileCategory.of? file = some .php) (isOwn : file ∈ tree.ownFiles)
    (isRead : tree.read file = .ok text) (isLiteral : place ∈ (Node.ofSource text).literals)
    (means : artifacts.Means file none none place resolved) :
    ∃ usage ∈ (scanUsages tree artifacts).1.get resolved.kind resolved.key,
      usage.site = (Origin.ofText file text).site place.node.span := by
  have isReference : ⟨resolved, place.node.span⟩ ∈ codeReferences artifacts file text none none :=
    mem_codeReferences_iff_means.mpr ⟨place, isLiteral, means, rfl⟩
  have scanned : (scanUsagesOf tree artifacts file).1 = fileUsages artifacts file text .php := by
    rw [scanUsagesOf, isProgram]
    simp only [Tree.scan, isRead]
  have isRecord : Reference.record (Origin.ofText file text) ⟨resolved, place.node.span⟩ ∈
      (scanUsages tree artifacts).1.records := by
    refine List.mem_flatMap.mpr ⟨_, List.mem_map_of_mem isOwn, ?_⟩
    rw [scanned]
    exact List.mem_map_of_mem isReference
  exact ⟨_, UsageTable.mem_get.mpr isRecord, rfl⟩

end ArtifactIndex
