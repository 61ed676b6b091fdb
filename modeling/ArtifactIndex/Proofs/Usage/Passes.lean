/-
**What the passes record.**

Each record of the table of usages leads back to the pass that made it: to a file of the project, a
reference in the file's text, and, for a reference in code, the literal that was resolved.

* `mem_records_scanUsages`: a record is that of a reference in one of the project's files;
* `Node.mem_references`, `mem_templateReferences`, `mem_textReferences`: what each way of searching
  finds;
* `Artifacts.resolve?_eq_some`: how a classified literal is resolved.
-/

import ArtifactIndex.Index

namespace ArtifactIndex

/-! ### Records -/

/-- The usages of a key are those of its records. -/
theorem UsageTable.mem_get {table : UsageTable} {kind : Kind} {key : String} {usage : Usage} :
    usage ∈ table.get kind key ↔ ⟨kind, key, usage⟩ ∈ table.records := by
  rw [get, Usage.inOrder, mem_sortBy, List.mem_map]
  constructor
  · rintro ⟨record, isKept, rfl⟩
    obtain ⟨isMember, same⟩ := List.mem_filter.mp isKept
    rw [Bool.and_eq_true, beq_iff_eq, beq_iff_eq] at same
    obtain ⟨rfl, rfl⟩ := same
    exact isMember
  · intro isMember
    refine ⟨_, List.mem_filter.mpr ⟨isMember, ?_⟩, rfl⟩
    rw [Bool.and_eq_true]
    exact ⟨beq_self_eq_true kind, beq_self_eq_true key⟩

/-- Leaving out repeated usages adds none. -/
theorem sublist_withoutRepeats (records : List UsageRecord) :
    List.Sublist (withoutRepeats records) records := by
  induction records with
  | nil => exact .slnil
  | cons record rest ih => exact (List.filter_sublist.trans ih).cons_cons record

/-- The usages of a file are those of its references. -/
theorem exists_reference {artifacts : Artifacts} {file text : String} {category : FileCategory}
    {record : UsageRecord} (isMember : record ∈ fileUsages artifacts file text category) :
    ∃ reference ∈ fileReferences artifacts file text category,
      reference.record (Origin.ofText file text) = record := by
  have isFound : record ∈ (fileReferences artifacts file text category).map
      (Reference.record (Origin.ofText file text)) := by
    cases category with
    | php => exact isMember
    | blade => exact (sublist_withoutRepeats _).subset isMember
    | script => exact (sublist_withoutRepeats _).subset isMember
  exact List.mem_map.mp isFound

/-- **Where a record comes from.** It is that of a reference in a readable file of the project. -/
theorem mem_records_scanUsages {tree : Tree} {artifacts : Artifacts} {record : UsageRecord}
    (isMember : record ∈ (scanUsages tree artifacts).1.records) :
    ∃ file ∈ tree.ownFiles, ∃ category text, FileCategory.of? file = some category ∧
      tree.read file = .ok text ∧
      ∃ reference ∈ fileReferences artifacts file text category,
        reference.record (Origin.ofText file text) = record := by
  obtain ⟨scan, isScan, isRecord⟩ := List.mem_flatMap.mp isMember
  obtain ⟨file, isOwn, rfl⟩ := List.mem_map.mp isScan
  revert isRecord
  fun_cases scanUsagesOf tree artifacts file with
  | case1 => nofun
  | case2 => nofun
  | case3 category known text counts scanned =>
    intro isRecord
    exact ⟨file, isOwn, category, text, known, Tree.read_of_scan scanned, exists_reference isRecord⟩

/-! ### References -/

/-- **How a literal is resolved.** Through a helper, or in the table of its kind. -/
theorem Artifacts.resolve?_eq_some {artifacts : Artifacts} {classified : Classified} {value : String}
    {resolved : Resolved} (resolves : artifacts.resolve? classified value = some resolved) :
    (∃ helper, classified = .route (.reference helper) ∧
      artifacts.resolveRoute? helper value = some resolved) ∨
    (∃ role, classified = .translation role ∧ artifacts.translations.contains value = true ∧
      resolved = ⟨.translation, value, .name⟩) ∨
    (∃ view, classified = .view ∧ artifacts.views.resolve? value = some view ∧
      resolved = ⟨.view, view.name, .name⟩) ∨
    ∃ asset, classified = .asset ∧ artifacts.assets.resolve? value = some asset ∧
      resolved = ⟨.asset, asset.name, .path⟩ := by
  revert resolves
  fun_cases artifacts.resolve? classified value with
  | case1 => nofun
  | case2 helper => exact fun resolves => .inl ⟨helper, rfl, resolves⟩
  | case3 => nofun
  | case4 role _ declared =>
    rintro ⟨⟩
    exact .inr (.inl ⟨role, rfl, declared, rfl⟩)
  | case5 => nofun
  | case6 =>
    intro resolves
    obtain ⟨view, isView, rfl⟩ := Option.map_eq_some_iff.mp resolves
    exact .inr (.inr (.inl ⟨view, rfl, isView, rfl⟩))
  | case7 =>
    intro resolves
    obtain ⟨asset, isAsset, rfl⟩ := Option.map_eq_some_iff.mp resolves
    exact .inr (.inr (.inr ⟨asset, rfl, isAsset, rfl⟩))

/-- The references in code are its literals that are classified and mean something. -/
theorem Node.mem_references {artifacts : Artifacts} {root : Node} {file : String}
    {directive markupAttribute : Option String} {reference : Reference} :
    reference ∈ root.references artifacts file directive markupAttribute ↔
      ∃ place ∈ root.literals, ∃ context classified,
        LiteralContext.of? place file directive markupAttribute = some context ∧
          classify? artifacts.translations.contains context = some classified ∧
          artifacts.resolve? classified context.value = some reference.resolved ∧
          reference.span = place.node.span := by
  rw [references, List.mem_filterMap]
  refine exists_congr fun place => and_congr_right fun _ => ?_
  constructor
  · intro found
    split at found
    · cases found
    · next context known =>
      split at found
      · cases found
      · next classified isClassified =>
        obtain ⟨resolved, resolves, rfl⟩ := Option.map_eq_some_iff.mp found
        exact ⟨context, classified, known, isClassified, resolves, rfl⟩
  · rintro ⟨context, classified, known, isClassified, resolves, same⟩
    rw [known]
    simp only [isClassified, resolves, Option.map_some, ← same]

/-- The references in a template are those of its fragments, with their ranges in the template. -/
theorem mem_templateReferences {artifacts : Artifacts} {file template : String}
    {reference : Reference} (isMember : reference ∈ templateReferences artifacts file template) :
    ∃ fragment ∈ fragments template, ∃ span,
      ⟨reference.resolved, span⟩ ∈ codeReferences artifacts file fragment.code fragment.directive
          fragment.markupAttribute ∧
        fragment.spanInTemplate? span = some reference.span := by
  obtain ⟨fragment, isFragment, isFound⟩ := List.mem_flatMap.mp isMember
  obtain ⟨inCode, isReference, mapped⟩ := List.mem_filterMap.mp isFound
  obtain ⟨span, isSpan, rfl⟩ := Option.map_eq_some_iff.mp mapped
  exact ⟨fragment, isFragment, inCode.span, isReference, isSpan⟩

/-- The references of text patterns are the found keys that mean a route, with their quotes. -/
theorem mem_textReferences {artifacts : Artifacts} {table : List Pattern} {text : String}
    {reference : Reference} (isMember : reference ∈ textReferences artifacts table text) :
    ∃ found ∈ Pattern.findAll table text,
      artifacts.resolveRoute? found.helper found.key = some reference.resolved ∧
        reference.span = ⟨found.span.start - 1, found.span.stop + 1⟩ := by
  obtain ⟨found, isFound, mapped⟩ := List.mem_filterMap.mp isMember
  obtain ⟨resolved, resolves, rfl⟩ := Option.map_eq_some_iff.mp mapped
  exact ⟨found, isFound, resolves, rfl⟩

end ArtifactIndex
