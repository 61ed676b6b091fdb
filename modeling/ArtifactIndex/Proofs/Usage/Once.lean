/-
**References are recorded once.**

Templates are searched twice, by the literals of their code and by text patterns, and several patterns
find the same call. What is found again on a line is left out, and nothing else is. In a program each
literal is looked at once, and the literals stand apart.

* `Artifacts.Mentions`: what the passes over a template or a script find on its lines;
* `mention_fileUsages`: each of it is recorded once;
* `nodup_site_fileUsages`: the usages in a program have sites of their own;
* `Index.recordsOnce_refresh`: the stored usages of a project.
-/

import ArtifactIndex.Proofs.Text.Lines
import ArtifactIndex.Proofs.Tree.Listing
import ArtifactIndex.Proofs.Usage.Programs
import ArtifactIndex.Proofs.Usage.Storage

namespace ArtifactIndex

/-! ### Mentions -/

/-- A reference to an artifact on a line. -/
structure Mention where
  line : Nat
  resolved : Resolved
deriving DecidableEq

/-- What a usage says, apart from its place on the line. -/
def UsageRecord.mention (record : UsageRecord) : Mention :=
  ⟨record.usage.line, record.kind, record.key, record.usage.usageKind⟩

/-- **What the passes find** in a template or a script: literals of the template's code, or texts
between quotes that a pattern matches, which mean an artifact. The line is that of the literal, or of
the first quote. -/
inductive Artifacts.Mentions (artifacts : Artifacts) (file text : String) : FileCategory → Mention → Prop
  | code {fragment : Fragment} {place : Place} {resolved : Resolved} {span : Span}
      (isFragment : fragment ∈ fragments text) (listed : place ∈ (Node.ofSource fragment.code).literals)
      (means : artifacts.Means file fragment.directive fragment.markupAttribute place resolved)
      (mapped : fragment.spanInTemplate? place.node.span = some span) :
      Mentions artifacts file text .blade ⟨newlinesBefore text span.start, resolved⟩
  | markup {found : PatternMatch} {resolved : Resolved}
      (isFound : found ∈ Pattern.findAll Pattern.templateTable text)
      (resolves : artifacts.resolveRoute? found.helper found.key = some resolved) :
      Mentions artifacts file text .blade ⟨newlinesBefore text (found.span.start - 1), resolved⟩
  | script {found : PatternMatch} {resolved : Resolved}
      (isFound : found ∈ Pattern.findAll (Pattern.tableFor file) text)
      (resolves : artifacts.resolveRoute? found.helper found.key = some resolved) :
      Mentions artifacts file text .script ⟨newlinesBefore text (found.span.start - 1), resolved⟩

section Files

variable {artifacts : Artifacts} {file text : String} {mention : Mention}

theorem mention_record (reference : Reference) :
    (reference.record (Origin.ofText file text)).mention =
      ⟨newlinesBefore text reference.span.start, reference.resolved⟩ :=
  congrArg (Mention.mk · reference.resolved) (LineTable.lineOf_ofText text reference.span.start)

/-! ### Repeats -/

theorem UsageRecord.repeats_iff {left right : UsageRecord} :
    left.repeats right = true ↔ left.mention = right.mention := by
  simp only [repeats, mention, Bool.and_eq_true, beq_iff_eq, Mention.mk.injEq, Resolved.mk.injEq,
    and_assoc]

/-- Leaving out repeats keeps what is mentioned. -/
theorem mem_mention_withoutRepeats {records : List UsageRecord} :
    mention ∈ (withoutRepeats records).map UsageRecord.mention ↔
      mention ∈ records.map UsageRecord.mention := by
  induction records with
  | nil => exact Iff.rfl
  | cons record rest ih =>
    rw [withoutRepeats, List.map_cons, List.map_cons, List.mem_cons, List.mem_cons, ← ih]
    -- What repeats the first usage is left out, and is mentioned by the first one still.
    refine or_congr_right' fun differ => ⟨fun kept => ?_, fun old => ?_⟩
    · exact (List.filter_sublist.map _).subset kept
    · obtain ⟨later, isLater, rfl⟩ := List.mem_map.mp old
      refine List.mem_map_of_mem (List.mem_filter.mpr ⟨isLater, ?_⟩)
      rw [Bool.not_eq_true', Bool.eq_false_iff, Ne, UsageRecord.repeats_iff]
      exact Ne.symm differ

/-- Behind leaving out repeats, nothing is mentioned twice. -/
theorem nodup_mention_withoutRepeats (records : List UsageRecord) :
    ((withoutRepeats records).map UsageRecord.mention).Nodup := by
  induction records with
  | nil => exact List.nodup_nil
  | cons record rest ih =>
    rw [withoutRepeats, List.map_cons, List.nodup_cons]
    refine ⟨fun again => ?_, (List.filter_sublist.map _).nodup ih⟩
    obtain ⟨later, kept, same⟩ := List.mem_map.mp again
    have differs := (List.mem_filter.mp kept).2
    rw [Bool.not_eq_true', Bool.eq_false_iff, Ne, UsageRecord.repeats_iff] at differs
    exact differs same.symm

/-! ### Templates and scripts -/

theorem mem_textReferences_of_found {table : List Pattern} {found : PatternMatch} {resolved : Resolved}
    (isFound : found ∈ Pattern.findAll table text)
    (resolves : artifacts.resolveRoute? found.helper found.key = some resolved) :
    ⟨resolved, ⟨found.span.start - 1, found.span.stop + 1⟩⟩ ∈ textReferences artifacts table text :=
  List.mem_filterMap.mpr ⟨found, isFound, Option.map_eq_some_iff.mpr ⟨resolved, resolves, rfl⟩⟩

/-- The references of a file that is no program are its mentions. -/
theorem mem_mention_fileReferences {category : FileCategory} (noProgram : category ≠ .php) :
    mention ∈ (fileReferences artifacts file text category).map
        (fun reference => (reference.record (Origin.ofText file text)).mention) ↔
      artifacts.Mentions file text category mention := by
  rw [List.mem_map]
  constructor
  · rintro ⟨reference, isReference, rfl⟩
    rw [mention_record]
    cases category with
    | php => exact absurd rfl noProgram
    | blade =>
      rcases List.mem_append.mp isReference with inCode | inText
      · obtain ⟨fragment, isFragment, span, isCode, mapped⟩ := mem_templateReferences inCode
        obtain ⟨place, listed, means, rfl⟩ := mem_codeReferences_iff_means.mp isCode
        exact .code isFragment listed means mapped
      · obtain ⟨found, isFound, resolves, isSpan⟩ := mem_textReferences inText
        rw [isSpan]
        exact .markup isFound resolves
    | script =>
      obtain ⟨found, isFound, resolves, isSpan⟩ := mem_textReferences isReference
      rw [isSpan]
      exact .script isFound resolves
  · intro mentions
    cases mentions with
    | @code fragment place resolved span isFragment listed means mapped =>
      refine ⟨⟨resolved, span⟩, List.mem_append_left _ (List.mem_flatMap.mpr ⟨fragment, isFragment, ?_⟩),
        mention_record _⟩
      refine List.mem_filterMap.mpr ⟨⟨resolved, place.node.span⟩, ?_, ?_⟩
      · exact mem_codeReferences_iff_means.mpr ⟨place, listed, means, rfl⟩
      · exact Option.map_eq_some_iff.mpr ⟨span, mapped, rfl⟩
    | @markup found resolved isFound resolves =>
      exact ⟨_, List.mem_append_right _ (mem_textReferences_of_found isFound resolves), mention_record _⟩
    | @script found resolved isFound resolves =>
      exact ⟨_, mem_textReferences_of_found isFound resolves, mention_record _⟩

theorem mention_fileUsages {category : FileCategory} (noProgram : category ≠ .php) :
    ((fileUsages artifacts file text category).map UsageRecord.mention).Nodup ∧
      (mention ∈ (fileUsages artifacts file text category).map UsageRecord.mention ↔
        artifacts.Mentions file text category mention) := by
  have unique : fileUsages artifacts file text category =
      withoutRepeats ((fileReferences artifacts file text category).map
        (Reference.record (Origin.ofText file text))) := by
    cases category with
    | php => exact absurd rfl noProgram
    | blade => rfl
    | script => rfl
  rw [unique, mem_mention_withoutRepeats, List.map_map]
  exact ⟨nodup_mention_withoutRepeats _, mem_mention_fileReferences noProgram⟩

/-! ### Programs -/

/-- The references in a program have ranges of their own, since its literals stand one behind the
other. -/
theorem pairwise_references {root : Node} {directive markupAttribute : Option String}
    (isTree : root.IsTreeOf text) :
    (root.references artifacts file directive markupAttribute).Pairwise fun first second =>
      first.span ≠ second.span := by
  unfold Node.references
  refine List.pairwise_filterMap.mpr (List.Pairwise.imp_of_mem ?_ isTree.pairwise_literals)
  intro first second isFirst _ apart reference isReference other isOther same
  -- Both references have the ranges of their literals, and the first literal is not empty.
  split at isReference
  · cases isReference
  · next context known =>
    split at isReference
    · cases isReference
    · split at isOther
      · cases isOther
      · split at isOther
        · cases isOther
        · obtain ⟨value, hasValue, -⟩ := Option.map_eq_some_iff.mp known
          obtain ⟨resolved, -, rfl⟩ := Option.map_eq_some_iff.mp isReference
          obtain ⟨otherResolved, -, rfl⟩ := Option.map_eq_some_iff.mp isOther
          have overBoth : first.node.span = second.node.span := same
          have nonempty := (isTree.exact_of_mem_literals isFirst hasValue).1
          rw [← overBoth] at apart
          omega

theorem nodup_site_fileUsages :
    ((fileUsages artifacts file text .php).map (·.usage.site)).Nodup := by
  refine List.pairwise_map.mpr (List.pairwise_map.mpr ((pairwise_references (Node.isTreeOf_ofSource text)).imp ?_))
  intro first second differ same
  exact differ (Origin.span_eq_of_site_eq same)

end Files

/-! ### All files -/

/-- The stored usages in a file. -/
def UsageTable.recordsIn (table : UsageTable) (file : String) : List UsageRecord :=
  table.stored.filter (·.usage.file == file)

/-- The stored usages at a site. -/
def UsageTable.recordsAt (table : UsageTable) (site : Site) : List UsageRecord :=
  table.stored.filter (·.usage.site == site)

section Projects

variable {tree : Tree} {artifacts : Artifacts} {file text : String} {category : FileCategory}
  {place : Place} {resolved : Resolved} {mention : Mention} {record : UsageRecord}

theorem file_of_mem_scanUsagesOf (isRecord : record ∈ (scanUsagesOf tree artifacts file).1) :
    record.usage.file = file ∧ record.usage.site.file = file := by
  unfold scanUsagesOf at isRecord
  split at isRecord
  · cases isRecord
  · split at isRecord
    · cases isRecord
    · obtain ⟨reference, -, rfl⟩ := exists_reference isRecord
      exact ⟨rfl, rfl⟩

/-- **The stored usages in a file** are those that its search found. The file is listed once, so that no
other block of records is the file's. -/
theorem recordsIn_perm (listedOnce : tree.ownFiles.Nodup) (isOwn : file ∈ tree.ownFiles)
    (known : FileCategory.of? file = some category) (isRead : tree.read file = .ok text) :
    ((scanUsages tree artifacts).1.recordsIn file).Perm (fileUsages artifacts file text category) := by
  refine ((scanUsages tree artifacts).1.stored_perm.filter _).trans (.of_eq ?_)
  have found : (scanUsagesOf tree artifacts file).1 = fileUsages artifacts file text category := by
    rw [scanUsagesOf, known]
    simp only [Tree.scan, isRead]
  rw [← found]
  show ((tree.ownFiles.map (scanUsagesOf tree artifacts)).flatMap Prod.fst).filter _ = _
  rw [List.flatMap_map, filter_flatMap_of_labelled (·.usage.file) listedOnce
    (fun _ _ isRecord => (file_of_mem_scanUsagesOf isRecord).1), if_pos isOwn]

/-- A usage stands in the file of its site. -/
theorem recordsAt_eq (site : Site) : (scanUsages tree artifacts).1.recordsAt site =
    ((scanUsages tree artifacts).1.recordsIn site.file).filter (·.usage.site == site) := by
  unfold UsageTable.recordsAt UsageTable.recordsIn
  rw [List.filter_filter]
  refine List.filter_congr fun record isStored => ?_
  obtain ⟨scan, isScan, inScan⟩ := List.mem_flatMap.mp (UsageTable.mem_stored.mp isStored)
  obtain ⟨other, -, rfl⟩ := List.mem_map.mp isScan
  obtain ⟨isFile, isSiteFile⟩ := file_of_mem_scanUsagesOf inScan
  cases atSite : record.usage.site == site with
  | false => rfl
  | true =>
    rw [Bool.true_and, eq_comm, beq_iff_eq, isFile, ← isSiteFile, beq_iff_eq.mp atSite]

/-- **A literal that means something** is stored once, over all kinds and keys. -/
theorem recordsAt_of_means (listedOnce : tree.ownFiles.Nodup) (isOwn : file ∈ tree.ownFiles)
    (isProgram : FileCategory.of? file = some .php) (isRead : tree.read file = .ok text)
    (listed : place ∈ (Node.ofSource text).literals)
    (means : artifacts.Means file none none place resolved) :
    (scanUsages tree artifacts).1.recordsAt ((Origin.ofText file text).site place.node.span) =
      [Reference.record (Origin.ofText file text) ⟨resolved, place.node.span⟩] := by
  have stored : ((scanUsages tree artifacts).1.recordsIn file).Perm
      (fileUsages artifacts file text .php) := recordsIn_perm listedOnce isOwn isProgram isRead
  have apart : (((scanUsages tree artifacts).1.recordsIn file).map (·.usage.site)).Nodup :=
    (stored.map _).nodup_iff.mpr nodup_site_fileUsages
  have isStored : Reference.record (Origin.ofText file text) ⟨resolved, place.node.span⟩ ∈
      (scanUsages tree artifacts).1.recordsIn file :=
    stored.mem_iff.mpr
      (List.mem_map_of_mem (mem_codeReferences_iff_means.mpr ⟨place, listed, means, rfl⟩))
  rw [recordsAt_eq]
  refine List.perm_singleton.mp ((List.perm_ext_iff_of_nodup ?_ (List.nodup_singleton _)).mpr ?_)
  · exact apart.of_map.filter _
  · intro record
    rw [List.mem_filter, beq_iff_eq, List.mem_singleton]
    constructor
    · rintro ⟨isRecord, same⟩
      exact List.inj_on_of_nodup_map apart isRecord isStored same
    · rintro rfl
      exact ⟨isStored, rfl⟩

/-- A literal that means nothing is not stored. -/
theorem recordsAt_of_silent (isProgram : FileCategory.of? file = some .php)
    (isRead : tree.read file = .ok text) (listed : place ∈ (Node.ofSource text).literals)
    (silent : ∀ resolved, ¬artifacts.Means file none none place resolved) :
    (scanUsages tree artifacts).1.recordsAt ((Origin.ofText file text).site place.node.span) = [] := by
  refine List.filter_eq_nil_iff.mpr fun record isStored atSite => ?_
  have isUsage := UsageTable.mem_get.mpr (UsageTable.mem_stored.mp isStored)
  exact silent _ (means_of_mem_get isProgram isRead listed isUsage (beq_iff_eq.mp atSite))

/-- **A usage in a program** is the only one at its site. -/
theorem recordsAt_of_mem_stored (listedOnce : tree.ownFiles.Nodup)
    (isStored : record ∈ (scanUsages tree artifacts).1.stored)
    (isProgram : FileCategory.of? record.usage.file = some .php) :
    (scanUsages tree artifacts).1.recordsAt record.usage.site = [record] := by
  obtain ⟨file, isOwn, category, text, known, isRead, reference, isReference, rfl⟩ :=
    mem_records_scanUsages (UsageTable.mem_stored.mp isStored)
  cases known.symm.trans isProgram
  obtain ⟨place, listed, means, isSpan⟩ := mem_codeReferences_iff_means.mp isReference
  obtain ⟨resolved, span⟩ := reference
  cases isSpan
  exact recordsAt_of_means listedOnce isOwn isProgram isRead listed means

/-- **A mention in a template or a script** is stored once. -/
theorem count_mention_recordsIn (listedOnce : tree.ownFiles.Nodup) (isOwn : file ∈ tree.ownFiles)
    (known : FileCategory.of? file = some category) (noProgram : category ≠ .php)
    (isRead : tree.read file = .ok text)
    (mentions : artifacts.Mentions file text category mention) :
    (((scanUsages tree artifacts).1.recordsIn file).map UsageRecord.mention).count mention = 1 := by
  rw [((recordsIn_perm listedOnce isOwn known isRead).map _).count_eq]
  obtain ⟨distinct, isMember⟩ := mention_fileUsages noProgram
  exact List.count_eq_one_of_mem distinct (isMember.mpr mentions)

/-- A usage in a template or a script is what a pass finds. -/
theorem mentions_of_mem_stored
    (isStored : record ∈ (scanUsages tree artifacts).1.stored)
    (known : FileCategory.of? record.usage.file = some category) (noProgram : category ≠ .php) :
    ∃ text, tree.read record.usage.file = .ok text ∧
      artifacts.Mentions record.usage.file text category record.mention := by
  obtain ⟨file, -, other, text, isOther, isRead, reference, isReference, rfl⟩ :=
    mem_records_scanUsages (UsageTable.mem_stored.mp isStored)
  cases isOther.symm.trans known
  exact ⟨text, isRead, (mem_mention_fileReferences noProgram).mp (List.mem_map_of_mem isReference)⟩

end Projects

/-! ### An index -/

/-- **Usages recorded once.** -/
structure Index.RecordsOnce (index : Index) (tree : Tree) : Prop where
  /-- What a pass finds in a template or a script is stored once. -/
  mentioned : ∀ {file text : String} {category : FileCategory} {mention : Mention},
    file ∈ tree.ownFiles → FileCategory.of? file = some category → category ≠ .php →
    tree.read file = .ok text → index.artifacts.Mentions file text category mention →
    ((index.usageTable.recordsIn file).map UsageRecord.mention).count mention = 1
  /-- Nothing else is stored for a template or a script. -/
  found : ∀ record ∈ index.usageTable.stored, ∀ category,
    FileCategory.of? record.usage.file = some category → category ≠ .php →
    ∃ text, tree.read record.usage.file = .ok text ∧
      index.artifacts.Mentions record.usage.file text category record.mention
  /-- A literal of a program that means something is stored once, over all kinds and keys. -/
  literal : ∀ {file text : String} {place : Place} {resolved : Resolved},
    file ∈ tree.ownFiles → FileCategory.of? file = some .php → tree.read file = .ok text →
    place ∈ (Node.ofSource text).literals → index.artifacts.Means file none none place resolved →
    index.usageTable.recordsAt ((Origin.ofText file text).site place.node.span) =
      [Reference.record (Origin.ofText file text) ⟨resolved, place.node.span⟩]
  /-- A literal of a program that means nothing is not stored. -/
  silent : ∀ {file text : String} {place : Place},
    FileCategory.of? file = some .php → tree.read file = .ok text →
    place ∈ (Node.ofSource text).literals →
    (∀ resolved, ¬index.artifacts.Means file none none place resolved) →
    index.usageTable.recordsAt ((Origin.ofText file text).site place.node.span) = []
  /-- A usage in a program is the only one at its site. -/
  apart : ∀ record ∈ index.usageTable.stored, FileCategory.of? record.usage.file = some .php →
    index.usageTable.recordsAt record.usage.site = [record]
  /-- The stored usages of a kind and a key are the key's list. -/
  listed : ∀ kind key,
    (index.usageTable.stored.filter fun record => (record.kind, record.key) == (kind, key)).map (·.usage) =
      index.usageTable.get kind key
  /-- The stored usages are counted. -/
  counted : index.stats.usages = index.usageTable.stored.length
  /-- The usages of a key ascend. -/
  ascending : ∀ kind key, (index.usageTable.get kind key).Pairwise fun left right =>
    (left.order right).isLE = true

namespace Index

/-- **References are recorded exactly once**, in every project and behind every refresh. -/
theorem recordsOnce_refresh (index : Index) {tree : Tree} (isProject : tree.IsProject) :
    (index.refresh tree).RecordsOnce tree := by
  have listedOnce := isProject.nodup_ownFiles
  exact
    { mentioned := count_mention_recordsIn listedOnce
      found := fun _ isStored _ known noProgram => mentions_of_mem_stored isStored known noProgram
      literal := recordsAt_of_means listedOnce
      silent := recordsAt_of_silent
      apart := fun _ isStored isProgram => recordsAt_of_mem_stored listedOnce isStored isProgram
      listed := UsageTable.filter_stored _
      counted := (UsageTable.length_stored _).symm
      ascending := UsageTable.pairwise_get _ }

/-- A template that refers to a route twice on a line, and a program that does so once. -/
theorem recordsOnce_refresh_twice :
    let program := "<?php Route::get('/')->name('n');route('n');"
    let template := "\x7b\x7broute('n')\x7d\x7d \x7b\x7broute('n')\x7d\x7d"
    let files := (MemoryFiles.empty.write "routes/web.php" program).write "a.blade.php" template
    let index := (Index.empty false).refresh files.toTree
    files.toTree.IsProject ∧ index.RecordsOnce files.toTree ∧
      index.usageTable.stored.map (fun record => (record.usage.file, record.mention)) =
        [("a.blade.php", ⟨0, .route, "n", .name⟩), ("routes/web.php", ⟨0, .route, "n", .name⟩)] := by
  intro program template files index
  have isProject : files.toTree.IsProject := .memory ((MemoryFiles.Written.empty.write _ _).write _ _)
  exact ⟨isProject, recordsOnce_refresh (Index.empty false) isProject, by decide +kernel⟩

end Index

end ArtifactIndex
