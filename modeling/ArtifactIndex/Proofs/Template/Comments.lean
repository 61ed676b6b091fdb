/-
**Comments of templates.**

The scan for fragments passes over the comments of a template: none of the code that is cut out stands in
one. The text patterns are tried on the whole template, its comments included. So the usages inside
comments are those that text patterns find, which are all of routes.

* `Template.comments`: the comments that the scan for fragments meets;
* `fragment_outside_comment`: no fragment stands in one of them;
* `Index.usages_in_comments`: a usage inside a comment is that of a route, found by a text pattern.
-/

import ArtifactIndex.Proofs.Usage.Programs
import ArtifactIndex.Proofs.Usage.Soundness

namespace ArtifactIndex

namespace Template

/-! ### The scan for comments -/

/-- The mark that opens a comment. -/
def commentOpening : List Char := "\x7b\x7b--".toList

/-- The comments of a text that starts at an offset, behind a text given in reverse: the pieces at which
the scan for fragments meets the mark. -/
def commentsFrom (before : List Char) (offset : Nat) (chars : List Char) : List Span :=
  match chars with
  | [] => []
  | c :: rest =>
    let taken := (c :: rest).take (max 1 (pieceAt before.head? (c :: rest)).length)
    let found := if commentOpening.isPrefixOf (c :: rest) then
      [⟨offset, offset + byteCount taken⟩] else []
    found ++ commentsFrom (taken.reverse ++ before) (offset + byteCount taken)
      ((c :: rest).drop (max 1 (pieceAt before.head? (c :: rest)).length))
termination_by chars.length
decreasing_by
  simp only [List.length_drop, List.length_cons]
  omega

/-- The comments of a template: from each mark that is met to the next closing one, or to the end. -/
def comments (template : String) : List Span := commentsFrom [] 0 template.toList

/-- A comment holds no code. -/
theorem code_pieceAt_of_comment {previous : Option Char} {chars : List Char}
    (opens : commentOpening.isPrefixOf chars = true) : (pieceAt previous chars).code = none := by
  have isComment : pieceAt previous chars = .plain (4 + pastMark "--\x7d\x7d".toList (chars.drop 4)) :=
    if_pos opens
  rw [isComment]
  rfl

theorem le_of_mem_commentsFrom {before chars : List Char} {offset : Nat} {comment : Span}
    (isComment : comment ∈ commentsFrom before offset chars) : offset ≤ comment.start := by
  fun_induction commentsFrom before offset chars with
  | case1 => cases isComment
  | case2 before offset c rest taken found ih =>
    rcases List.mem_append.mp isComment with isFirst | isLater
    · have isFirst : comment ∈ if _ then _ else [] := isFirst
      split at isFirst
      · rw [List.mem_singleton.mp isFirst]
      · cases isFirst
    · have := ih isLater
      omega

/-- **Fragments and comments stand apart.** By induction on the scan, whose next piece is a comment, code
or neither: a comment ends before all later fragments, a fragment before all later comments. -/
theorem fragmentsFrom_outside_comments (before chars ahead : List Char) :
    ∀ fragment ∈ fragmentsFrom before (byteCount ahead) chars,
      ∀ comment ∈ commentsFrom before (byteCount ahead) chars,
        fragment.start + fragment.length ≤ comment.start ∨ comment.stop ≤ fragment.start := by
  generalize counted : byteCount ahead = offset
  fun_induction fragmentsFrom before offset chars generalizing ahead with
  | case1 =>
    intro fragment isFragment
    cases isFragment
  | case2 before offset c rest piece taken found ih =>
    subst counted
    intro fragment isFragment comment isComment
    rw [commentsFrom] at isComment
    rcases List.mem_append.mp isFragment with isFirst | isLater
    · -- The piece holds code, so that it is no comment and ends before the comments behind it.
      obtain ⟨code, isCode, rfl⟩ := Option.map_eq_some_iff.mp (Option.mem_toList.mp isFirst)
      have noComment : commentOpening.isPrefixOf (c :: rest) = false := by
        refine Bool.eq_false_iff.mpr fun opens => ?_
        cases (code_pieceAt_of_comment opens).symm.trans isCode
      rw [noComment] at isComment
      have fits := fits_pieceAt before.head? (c :: rest) code isCode
      have stop := stop_toFragment_le before (byteCount ahead) fits
      have behind := le_of_mem_commentsFrom isComment
      rw [fits.max_length] at behind
      exact .inl (Nat.le_trans stop behind)
    · rcases List.mem_append.mp isComment with isFirst | isBehind
      · -- The piece is a comment, and the fragments behind it start behind it.
        rw [← byteCount_append] at isLater
        have behind := ((fragmentsFrom_spec _ _ (ahead ++ taken)).1 fragment isLater).1
        rw [byteCount_append] at behind
        split at isFirst
        · rw [List.mem_singleton.mp isFirst]
          exact .inr (Nat.le_of_lt behind)
        · cases isFirst
      · exact ih (ahead ++ taken) (byteCount_append ..) fragment isLater comment isBehind

end Template

/-- **No fragment stands in a comment.** -/
theorem fragment_outside_comment {template : String} {fragment : Fragment} {comment : Span}
    (isFragment : fragment ∈ fragments template) (isComment : comment ∈ Template.comments template) :
    fragment.start + fragment.length ≤ comment.start ∨ comment.stop ≤ fragment.start :=
  Template.fragmentsFrom_outside_comments [] template.toList [] fragment isFragment comment isComment

/-- **The references that fragments give** stand outside of comments. -/
theorem outside_comment_of_mem_templateReferences {artifacts : Artifacts} {file template : String}
    {reference : Reference} {comment : Span}
    (isReference : reference ∈ templateReferences artifacts file template)
    (isComment : comment ∈ Template.comments template) :
    reference.span.stop ≤ comment.start ∨ comment.stop ≤ reference.span.start := by
  obtain ⟨fragment, isFragment, span, -, mapped⟩ := mem_templateReferences isReference
  obtain ⟨first, last⟩ := Fragment.spanInTemplate?_eq_some.mp mapped
  obtain ⟨-, start⟩ := Fragment.toTemplate?_eq_some.mp first
  obtain ⟨⟨_, inside⟩, stop⟩ := Fragment.toTemplate?_eq_some.mp last
  rcases fragment_outside_comment isFragment isComment with before | behind
  · exact .inl (by omega)
  · exact .inr (by omega)

/-! ### Usages -/

namespace Index

/-- **Usages inside comments.** Behind a refresh, a usage of a template whose site lies inside a comment is
that of a route, whose key a text pattern finds there in quotes; the code of the template does not give
it. Views, translations and assets have no usages inside comments. -/
theorem usages_in_comments (index : Index) (tree : Tree) {kind : Kind} {key text : String}
    {usage : Usage} {comment : Span}
    (isStored : usage ∈ (index.refresh tree).usageTable.get kind key)
    (isTemplate : FileCategory.of? usage.file = some .blade) (isRead : tree.read usage.file = .ok text)
    (isComment : comment ∈ Template.comments text) (starts : comment.start ≤ usage.site.start)
    (stops : usage.site.stop ≤ comment.stop) :
    kind = .route ∧
    (∀ reference ∈ templateReferences (index.refresh tree).artifacts usage.file text,
      reference.record (Origin.ofText usage.file text) ≠ ⟨kind, key, usage⟩) ∧
    ∃ found ∈ Pattern.findAll Pattern.templateTable text,
      (index.refresh tree).artifacts.resolveRoute? found.helper found.key =
        some ⟨kind, key, usage.usageKind⟩ ∧
      usage.site = (Origin.ofText usage.file text).site ⟨found.span.start - 1, found.span.stop + 1⟩ := by
  have scanned : (index.refresh tree).usageTable =
      (scanUsages tree (index.refresh tree).artifacts).1 := rfl
  rw [UsageTable.mem_get, scanned] at isStored
  obtain ⟨file, -, category, read, known, isReadToo, reference, isReference, isRecord⟩ :=
    mem_records_scanUsages isStored
  cases isRecord
  cases known.symm.trans isTemplate
  cases isReadToo.symm.trans isRead
  have starts : comment.start ≤ reference.span.start := starts
  have stops : reference.span.stop ≤ comment.stop := stops
  have ordered : reference.span.start < reference.span.stop :=
    (quotes_of_mem_fileReferences isReference).ordered
  have noCode : ∀ other ∈ templateReferences (index.refresh tree).artifacts file text,
      other.span ≠ reference.span := by
    intro other isOther same
    rcases outside_comment_of_mem_templateReferences isOther isComment with before | behind
    · rw [same] at before
      omega
    · rw [same] at behind
      omega
  rcases List.mem_append.mp isReference with inCode | inText
  · exact absurd rfl (noCode reference inCode)
  · obtain ⟨found, isFound, resolves, span⟩ := mem_textReferences inText
    obtain ⟨route, -, isRoute⟩ := Option.map_eq_some_iff.mp resolves
    refine ⟨(congrArg Resolved.kind isRoute).symm, ?_, found, isFound, resolves, ?_⟩
    · intro other isOther same
      have sameSite := congrArg (fun record => record.usage.site) same
      exact noCode other isOther (Origin.span_eq_of_site_eq sameSite)
    · rw [← span]
      rfl

/-- A reference to a route in the comment of a template is recorded all the same. -/
theorem get_of_commented_out :
    let file := "resources/views/a.blade.php"
    let tree := (MemoryFiles.mk ⟨[(file, "\x7b\x7b-- \x7b\x7b route('home') \x7d\x7d --\x7d\x7d"),
      ("routes/web.php", "<?php Route::get('/h', 'H')->name('home');")]⟩).toTree
    ((Index.empty false).refresh tree).usageTable.get .route "home" =
      [⟨file, 0, { file, line := 0, start := 14, stop := 20 }, .name⟩] := by
  decide +kernel

/-- A commented-out reference to a route. -/
theorem usages_in_comments_commented_out :
    let file := "resources/views/a.blade.php"
    let text := "\x7b\x7b-- \x7b\x7b route('home') \x7d\x7d --\x7d\x7d"
    let tree := (MemoryFiles.mk ⟨[(file, text),
      ("routes/web.php", "<?php Route::get('/h', 'H')->name('home');")]⟩).toTree
    let index := (Index.empty false).refresh tree
    let usage : Usage := ⟨file, 0, { file, line := 0, start := 14, stop := 20 }, .name⟩
    usage ∈ index.usageTable.get .route "home" ∧ ⟨0, 29⟩ ∈ Template.comments text ∧
      ∃ found ∈ Pattern.findAll Pattern.templateTable text,
        usage.site = (Origin.ofText file text).site ⟨found.span.start - 1, found.span.stop + 1⟩ := by
  intro file text tree index usage
  have isStored : usage ∈ index.usageTable.get .route "home" :=
    get_of_commented_out ▸ List.mem_singleton_self usage
  have isComment : ⟨0, 29⟩ ∈ Template.comments text := by decide +kernel
  obtain ⟨-, -, found, isFound, -, site⟩ := usages_in_comments (.empty false) tree isStored
    (by decide +kernel) (by decide +kernel : tree.read file = .ok text) isComment (by decide) (by decide)
  exact ⟨isStored, isComment, found, isFound, site⟩

/-- **A usage inside a comment.** The whole template is a comment, and still a usage is recorded in it. -/
theorem usage_recorded_in_comment :
    let file := "resources/views/a.blade.php"
    let text := "\x7b\x7b-- \x7b\x7b route('home') \x7d\x7d --\x7d\x7d"
    let tree := (MemoryFiles.mk ⟨[(file, text),
      ("routes/web.php", "<?php Route::get('/h', 'H')->name('home');")]⟩).toTree
    let index := (Index.empty false).refresh tree
    Template.comments text = [⟨0, byteLength text⟩] ∧
      index.usageTable.get .route "home" =
        [⟨file, 0, { file, line := 0, start := 14, stop := 20 }, .name⟩] :=
  ⟨by decide +kernel, get_of_commented_out⟩

end Index

end ArtifactIndex
