/-
**The cursor in client scripts.**

In a script the keys of routes are found by text patterns. The search for usages records the key with its
quotes; the cursor is compared with the key alone, and answers the range of the key.

* `Index.literalInScript?_of_covers`: over a key and its closing quote, the key is found;
* `Index.stop_of_literalInScript?`: over its opening quote it is not;
* `Index.classifyAt_in_script`: so the answers over a usage name its key without the quotes, and over the
  opening quote there is none for it.
-/

import ArtifactIndex.Proofs.Cursor.Agreement
import ArtifactIndex.Proofs.Reference.QuotedKeys
import ArtifactIndex.Proofs.Text.Lines

namespace ArtifactIndex

namespace Index

variable {file text : String} {offset : Nat} {found : PatternMatch}

/-- Two keys over the same offset have the same range. -/
theorem span_eq_of_mem_findAll {other : PatternMatch}
    (isFound : found ∈ Pattern.findAll (Pattern.tableFor file) text)
    (isOther : other ∈ Pattern.findAll (Pattern.tableFor file) text)
    (starts : found.span.start ≤ offset) (stops : offset ≤ found.span.stop)
    (otherStarts : other.span.start ≤ offset) (otherStops : offset ≤ other.span.stop) :
    other.span = found.span := by
  have quoted := Pattern.quotesKey_of_mem_tableFor file
  rcases (Pattern.inQuotes_of_mem_findAll quoted isFound).same_or_apart
      (Pattern.inQuotes_of_mem_findAll quoted isOther) with same | before | behind
  · exact same.symm
  · omega
  · omega

/-- **Over a key** and over its closing quote, a route is found, with the range of the key. -/
theorem literalInScript?_of_covers (isFound : found ∈ Pattern.findAll (Pattern.tableFor file) text)
    (starts : found.span.start ≤ offset) (stops : offset ≤ found.span.stop) :
    ∃ literal helper, literalInScript? file text offset = some literal ∧
      literal.classified = some (.route (.reference helper)) ∧
      literal.site = (Origin.ofText file text).site found.span := by
  have isThere : ((Pattern.findAll (Pattern.tableFor file) text).find? fun found =>
      found.span.start ≤ offset && offset ≤ found.span.stop).isSome := by
    refine List.find?_isSome.mpr ⟨found, isFound, ?_⟩
    rw [Bool.and_eq_true, decide_eq_true_eq, decide_eq_true_eq]
    exact ⟨starts, stops⟩
  obtain ⟨first, isFirst⟩ := Option.isSome_iff_exists.mp isThere
  have covers := List.find?_some isFirst
  rw [Bool.and_eq_true, decide_eq_true_eq, decide_eq_true_eq] at covers
  have same := span_eq_of_mem_findAll isFound (List.mem_of_find?_eq_some isFirst) starts stops
    covers.1 covers.2
  rw [literalInScript?, isFirst]
  refine ⟨_, first.helper, rfl, rfl, ?_⟩
  show (Origin.ofText file text).site first.span = _
  rw [same]

/-- **Over the opening quote** of a key nothing is found that reaches it, at most a key that ends there. -/
theorem stop_of_literalInScript? {literal : LocatedLiteral}
    (isFound : found ∈ Pattern.findAll (Pattern.tableFor file) text)
    (atQuote : found.span.start = offset + 1)
    (isLiteral : literalInScript? file text offset = some literal) : literal.site.stop = offset := by
  obtain ⟨other, isOther, rfl⟩ := Option.map_eq_some_iff.mp isLiteral
  have covers := List.find?_some isOther
  rw [Bool.and_eq_true, decide_eq_true_eq, decide_eq_true_eq] at covers
  have quoted := Pattern.quotesKey_of_mem_tableFor file
  show other.span.stop = offset
  rcases (Pattern.inQuotes_of_mem_findAll quoted isFound).same_or_apart
      (Pattern.inQuotes_of_mem_findAll quoted (List.mem_of_find?_eq_some isOther)) with
    same | before | behind
  · rw [same] at atQuote
    omega
  · have := (Pattern.inQuotes_of_mem_findAll quoted isFound).start_le_stop
    omega
  · omega

/-- The opening quote of a key stands on the line on which the key starts. -/
theorem lineOf_quote (isFound : found ∈ Pattern.findAll (Pattern.tableFor file) text) :
    0 < found.span.start ∧ (LineTable.ofText text).lineOf (found.span.start - 1) =
      (LineTable.ofText text).lineOf found.span.start := by
  obtain ⟨before, key, behind, first, isFirst, last, -, shape, -, -, span⟩ :=
    Pattern.inQuotes_of_mem_findAll (Pattern.quotesKey_of_mem_tableFor file) isFound
  have start : found.span.start = byteCount (before ++ [first]) := by rw [span]
  have lead : byteCount (before ++ [first]) = byteCount before + 1 := by
    rw [byteCount_append, byteCount_cons, Pattern.utf8Size_of_mem_quotes isFirst, byteCount_nil]
  have noNewline : 10 ∉ String.utf8EncodeChar first := by
    rcases Pattern.mem_quotes.mp isFirst with rfl | rfl
    · decide
    · decide
  rw [List.append_assoc _ key, List.append_assoc _ (key ++ [last])] at shape
  have sameLine := LineTable.lineOf_append_singleton shape noNewline
  refine ⟨by omega, ?_⟩
  rw [start, sameLine, lead, Nat.add_sub_cancel]

/-! ### Usages -/

/-- **The answers over a usage in a script.** Behind its opening quote they name the route's key without
the quotes. Over the opening quote there is none, or one for a key that ends there. So the site of no
answer is that of the usage. -/
structure AnswersWithoutQuotes (index : Index) (tree : Tree) (usage : Usage) : Prop where
  behindQuote : ∀ offset, usage.site.start < offset → offset < usage.site.stop →
    ∃ answer, index.classifyAt tree usage.file offset = .ok (some answer) ∧ answer.kind = .route ∧
      answer.site = { usage.site with start := usage.site.start + 1, stop := usage.site.stop - 1 }
  atQuote : ∃ found, index.classifyAt tree usage.file usage.site.start = .ok found ∧
    ∀ answer ∈ found, answer.site.stop = usage.site.start
  otherSite : ∀ offset answer, usage.site.start ≤ offset → offset < usage.site.stop →
    index.classifyAt tree usage.file offset = .ok (some answer) → answer.site ≠ usage.site

theorem classifyAt_of_script {index : Index} {tree : Tree}
    (isScript : FileCategory.of? file = some .script) (isRead : tree.read file = .ok text) :
    index.classifyAt tree file offset =
      .ok ((literalInScript? file text offset).bind (index.classification? tree)) := by
  rw [classifyAt, literalAt, isScript, isRead]
  rfl

/-- A usage over a found key and its quotes is answered without them. -/
theorem answersWithoutQuotes_of_found {index : Index} {tree : Tree} {usage : Usage}
    (isScript : FileCategory.of? usage.file = some .script) (isRead : tree.read usage.file = .ok text)
    (isFound : found ∈ Pattern.findAll (Pattern.tableFor usage.file) text)
    (atKey : usage.site =
      (Origin.ofText usage.file text).site ⟨found.span.start - 1, found.span.stop + 1⟩) :
    index.AnswersWithoutQuotes tree usage := by
  have ordered : found.span.start ≤ found.span.stop :=
    (Pattern.inQuotes_of_mem_findAll (Pattern.quotesKey_of_mem_tableFor _) isFound).start_le_stop
  obtain ⟨positive, sameLine⟩ := lineOf_quote isFound
  have start : usage.site.start + 1 = found.span.start := by
    rw [atKey]
    exact Nat.sub_add_cancel positive
  have stop : usage.site.stop = found.span.stop + 1 := by rw [atKey]; rfl
  have keySite : (Origin.ofText usage.file text).site found.span =
      { usage.site with start := usage.site.start + 1, stop := usage.site.stop - 1 } := by
    rw [start, stop, atKey, Origin.site, Origin.site]
    simp only [Origin.ofText, sameLine, Nat.add_sub_cancel]
  have behindQuote : ∀ offset, usage.site.start < offset → offset < usage.site.stop →
      ∃ answer, index.classifyAt tree usage.file offset = .ok (some answer) ∧ answer.kind = .route ∧
        answer.site = { usage.site with start := usage.site.start + 1, stop := usage.site.stop - 1 } := by
    intro offset behind before
    obtain ⟨literal, helper, isLiteral, isClassified, site⟩ :=
      literalInScript?_of_covers isFound (by omega : _ ≤ offset) (by omega)
    rw [classifyAt_of_script isScript isRead, isLiteral, Option.bind_some, classification?,
      isClassified]
    exact ⟨_, rfl, rfl, site.trans keySite⟩
  have atQuote : ∀ answer, index.classifyAt tree usage.file usage.site.start = .ok (some answer) →
      answer.site.stop = usage.site.start := by
    intro answer isAnswer
    rw [classifyAt_of_script isScript isRead] at isAnswer
    obtain ⟨literal, isLiteral, known⟩ := Option.bind_eq_some_iff.mp (Except.ok.inj isAnswer)
    obtain ⟨_, -, rfl⟩ := Option.map_eq_some_iff.mp known
    exact stop_of_literalInScript? isFound start.symm isLiteral
  refine ⟨behindQuote, ⟨_, classifyAt_of_script isScript isRead, ?_⟩, ?_⟩
  · intro answer isAnswer
    refine atQuote answer ?_
    rw [classifyAt_of_script isScript isRead, isAnswer]
  · intro offset answer behind before isAnswer same
    rcases Nat.lt_or_eq_of_le behind with behind | rfl
    · obtain ⟨found, isFound, -, site⟩ := behindQuote offset behind before
      cases isAnswer.symm.trans isFound
      have := congrArg Site.start (site.symm.trans same)
      dsimp only at this
      omega
    · have := atQuote answer isAnswer
      rw [same] at this
      omega

/-- **The cursor in a script.** Behind a refresh, the answers over each usage in a client file name the
key of a route, but without the quotes that belong to the usage. -/
theorem classifyAt_in_script (index : Index) (tree : Tree) {kind : Kind} {key : String} {usage : Usage}
    (isStored : usage ∈ (index.refresh tree).usageTable.get kind key)
    (isScript : FileCategory.of? usage.file = some .script) :
    kind = .route ∧ (index.refresh tree).AnswersWithoutQuotes tree usage := by
  have scanned : (index.refresh tree).usageTable =
      (scanUsages tree (index.refresh tree).artifacts).1 := rfl
  rw [UsageTable.mem_get, scanned] at isStored
  obtain ⟨file, -, category, text, known, isRead, reference, isReference, isRecord⟩ :=
    mem_records_scanUsages isStored
  cases isRecord
  cases known.symm.trans isScript
  obtain ⟨found, isFound, resolves, span⟩ := mem_textReferences isReference
  obtain ⟨route, -, isRoute⟩ := Option.map_eq_some_iff.mp resolves
  refine ⟨(congrArg Resolved.kind isRoute).symm, answersWithoutQuotes_of_found isScript isRead isFound ?_⟩
  rw [← span]
  rfl

/-- A reference to a route in a script is recorded with its quotes. -/
theorem get_of_script :
    let file := "resources/js/a.js"
    let tree := (MemoryFiles.mk ⟨[(file, "route('home')"),
      ("routes/web.php", "<?php Route::get('/h', 'H')->name('home');")]⟩).toTree
    ((Index.empty false).refresh tree).usageTable.get .route "home" =
      [⟨file, 0, { file, line := 0, start := 6, stop := 12 }, .name⟩] := by
  decide +kernel

/-- A script that refers to a route by its name. -/
theorem classifyAt_in_script_named :
    let file := "resources/js/a.js"
    let tree := (MemoryFiles.mk ⟨[(file, "route('home')"),
      ("routes/web.php", "<?php Route::get('/h', 'H')->name('home');")]⟩).toTree
    let index := (Index.empty false).refresh tree
    let usage : Usage := ⟨file, 0, { file, line := 0, start := 6, stop := 12 }, .name⟩
    usage ∈ index.usageTable.get .route "home" ∧ index.AnswersWithoutQuotes tree usage := by
  intro file tree index usage
  have isStored : usage ∈ index.usageTable.get .route "home" := get_of_script ▸ List.mem_singleton_self usage
  exact ⟨isStored, (classifyAt_in_script (.empty false) tree isStored (by decide +kernel)).2⟩

/-- **A usage whose offsets are not answered with its site.** Over the opening quote there is no answer at
all, and over the closing one the answer leaves the quotes out. -/
theorem answer_in_script_leaves_quotes_out :
    let file := "resources/js/a.js"
    let tree := (MemoryFiles.mk ⟨[(file, "route('home')"),
      ("routes/web.php", "<?php Route::get('/h', 'H')->name('home');")]⟩).toTree
    let index := (Index.empty false).refresh tree
    let usage : Usage := ⟨file, 0, { file, line := 0, start := 6, stop := 12 }, .name⟩
    usage ∈ index.usageTable.get .route "home" ∧
      ((index.classifyAt tree file 6).toOption.map fun found => found.map (·.site)) = some none ∧
      ((index.classifyAt tree file 11).toOption.map fun found => found.map (·.site)) =
        some (some { file, line := 0, start := 7, stop := 11 }) := by
  intro file tree index usage
  exact ⟨get_of_script ▸ List.mem_singleton_self usage, by decide +kernel⟩

end Index

end ArtifactIndex
