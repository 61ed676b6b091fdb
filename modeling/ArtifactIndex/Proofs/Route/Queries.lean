/-
**Addresses with a query or a fragment.**

A reference to a route by its path may go on behind the path with a query or a fragment, which are dropped
before the path is looked up. The test for an address of another site comes first, though, and looks at the
whole reference.

* `Route.withoutQuery_append`: what is dropped behind a path whose braces come in pairs;
* `Route.IsAddress.occursIn_append`: where the mark of another site may stand;
* `RouteTable.resolvePath?_append_query`: a query does not change what is found, unless it holds that mark.
-/

import ArtifactIndex.Index
import ArtifactIndex.Proofs.Text.Braces
import ArtifactIndex.Proofs.Text.Occurrences
import ArtifactIndex.Proofs.Text.Slices
import ArtifactIndex.Tree.Memory
import Mathlib.Data.Bool.AllAny

namespace ArtifactIndex

/-! ### Queries -/

/-- The characters that start a query or a fragment. -/
def IsQueryMark (c : Char) : Prop := c = '?' ∨ c = '#'

instance (c : Char) : Decidable (IsQueryMark c) := inferInstanceAs (Decidable (_ ∨ _))

/-- **A query or a fragment**: its mark and whatever comes behind it. -/
structure Query where
  mark : Char
  isMark : IsQueryMark mark
  rest : List Char

/-- The query as it is written. -/
def Query.text (query : Query) : String := String.ofList (query.mark :: query.rest)

theorem Query.toList_text (query : Query) : query.text.toList = query.mark :: query.rest :=
  String.toList_ofList

namespace IsQueryMark

variable {mark : Char}

theorem notBlank (isMark : IsQueryMark mark) : isBlank mark = false := by
  rcases isMark with rfl | rfl <;> decide

theorem not_mem_siteMark (isMark : IsQueryMark mark) : mark ∉ "://".toList := by
  rcases isMark with rfl | rfl <;> decide

end IsQueryMark

/-! ### Dropping the query -/

/-- **A query is dropped** behind a path that closes its braces, where it does not stand in any. -/
theorem Route.withoutQuery_append {depth : Nat} {path : List Char}
    (closes : closesBraces depth path = true) {mark : Char} (isMark : IsQueryMark mark)
    (rest : List Char) : withoutQuery depth (path ++ mark :: rest) = withoutQuery depth path := by
  induction path generalizing depth with
  | nil =>
    rw [closesBraces_nil.mp closes]
    rcases isMark with rfl | rfl <;> rfl
  | cons c path ih =>
    rw [List.cons_append, withoutQuery, withoutQuery]
    by_cases opening : c = '{'
    · subst opening
      rw [closesBraces_opening] at closes
      simp [ih closes]
    by_cases closing : c = '}'
    · subst closing
      obtain ⟨outer, rfl, closes⟩ := closesBraces_closing.mp closes
      simp [ih closes]
    rw [closesBraces_other opening closing] at closes
    simp [opening, closing, ih closes]

/-! ### Trimming -/

/-- A list keeps what stands before a member that fails the test when its end is dropped. -/
theorem dropEndWhile_append_cons {test : Char → Bool} {mark : Char} (keeps : test mark = false)
    (before rest : List Char) :
    dropEndWhile test (before ++ mark :: rest) = before ++ mark :: dropEndWhile test rest := by
  have stays : (mark :: before.reverse).dropWhile test = mark :: before.reverse :=
    List.dropWhile_cons_of_neg (by simp [keeps])
  have cut : (rest.reverse ++ mark :: before.reverse).dropWhile test =
      rest.reverse.dropWhile test ++ mark :: before.reverse := by
    rw [List.dropWhile_append]
    split
    · next none => rw [stays, List.isEmpty_iff.mp none, List.nil_append]
    · rfl
  unfold dropEndWhile
  simp [cut]

/-- **A path as a reference gives it**: it is not empty, has no blank at either end, and its braces come in
pairs. -/
structure Route.IsAddress (path : String) : Prop where
  given : path ≠ ""
  starts : ∀ c ∈ path.toList.head?, isBlank c = false
  ends : ∀ c ∈ path.toList.getLast?, isBlank c = false
  balanced : closesBraces 0 path.toList = true

/-- Trimming takes blanks from the end of the query only. -/
theorem Route.IsAddress.trimmed_append {path : String} (isAddress : IsAddress path) (query : Query) :
    (trimmed (path ++ query.text)).toList =
      path.toList ++ query.mark :: dropEndWhile isBlank query.rest := by
  have starts : ∀ c ∈ (path.toList ++ query.mark :: query.rest).head?, isBlank c = false := by
    obtain ⟨first, others, shape⟩ := List.exists_cons_of_ne_nil
      (fun none => isAddress.given (String.toList_inj.mp none) : path.toList ≠ [])
    have starts := isAddress.starts
    rw [shape] at starts ⊢
    exact starts
  rw [trimmed, String.toList_ofList, String.toList_append, query.toList_text, dropWhile_eq_self starts,
    dropEndWhile_append_cons query.isMark.notBlank]

/-- **The mark of another site** stands in the path or in the query, never across the two. -/
theorem Route.IsAddress.occursIn_append {path : String} (isAddress : IsAddress path) (query : Query) :
    occursIn "://" (trimmed (path ++ query.text)) =
      (occursIn "://" path || occursIn "://" query.text) := by
  have apart := query.isMark.not_mem_siteMark
  have given : "://".toList ≠ [] := by decide
  have noBlank : ∀ c ∈ "://".toList, isBlank c = false := List.all_iff_forall_prop.mp (by decide)
  have inQuery : "://".toList <:+: query.mark :: query.rest ↔ "://".toList <:+: query.rest := by
    rw [← List.nil_append (query.mark :: query.rest), isInfix_append_cons_iff apart]
    simp
  rw [Bool.eq_iff_iff, Bool.or_eq_true]
  unfold occursIn
  rw [isPartOf_iff_isInfix, isPartOf_iff_isInfix, isPartOf_iff_isInfix, isAddress.trimmed_append query,
    isInfix_append_cons_iff apart, isInfix_dropEndWhile_iff given noBlank, query.toList_text, inQuery]

/-! ### Looking up -/

namespace RouteTable

/-- **A query does not change what an address means**, unless it holds the mark of another site: then
nothing is found. -/
theorem resolvePath?_append_query (table : RouteTable) {path : String} (isAddress : Route.IsAddress path)
    (query : Query) :
    table.resolvePath? (path ++ query.text) =
      if occursIn "://" query.text then none else table.resolvePath? path := by
  have plain : trimmed path = path := trimmed_eq_self isAddress.starts isAddress.ends
  have given : (trimmed (path ++ query.text)).isEmpty = false := by
    rw [Bool.eq_false_iff, Ne, String.isEmpty_iff, ← String.toList_inj, isAddress.trimmed_append query]
    simp
  have isPath : path.isEmpty = false := by
    rw [Bool.eq_false_iff, Ne, String.isEmpty_iff]
    exact isAddress.given
  have dropped : Route.withoutQuery 0 (trimmed (path ++ query.text)).toList =
      Route.withoutQuery 0 path.toList := by
    rw [isAddress.trimmed_append query, Route.withoutQuery_append isAddress.balanced query.isMark]
  simp only [resolvePath?, plain, isAddress.occursIn_append query, dropped, given, isPath, Bool.false_or]
  by_cases namesSite : occursIn "://" query.text = true
  · rw [if_pos namesSite, namesSite, Bool.or_true, if_pos rfl]
  · rw [if_neg namesSite, Bool.eq_false_iff.mpr namesSite, Bool.or_false]

/-- Question marks in braces belong to the path, the one behind them starts a query. -/
theorem resolvePath?_append_query_optional :
    let files := MemoryFiles.mk ⟨[("routes/web.php", "<?php Route::get('/u/\x7bi?\x7d', 'H');")]⟩
    let table := ((Index.empty false).refresh files.toTree).artifacts.routes
    let query : Query := ⟨'?', .inl rfl, "page=2#top".toList⟩
    Route.IsAddress "/u/\x7bi?\x7d" ∧
      table.resolvePath? ("/u/\x7bi?\x7d" ++ query.text) = table.resolvePath? "/u/\x7bi?\x7d" ∧
      (table.resolvePath? "/u/\x7bi?\x7d").map (·.key) = some "/u/\x7bi?\x7d" := by
  intro files table query
  have isAddress : Route.IsAddress "/u/\x7bi?\x7d" :=
    ⟨by decide, by rintro c ⟨⟩; decide, by rintro c ⟨⟩; decide, by decide⟩
  have noSite : ¬occursIn "://" query.text = true := by decide +kernel
  refine ⟨isAddress, ?_, by decide +kernel⟩
  rw [resolvePath?_append_query table isAddress query, if_neg noSite]

/-- **A query that names another site hides the route.** The path is found without it. -/
theorem query_with_site_not_resolved :
    let files := MemoryFiles.mk ⟨[("routes/web.php", "<?php Route::get('/h', 'H');")]⟩
    let table := ((Index.empty false).refresh files.toTree).artifacts.routes
    let query : Query := ⟨'?', .inl rfl, "next=https://a.b".toList⟩
    Route.IsAddress "/h" ∧ (table.resolvePath? "/h").map (·.key) = some "/h" ∧
      table.resolvePath? ("/h" ++ query.text) = none := by
  intro files table query
  have isAddress : Route.IsAddress "/h" :=
    ⟨by decide, by rintro c ⟨⟩; decide, by rintro c ⟨⟩; decide, by decide⟩
  exact ⟨isAddress, by decide +kernel, by decide +kernel⟩

end RouteTable

end ArtifactIndex
