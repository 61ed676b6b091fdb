/-
**The forms of a view's name.**

A view is listed under three forms of its name, and a reference may spell a fourth one. All views share one
table, in which the last of those with a form has it, and a look-up tries several spellings in a row. No
spelling that is tried first leads to another view, since no form has both a dot and a slash.

* `View.references`: the four ways to refer to a view;
* `resolve?_of_apart`: each of them leads to the view, when no other one has a form of it;
* `ViewPlace`, `ViewPlace.IsLast`: where views are found, and the last of those with a form;
* `exists_get?_isLast`: the view that a form leads to.
-/

import ArtifactIndex.Proofs.View.Roots
import Mathlib.Data.Prod.Lex

namespace ArtifactIndex

/-! ### Forms -/

/-- The ways to refer to a view: its forms, and its name with slashes and with its ending. -/
def View.references (view : View) : List String :=
  view.forms ++ [exchange '.' '/' view.name ++ "." ++ view.ending]

section Aliases

variable {tree : Tree} {view : View}

theorem slash_not_mem_ending (lists : tree.ListsViews) (isView : view ∈ (scanViews tree).1.views) :
    '/' ∉ view.ending.toList := by
  obtain ⟨root, isRoot, file, isFile, isFound⟩ := mem_scanViews.mp isView
  obtain ⟨inner, rfl⟩ := lists.below root isRoot file isFile
  obtain ⟨-, rfl⟩ := ViewRoot.view?_eq_some_iff.mp isFound
  dsimp only
  split <;> decide +kernel

/-- **No form has both a slash and a dot.** -/
theorem not_mem_forms_of_mixed (lists : tree.ListsViews) (isView : view ∈ (scanViews tree).1.views)
    {key : String} (hasSlash : '/' ∈ key.toList) (hasDot : '.' ∈ key.toList) : key ∉ view.forms := by
  have noSlash := slash_not_mem_name lists isView
  simp only [View.forms, List.mem_cons, List.not_mem_nil, or_false, not_or]
  refine ⟨?_, ?_, ?_⟩
  · rintro rfl
    exact noSlash hasSlash
  · rintro rfl
    exact not_mem_exchange (by decide) view.name hasDot
  · rintro rfl
    simp [noSlash, slash_not_mem_ending lists isView] at hasSlash

/-- A form of a view leads to it, when no other view has it. -/
theorem get?_of_apart (lists : tree.ListsViews) (isView : view ∈ (scanViews tree).1.views) {form : String}
    (isForm : form ∈ view.forms)
    (apart : ∀ other ∈ (scanViews tree).1.views, other.file ≠ view.file → form ∉ other.forms) :
    (scanViews tree).1.get? form = some view := by
  obtain ⟨found, isListed, isFound, hasForm⟩ :=
    exists_find?_reverse (·.forms.contains form) isView (List.contains_iff_mem.mpr isForm)
  have sameFile : found.file = view.file := by
    by_contra differ
    exact apart found isListed differ (List.contains_iff_mem.mp hasForm)
  rw [ViewTable.get?, isFound, view_eq_of_file_eq lists isListed isView sameFile]

/-- **Every reference to a view leads to it**, when no other view has a form of it. -/
theorem resolve?_of_apart (lists : tree.ListsViews) (isView : view ∈ (scanViews tree).1.views)
    (named : view.name ≠ "")
    (apart : ∀ other ∈ (scanViews tree).1.views, other.file ≠ view.file → ∀ form ∈ view.forms, form ∉ other.forms)
    {reference : String} (refers : reference ∈ view.references) :
    (scanViews tree).1.resolve? reference = some view := by
  have leads : ∀ form ∈ view.forms, (scanViews tree).1.get? form = some view := fun form isForm =>
    get?_of_apart lists isView isForm fun other isOther differ => apart other isOther differ form isForm
  have ofForm : ∀ form ∈ view.forms, (scanViews tree).1.resolve? form = some view := by
    intro form isForm
    refine findSome?_distinctNonempty_of_first _ ?_ (leads form isForm)
    simp only [View.forms, List.mem_cons, List.not_mem_nil, or_false] at isForm
    rcases isForm with rfl | rfl | rfl
    · exact named
    · rwa [Ne, exchange_eq_empty_iff]
    · simp
  rcases List.mem_append.mp refers with isForm | isMixed
  · exact ofForm reference isForm
  obtain rfl := List.mem_singleton.mp isMixed
  by_cases hasDot : '.' ∈ view.name.toList
  · -- As it is written, it has both marks; with dots for slashes it is the form with the ending.
    have hasSlash : '/' ∈ (exchange '.' '/' view.name).toList := by
      rw [exchange, String.toList_ofList]
      exact List.mem_map.mpr ⟨'.', hasDot, rfl⟩
    have missed : (scanViews tree).1.get? (exchange '.' '/' view.name ++ "." ++ view.ending) = none := by
      rw [ViewTable.get?, List.find?_eq_none]
      intro other isOther
      rw [List.contains_iff_mem]
      refine not_mem_forms_of_mixed lists (List.mem_reverse.mp isOther) ?_ ?_
      · simp [hasSlash]
      · simp
    have dotted : exchange '/' '.' (exchange '.' '/' view.name ++ "." ++ view.ending) =
        view.name ++ "." ++ view.ending := by
      rw [exchange_append, exchange_append, exchange_exchange (slash_not_mem_name lists isView),
        exchange_eq_self (slash_not_mem_ending lists isView), exchange_eq_self (by decide)]
    have isForm : view.name ++ "." ++ view.ending ∈ view.forms := by simp [View.forms]
    rw [ViewTable.resolve?, View.spellings, findSome?_distinctNonempty, dotted,
      List.filter_cons_of_pos (by simp), List.findSome?_cons, missed,
      List.filter_cons_of_pos (by simp), List.findSome?_cons, leads _ isForm]
  · -- Without a dot the name has only one form, and so this is the one with the ending.
    rw [exchange_eq_self hasDot]
    exact ofForm _ (by simp [View.forms])

/-! ### Places -/

/-- Where a view is found: the position of its root among the roots, and its file. The order of places is that
of the roots, and in one root that of the files. -/
abbrev ViewPlace := Nat ×ₗ String

/-- The view that is found at a place. -/
def ViewPlace.Holds (tree : Tree) (place : ViewPlace) (view : View) : Prop :=
  ∃ root, (viewRoots tree)[(ofLex place).1]? = some root ∧ (ofLex place).2 ∈ tree.filesBelow root.directory ∧
    root.view? (ofLex place).2 = some view

/-- **The last view with a form**, and where it is found. -/
structure ViewPlace.IsLast (tree : Tree) (key : String) (place : ViewPlace) (view : View) : Prop where
  holds : place.Holds tree view
  form : key ∈ view.forms
  last : ∀ (other : ViewPlace) (found : View), other.Holds tree found → key ∈ found.forms → other ≤ place

/-- The views of one root with their places. -/
def placedViewsOf (tree : Tree) (root : ViewRoot) (index : Nat) : List (ViewPlace × View) :=
  (tree.filesBelow root.directory).filterMap fun file => (root.view? file).map (toLex (index, file), ·)

/-- The views with their places, in the order of the scan. -/
def placedViews (tree : Tree) : List (ViewPlace × View) :=
  (viewRoots tree).zipIdx.flatMap fun root => placedViewsOf tree root.1 root.2

theorem map_snd_placedViewsOf (tree : Tree) (root : ViewRoot) (index : Nat) :
    (placedViewsOf tree root index).map Prod.snd = (tree.filesBelow root.directory).filterMap root.view? := by
  rw [placedViewsOf, List.map_filterMap]
  simp only [Option.map_map, Function.comp_def, Option.map_id']

theorem map_snd_placedViews (tree : Tree) : (placedViews tree).map Prod.snd = (scanViews tree).1.views := by
  have roots := List.zipIdx_map_fst 0 (viewRoots tree)
  rw [placedViews, List.map_flatMap, scanViews]
  simp only [map_snd_placedViewsOf]
  rw [← roots, List.flatMap_map, roots]

theorem mem_placedViews {place : ViewPlace} : (place, view) ∈ placedViews tree ↔ place.Holds tree view := by
  simp only [placedViews, placedViewsOf, List.mem_flatMap, List.mem_filterMap, Option.map_eq_some_iff,
    Prod.mk.injEq, List.mem_zipIdx_iff_getElem?, ViewPlace.Holds]
  constructor
  · rintro ⟨⟨root, index⟩, isRoot, file, isFile, _, isView, rfl, rfl⟩
    exact ⟨root, isRoot, isFile, isView⟩
  · rintro ⟨root, isRoot, isFile, isView⟩
    exact ⟨(root, (ofLex place).1), isRoot, (ofLex place).2, isFile, view, isView, rfl, rfl⟩

/-- **Views are found in the order of their places.** -/
theorem pairwise_placedViews (lists : tree.ListsViews) :
    (placedViews tree).Pairwise fun left right => left.1 ≤ right.1 := by
  have ascending : ((viewRoots tree).zipIdx.map Prod.snd).Pairwise (· < ·) := by
    rw [List.zipIdx_map_snd]
    exact List.pairwise_lt_range'
  have atIndex : ∀ (root : ViewRoot × Nat), ∀ placed ∈ placedViewsOf tree root.1 root.2,
      (ofLex placed.1).1 = root.2 := by
    intro root placed listed
    obtain ⟨file, -, same⟩ := List.mem_filterMap.mp listed
    obtain ⟨view, -, rfl⟩ := Option.map_eq_some_iff.mp same
    rfl
  refine List.pairwise_flatMap.mpr ⟨fun root _ => ?_, ?_⟩
  · refine List.pairwise_filterMap.mpr ((lists.ascends root.1.directory).imp ?_)
    intro left right atMost first isFirst second isSecond
    obtain ⟨_, -, rfl⟩ := Option.map_eq_some_iff.mp isFirst
    obtain ⟨_, -, rfl⟩ := Option.map_eq_some_iff.mp isSecond
    exact Prod.Lex.toLex_le_toLex.mpr (.inr ⟨rfl, atMost⟩)
  · refine (List.pairwise_map.mp ascending).imp fun {left right} ahead first isFirst second isSecond => ?_
    apply Prod.Lex.le_iff.mpr
    left
    rw [atIndex left first isFirst, atIndex right second isSecond]
    exact ahead

/-- **The last view with a form has it.** -/
theorem exists_get?_isLast (lists : tree.ListsViews) {holder : View}
    (isView : holder ∈ (scanViews tree).1.views) {key : String} (isForm : key ∈ holder.forms) :
    ∃ (place : ViewPlace) (view : View),
      (scanViews tree).1.get? key = some view ∧ place.IsLast tree key view := by
  rw [← map_snd_placedViews] at isView
  obtain ⟨⟨place, _⟩, isPlaced, rfl⟩ := List.mem_map.mp isView
  obtain ⟨⟨last, view⟩, isLastPlaced, isFound, hasForm, others⟩ :=
    exists_find?_reverse_of_pairwise (fun placed => placed.2.forms.contains key) (pairwise_placedViews lists)
      isPlaced (List.contains_iff_mem.mpr isForm)
  refine ⟨last, view, ?_, mem_placedViews.mp isLastPlaced, List.contains_iff_mem.mp hasForm, ?_⟩
  · rw [ViewTable.get?, ← map_snd_placedViews, ← List.map_reverse, List.find?_map, Function.comp_def, isFound]
    rfl
  · intro other found holds hasKey
    rcases others (other, found) (mem_placedViews.mpr holds) (List.contains_iff_mem.mpr hasKey) with same | before
    · exact (congrArg Prod.fst same).le
    · exact before

end Aliases

/-- **What leads to the views of a project.** A view of which no other one has a form is found under all four
references to it, and a form is that of the last view that has it. -/
theorem scanViews_leads {tree : Tree} (isProject : tree.IsProject) :
    let table := (scanViews tree).1
    (∀ view ∈ table.views, view.name ≠ "" →
      (∀ other ∈ table.views, other.file ≠ view.file → ∀ form ∈ view.forms, form ∉ other.forms) →
        ∀ reference ∈ view.references, table.resolve? reference = some view) ∧
      ∀ key, (∃ holder ∈ table.views, key ∈ holder.forms) →
        ∃ (place : ViewPlace) (view : View), table.get? key = some view ∧ place.IsLast tree key view := by
  intro table
  constructor
  · intro view isView named apart reference refers
    exact resolve?_of_apart isProject.listsViews isView named apart refers
  · rintro key ⟨holder, isView, isForm⟩
    exact exists_get?_isLast isProject.listsViews isView isForm

/-- A view of its own in a directory, and two views of one name in two roots. -/
theorem scanViews_leads_nested :
    let files := ((MemoryFiles.empty.write "resources/views/users/index.blade.php" "").write
      "resources/views/a.php" "").write "app/views/a.php" ""
    let table := (scanViews files.toTree).1
    (∀ reference ∈ ["users.index", "users/index", "users.index.blade.php", "users/index.blade.php"],
      (table.resolve? reference).map (·.file) = some "resources/views/users/index.blade.php") ∧
      ∃ (place : ViewPlace) (view : View), table.get? "a" = some view ∧ place.IsLast files.toTree "a" view := by
  intro files table
  have isProject : files.toTree.IsProject := .memory (.write (.write (.write .empty _ _) _ _) _ _)
  let view : View := ⟨"users.index", "users/index.blade.php", "blade.php", "resources/views/users/index.blade.php"⟩
  obtain ⟨isView, apart, isHeld⟩ : view ∈ table.views ∧
      (∀ other ∈ table.views, other.file ≠ view.file → ∀ form ∈ view.forms, form ∉ other.forms) ∧
      ∃ other ∈ table.views, "a" ∈ other.forms := by decide +kernel
  have references : view.references =
      ["users.index", "users/index", "users.index.blade.php", "users/index.blade.php"] := by decide +kernel
  constructor
  · intro reference listed
    rw [← references] at listed
    rw [(scanViews_leads isProject).1 view isView (by decide) apart reference listed]
    rfl
  · exact (scanViews_leads isProject).2 "a" isHeld

end ArtifactIndex
