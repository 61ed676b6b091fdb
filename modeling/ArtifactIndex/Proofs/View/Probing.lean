/-
**Templates that are found where they stand.**

A name that the last scan does not know is made into paths, and the files at these paths below all roots are
its declarations. The scan puts the lead of a root in front of the names of its views, but no path is made
without it. So a template is found under the name that a scan would give it just when its root has no lead.

* `View.partsOf`: the parts of a name or a path, whichever marks stand between them;
* `count_partsOf_of_mem_templatePaths`: the paths for a name have all of its parts, but for those of endings;
* `mem_templatePaths_of_way`: the path of a template is one of those for its name without a lead;
* `mem_declarations_iff`: a template is found under its own name just when its root has no lead.
-/

import ArtifactIndex.Proofs.View.Roots

namespace ArtifactIndex

/-! ### Parts of names and paths -/

namespace View

/-- The parts of a name or a path, whichever of both marks stands between them. -/
def partsOf (text : String) : List String := segments '.' (exchange '/' '.' text)

theorem partsOf_dot (left right : String) : partsOf (left ++ "." ++ right) = partsOf left ++ partsOf right := by
  have dot : exchange '/' '.' "." = String.singleton '.' := by decide +kernel
  rw [partsOf, exchange_append, exchange_append, dot, segments_append]
  rfl

theorem partsOf_dotted (text : String) : partsOf (exchange '/' '.' text) = partsOf text := by
  rw [partsOf, exchange_eq_self (not_mem_exchange (by decide) text)]
  rfl

theorem partsOf_slashed (text : String) : partsOf (exchange '.' '/' text) = partsOf text := by
  have same : exchange '/' '.' (exchange '.' '/' text) = exchange '/' '.' text := by
    rw [← String.toList_inj]
    simp only [exchange, String.toList_ofList, List.map_map]
    refine List.map_congr_left fun c _ => ?_
    by_cases isDot : c = '.'
    · simp [isDot]
    · simp [isDot]
  rw [partsOf, same]
  rfl

/-- The endings of templates. -/
def endings : List String := [templateEnding, ".php"]

/-- The parts of these endings. -/
def endingParts : List String := ["blade", "php"]

/-- An ending has only its own parts. -/
theorem count_partsOf_ending {ending part : String} (isEnding : ending ∈ endings) (isOther : part ∉ endingParts)
    (text : String) : (partsOf (text ++ ending)).count part = (partsOf text).count part := by
  have split : ∃ rest, ending = "." ++ rest ∧ (partsOf rest).count part = 0 := by
    simp only [endings, List.mem_cons, List.not_mem_nil, or_false] at isEnding
    simp only [endingParts, List.mem_cons, List.not_mem_nil, or_false, not_or] at isOther
    rcases isEnding with rfl | rfl
    · refine ⟨"blade.php", by decide +kernel, ?_⟩
      have parts : partsOf "blade.php" = ["blade", "php"] := by decide +kernel
      rw [parts, List.count_eq_zero]
      simp [isOther.1, isOther.2]
    · refine ⟨"php", by decide +kernel, ?_⟩
      have parts : partsOf "php" = ["php"] := by decide +kernel
      rw [parts, List.count_eq_zero]
      simp [isOther.2]
  obtain ⟨rest, rfl, none⟩ := split
  rw [← String.append_assoc, partsOf_dot, List.count_append, none, Nat.add_zero]

theorem count_partsOf_beforeEnd {ending part : String} (isEnding : ending ∈ endings)
    (isOther : part ∉ endingParts) (text : String) :
    (partsOf ((beforeEnd? ending text).getD text)).count part = (partsOf text).count part := by
  cases found : beforeEnd? ending text with
  | none => rfl
  | some stem =>
    rw [beforeEnd?_eq_some_iff.mp found, count_partsOf_ending isEnding isOther]
    rfl

/-- **The spellings of a name** have its parts, but for those of endings. -/
theorem count_partsOf_spelling {name spelling part : String} (isSpelling : spelling ∈ spellings name)
    (isOther : part ∉ endingParts) : (partsOf spelling).count part = (partsOf name).count part := by
  have listed := (mem_distinctNonempty.mp isSpelling).1
  simp only [List.mem_cons, List.not_mem_nil, or_false] at listed
  rcases listed with rfl | rfl | rfl | rfl | rfl
  · rfl
  · rw [partsOf_dotted]
  · rw [partsOf_slashed]
  · exact count_partsOf_beforeEnd (by simp [endings]) isOther name
  · exact count_partsOf_beforeEnd (by simp [endings]) isOther name

end View

/-- **The paths for a spelling** have its parts, but for those of endings. -/
theorem count_partsOf_of_mem_templatePaths {spelling path part : String}
    (isPath : path ∈ templatePaths spelling) (isOther : part ∉ View.endingParts) :
    (View.partsOf path).count part = (View.partsOf spelling).count part := by
  simp only [templatePaths, List.mem_cons, List.not_mem_nil, or_false] at isPath
  rcases isPath with rfl | rfl | rfl | rfl
  · rw [View.count_partsOf_ending (by simp [View.endings]) isOther, View.partsOf_slashed]
  · rw [View.count_partsOf_ending (by simp [View.endings]) isOther, View.partsOf_slashed]
  · exact View.count_partsOf_ending (by simp [View.endings]) isOther _
  · exact View.count_partsOf_ending (by simp [View.endings]) isOther _

/-! ### Paths of templates -/

/-- The parts of a template's path below its root, without its ending: none is empty or holds a mark. -/
structure IsTemplateWay (way : List String) : Prop where
  given : way ≠ []
  parts : ∀ part ∈ way, part.toList ≠ [] ∧ '/' ∉ part.toList ∧ '.' ∉ part.toList

namespace IsTemplateWay

variable {way : List String} {ending : String}

theorem dot_not_mem (isWay : IsTemplateWay way) : '.' ∉ (joinWith "/" way).toList :=
  not_mem_joinWith (by decide) fun part listed => (isWay.parts part listed).2.2

theorem slashed_eq (isWay : IsTemplateWay way) : exchange '.' '/' (joinWith "." way) = joinWith "/" way :=
  exchange_joinWith '/' fun part listed => (isWay.parts part listed).2.2

theorem dotted_eq (isWay : IsTemplateWay way) : exchange '/' '.' (joinWith "/" way) = joinWith "." way :=
  exchange_joinWith '.' fun part listed => (isWay.parts part listed).2.1

/-- A way has the parts of the name that it gives. -/
theorem partsOf_eq (isWay : IsTemplateWay way) :
    View.partsOf (joinWith "/" way) = View.partsOf (joinWith "." way) := by
  rw [← isWay.dotted_eq, View.partsOf_dotted]

/-- **The name of a template** has a dot for each slash on the way. -/
theorem nameOfPath_eq (isWay : IsTemplateWay way) (isEnding : ending ∈ View.endings) :
    View.nameOfPath (joinWith "/" way ++ ending) = joinWith "." way := by
  have stem : ((beforeEnd? templateEnding (joinWith "/" way ++ ending)).orElse fun _ =>
      beforeEnd? ".php" (joinWith "/" way ++ ending)) = some (joinWith "/" way) := by
    simp only [View.endings, List.mem_cons, List.not_mem_nil, or_false] at isEnding
    rcases isEnding with rfl | rfl
    · rw [beforeEnd?_eq_some_iff.mpr rfl, Option.orElse_some]
    · -- Without a dot on the way there is nothing in front that would make the ending a longer one.
      have noTemplate : beforeEnd? templateEnding (joinWith "/" way ++ ".php") = none := by
        cases found : beforeEnd? templateEnding (joinWith "/" way ++ ".php") with
        | none => rfl
        | some stem =>
          have shape := beforeEnd?_eq_some_iff.mp found
          rw [show templateEnding = ".blade" ++ ".php" from rfl, ← String.append_assoc, String.append_left_inj]
            at shape
          exact absurd (by simp [shape]) isWay.dot_not_mem
      rw [noTemplate, Option.orElse_none, beforeEnd?_eq_some_iff.mpr rfl]
  have pieces : nonemptySegments '/' (joinWith "/" way) = way := by
    rw [show "/" = String.singleton '/' from rfl, nonemptySegments_joinWith]
    exact flatMap_nonemptySegments '/' fun part listed =>
      ⟨(isWay.parts part listed).1, (isWay.parts part listed).2.1⟩
  rw [View.nameOfPath, stem, Option.getD_some, pieces]

theorem name_ne_empty (isWay : IsTemplateWay way) : joinWith "." way ≠ "" := by
  intro empty
  have pieces := nonemptySegments_joinWith '.' way
  rw [flatMap_nonemptySegments '.' fun part listed =>
      ⟨(isWay.parts part listed).1, (isWay.parts part listed).2.2⟩,
    show String.singleton '.' = "." from rfl, empty, nonemptySegments_empty] at pieces
  exact isWay.given pieces.symm

end IsTemplateWay

/-- **The path of a template** is one of those for its name without a lead. -/
theorem mem_templatePaths_of_way {way : List String} {ending : String} (isWay : IsTemplateWay way)
    (isEnding : ending ∈ View.endings) :
    ∃ spelling ∈ View.spellings (joinWith "." way), joinWith "/" way ++ ending ∈ templatePaths spelling := by
  refine ⟨joinWith "." way, mem_distinctNonempty.mpr ⟨List.mem_cons_self, isWay.name_ne_empty⟩, ?_⟩
  simp only [View.endings, List.mem_cons, List.not_mem_nil, or_false] at isEnding
  rcases isEnding with rfl | rfl
  · simp [templatePaths, isWay.slashed_eq]
  · simp [templatePaths, isWay.slashed_eq]

/-! ### Probing -/

section Probing

variable {tree : Tree} {root : ViewRoot}

/-- A file is found for a name when it stands, below a root, at a path for a spelling of the name. -/
theorem mem_templatesNamed {name file : String} :
    file ∈ templatesNamed tree name ↔ tree.isFile file = true ∧ ∃ root ∈ viewRoots tree,
      ∃ spelling ∈ View.spellings name, ∃ path ∈ templatePaths spelling,
        root.directory ++ "/" ++ path = file := by
  simp only [templatesNamed, List.mem_eraseDups, List.mem_filter, List.mem_flatMap, List.mem_map]
  exact and_comm

/-- A name that no view has leads to the files at its paths. -/
theorem ViewTable.mem_declarations_of_missed {table : ViewTable} {name file : String}
    (missed : table.resolveAll name = []) :
    Site.ofFile file ∈ table.declarations tree name ↔ file ∈ templatesNamed tree name := by
  rw [declarations, missed, List.mem_map]
  constructor
  · rintro ⟨other, isNamed, same⟩
    have sameFile : other = file := congrArg Site.file same
    rwa [← sameFile]
  · intro isNamed
    exact ⟨file, isNamed, rfl⟩

/-- A lead that is not empty has a part that no ending has. -/
theorem exists_part_of_lead (isRoot : root ∈ viewRoots tree) (hasLead : root.lead ≠ "") :
    ∃ part ∈ View.partsOf root.lead, part ∉ View.endingParts := by
  rcases mem_viewRoots isRoot with isCommon | ⟨entry, -, rfl⟩
  · have all : ∀ root ∈ commonViewRoots, root.lead ≠ "" →
        ∃ part ∈ View.partsOf root.lead, part ∉ View.endingParts := by
      decide +kernel
    exact all root isCommon hasLead
  · refine ⟨"modules", ?_, by decide⟩
    have parts : View.partsOf "modules" = ["modules"] := by decide +kernel
    have split := View.partsOf_dot "modules" entry.name
    rw [parts] at split
    rw [show (moduleViewRoot entry).lead = "modules" ++ "." ++ entry.name from rfl, split]
    exact List.mem_cons_self

/-- **Probing finds a template under the name that a scan gives it just when its root has no lead.** All paths
that are tried have the parts of the whole name, and so one part more than the template's own path. -/
theorem mem_declarations_iff (isProject : tree.IsProject) (table : ViewTable) (isRoot : root ∈ viewRoots tree)
    {way : List String} (isWay : IsTemplateWay way) {ending : String} (isEnding : ending ∈ View.endings) {view : View}
    (isView : view ∈ (scanViews tree).1.views)
    (stands : view.file = root.directory ++ "/" ++ (joinWith "/" way ++ ending))
    (missed : table.resolveAll view.name = []) :
    Site.ofFile view.file ∈ table.declarations tree view.name ↔ root.lead = "" := by
  have lists := isProject.listsViews
  have isFile : tree.isFile view.file = true := by
    obtain ⟨other, isOther, file, isListed, isFound⟩ := mem_scanViews.mp isView
    rw [ViewRoot.file_of_view? isFound]
    exact lists.isFile other isOther file isListed
  have named : view.name = root.nameOf (joinWith "/" way ++ ending) :=
    name_of_file_below lists isRoot isView stands
  rw [ViewRoot.nameOf, isWay.nameOfPath_eq isEnding] at named
  rw [ViewTable.mem_declarations_of_missed missed, mem_templatesNamed]
  constructor
  · rintro ⟨-, other, isOther, spelling, isSpelling, path, isPath, same⟩
    obtain rfl := ViewRoot.eq_of_below lists isOther isRoot (same.trans stands)
    rw [stands, String.append_right_inj] at same
    by_contra hasLead
    obtain ⟨part, inLead, isOtherPart⟩ := exists_part_of_lead isRoot hasLead
    rw [if_neg (mt String.isEmpty_iff.mp hasLead)] at named
    have counted : (View.partsOf (joinWith "." way)).count part =
        (View.partsOf other.lead).count part + (View.partsOf (joinWith "." way)).count part := by
      calc (View.partsOf (joinWith "." way)).count part
        _ = (View.partsOf (joinWith "/" way ++ ending)).count part := by
          rw [View.count_partsOf_ending isEnding isOtherPart, isWay.partsOf_eq]
        _ = (View.partsOf view.name).count part := by
          rw [← same, count_partsOf_of_mem_templatePaths isPath isOtherPart,
            View.count_partsOf_spelling isSpelling isOtherPart]
        _ = _ := by rw [named, View.partsOf_dot, List.count_append]
    have atLeast : 0 < (View.partsOf other.lead).count part := List.count_pos_iff.mpr inLead
    omega
  · intro noLead
    rw [if_pos (String.isEmpty_iff.mpr noLead)] at named
    obtain ⟨spelling, isSpelling, isPath⟩ := mem_templatePaths_of_way isWay isEnding
    rw [named]
    exact ⟨isFile, root, isRoot, spelling, isSpelling, _, isPath, stands.symm⟩

/-- A template in a directory of the project's own root, before the first scan. -/
theorem mem_declarations_iff_own :
    let files := MemoryFiles.empty.write "resources/views/a/b.php" ""
    Site.ofFile "resources/views/a/b.php" ∈ ViewTable.empty.declarations files.toTree "a.b" := by
  intro files
  have isProject : files.toTree.IsProject := .memory (.write .empty _ _)
  have isRoot : (⟨"resources/views", ""⟩ : ViewRoot) ∈ viewRoots files.toTree := by decide +kernel
  have isWay : IsTemplateWay ["a", "b"] := ⟨by decide, by decide +kernel⟩
  have isView : (⟨"a.b", "a/b.php", "php", "resources/views/a/b.php"⟩ : View) ∈
      (scanViews files.toTree).1.views := by decide +kernel
  have isEnding : ".php" ∈ View.endings := by decide
  exact (mem_declarations_iff isProject .empty isRoot isWay isEnding isView (by decide +kernel)
    (by decide +kernel)).mpr rfl

/-- **A template that is not found** under the name that a scan gives it, though it stands below a root. -/
theorem template_with_lead_not_probed :
    let files := MemoryFiles.empty.write "vendor/views/a.php" ""
    (scanViews files.toTree).1.views.map (fun view => (view.name, view.file)) = [("vendor.a", "vendor/views/a.php")] ∧
      ViewTable.empty.declarations files.toTree "vendor.a" = [] := by
  decide +kernel

end Probing

end ArtifactIndex
