/-
**Completing a key that is already spelled out.**

With the cursor before the closing quote of a literal, the keys are offered that start with what stands
between the quotes. What stands there is the body as it is written, while the literal means that body with
the escapes in it decoded, so the two come apart where the body has escapes.

* `literalInProgram?_last`, `literalInTemplate?_last`: over its closing quote the same literal is found, with its
  body as what is typed;
* `literalAt_last`: so for the literals in all files that are no scripts;
* `mem_completions_iff`: which keys are offered;
* `completeAt_last`: before its closing quote, a key that is spelled out is offered exactly when nothing in
  the literal is escaped.
-/

import ArtifactIndex.Proofs.Code.Written
import ArtifactIndex.Proofs.Cursor.Agreement
import ArtifactIndex.Proofs.Template.Framing
import ArtifactIndex.Proofs.Template.Tiling

namespace ArtifactIndex

namespace Index

variable {index : Index} {file : String} {position : Nat} {literal : LocatedLiteral}

/-! ### Programs -/

/-- The literal over an offset of code is written in its range, and is over each offset of that range. -/
theorem written_of_literalInCode? {source : String} {directive markupAttribute : Option String}
    {context : LiteralContext} {classified : Option Classified}
    (found : index.literalInCode? file source directive markupAttribute position =
      some (context, classified)) :
    ∃ written : WrittenLiteral, written.StandsAt source context.place.node.span ∧
      context.value = written.value ∧
      ∀ other, context.place.node.span.covers other = true →
        index.literalInCode? file source directive markupAttribute other = some (context, classified) := by
  rw [literalInCode?] at found
  split at found
  · cases found
  · next place isPlace =>
    obtain ⟨context', known, isContext⟩ := Option.map_eq_some_iff.mp found
    cases isContext
    obtain ⟨value, hasValue, rfl⟩ := Option.map_eq_some_iff.mp known
    obtain ⟨written, stands, isValue, same⟩ := (Node.isTreeOf_ofSource source).written_of_literalAt? isPlace hasValue
    refine ⟨written, stands, isValue, fun other covered => ?_⟩
    rw [literalInCode?, same other covered]
    exact found

/-- **Over the closing quote of a literal of a program** the same literal is found. -/
theorem literalInProgram?_last {text : String}
    (found : index.literalInProgram? file text position = some literal) :
    ∃ written : WrittenLiteral,
      slice? text literal.site.start literal.site.stop = some (String.ofList written.chars) ∧
      written.value = literal.value ∧
      index.literalInProgram? file text (literal.site.stop - 1) =
        some { literal with typed := String.ofList written.body } := by
  obtain ⟨⟨context, classified⟩, inCode, rfl⟩ := Option.map_eq_some_iff.mp found
  obtain ⟨written, stands, isValue, same⟩ := written_of_literalInCode? inCode
  refine ⟨written, stands.slice?_eq, isValue.symm, ?_⟩
  show index.literalInProgram? file text (context.place.node.span.stop - 1) = _
  rw [literalInProgram?, same _ stands.covers_last, Option.map_some]
  dsimp only
  rw [stands.typedPart_last]

/-! ### Templates -/

/-- Over the closing quote of a literal of a fragment the same literal is found there. -/
theorem literalInFragment?_last {text : String} {fragment : Fragment} (isFragment : fragment ∈ fragments text)
    (found : index.literalInFragment? file text position fragment = some literal) :
    ∃ written : WrittenLiteral,
      slice? text literal.site.start literal.site.stop = some (String.ofList written.chars) ∧
      written.value = literal.value ∧ fragment.start < literal.site.stop ∧
      index.literalInFragment? file text (literal.site.stop - 1) fragment =
        some { literal with typed := String.ofList written.body } := by
  rw [literalInFragment?] at found
  split at found
  · cases found
  · next inCode mapped =>
    obtain ⟨⟨context, classified⟩, inProgram, rfl⟩ := Option.map_eq_some_iff.mp found
    obtain ⟨written, stands, isValue, same⟩ := written_of_literalInCode? inProgram
    obtain ⟨startInside, stopInside⟩ := (framed_of_mem_fragments isFragment).inPiece stands
    have atLast := stands.covers_last
    have slice := stands.slice?_eq
    have typed := stands.typedPart_last
    generalize isSpan : context.place.node.span = span at *
    obtain ⟨ahead, last⟩ := Span.covers_iff.mp atLast
    have first : fragment.toTemplate? span.start = some (fragment.start + (span.start - fragment.lead)) :=
      if_pos (by omega)
    have final : fragment.toTemplate? span.stop = some (fragment.start + (span.stop - fragment.lead)) :=
      if_pos (by omega)
    have back : fragment.toCode? (fragment.start + (span.stop - fragment.lead) - 1) = some (span.stop - 1) :=
      Fragment.toCode?_eq_some.mpr ⟨by omega, by omega⟩
    simp only [first, final, Option.getD_some]
    refine ⟨written, ?_, isValue.symm, ?_, ?_⟩
    · have inTemplate : fragment.spanInTemplate? span =
          some ⟨fragment.start + (span.start - fragment.lead), fragment.start + (span.stop - fragment.lead)⟩ :=
        Fragment.spanInTemplate?_eq_some.mpr ⟨first, final⟩
      exact ((cutFrom_of_mem_fragments isFragment).slice?_eq inTemplate (by omega)).trans slice
    · show fragment.start < fragment.start + (span.stop - fragment.lead)
      omega
    · show index.literalInFragment? file text (fragment.start + (span.stop - fragment.lead) - 1) fragment = _
      rw [literalInFragment?, back]
      simp only [same _ atLast, Option.map_some, isSpan, first, final, Option.getD_some, typed]

/-- **Over the closing quote of a literal of a template** the same literal is found. The fragments before that
of the literal end before it. -/
theorem literalInTemplate?_last {text : String}
    (found : index.literalInTemplate? file text position = some literal) :
    ∃ written : WrittenLiteral,
      slice? text literal.site.start literal.site.stop = some (String.ofList written.chars) ∧
      written.value = literal.value ∧
      index.literalInTemplate? file text (literal.site.stop - 1) =
        some { literal with typed := String.ofList written.body } := by
  obtain ⟨earlier, fragment, later, split, inFragment, -⟩ := List.findSome?_eq_some_iff.mp found
  have isFragment : fragment ∈ fragments text := by
    rw [split]
    exact List.mem_append_right _ List.mem_cons_self
  obtain ⟨written, slice, isValue, behind, same⟩ := literalInFragment?_last isFragment inFragment
  refine ⟨written, slice, isValue, ?_⟩
  have apart := pairwise_fragments text
  rw [split, List.pairwise_append] at apart
  have noneEarlier : earlier.findSome? (index.literalInFragment? file text (literal.site.stop - 1)) = none := by
    rw [List.findSome?_eq_none_iff]
    intro other isEarlier
    have := apart.2.2 other isEarlier fragment List.mem_cons_self
    exact literalInFragment?_eq_none (by omega)
  rw [literalInTemplate?, split, List.findSome?_append, noneEarlier, Option.none_or, List.findSome?_cons, same]

/-! ### Completion -/

/-- **Over the closing quote of a literal** the same literal is found, and its body is typed. -/
theorem literalAt_last {tree : Tree} {category : FileCategory} {text : String}
    (known : FileCategory.of? file = some category) (isCode : category ≠ .script)
    (read : tree.read file = .ok text)
    (found : index.literalAt tree file position = .ok (some literal)) :
    ∃ written : WrittenLiteral,
      slice? text literal.site.start literal.site.stop = some (String.ofList written.chars) ∧
      written.value = literal.value ∧
      index.literalAt tree file (literal.site.stop - 1) =
        .ok (some { literal with typed := String.ofList written.body }) := by
  rw [literalAt, known, read] at found
  simp only [literalAt, known, read]
  cases category with
  | php =>
    obtain ⟨written, slice, isValue, same⟩ := literalInProgram?_last (Except.ok.inj found)
    exact ⟨written, slice, isValue, congrArg Except.ok same⟩
  | blade =>
    obtain ⟨written, slice, isValue, same⟩ := literalInTemplate?_last (Except.ok.inj found)
    exact ⟨written, slice, isValue, congrArg Except.ok same⟩
  | script => exact absurd rfl isCode

/-- **The keys that are offered** for a literal: the candidates that start with what is typed. -/
theorem mem_completions_iff {classified : Classified} {key : String}
    (isClassified : literal.classified = some classified) (completes : declares classified = false) :
    (∃ offer ∈ index.completions literal, offer.label = key) ↔
      key ∈ index.candidates classified.kind ∧ literal.typed.toList <+: key.toList := by
  simp only [completions, isClassified, completes, Bool.false_eq_true, if_false]
  constructor
  · rintro ⟨offer, listed, rfl⟩
    obtain ⟨key, kept, rfl⟩ := List.mem_map.mp listed
    obtain ⟨isCandidate, starts⟩ := List.mem_filter.mp kept
    exact ⟨isCandidate, List.isPrefixOf_iff_prefix.mp starts⟩
  · rintro ⟨isCandidate, starts⟩
    have passes : startsWith literal.typed key = true := List.isPrefixOf_iff_prefix.mpr starts
    exact ⟨_, List.mem_map_of_mem (List.mem_filter.mpr ⟨isCandidate, passes⟩), rfl⟩

/-- **Completing a key that is spelled out.** Over some position of a program or a template stands a literal
that refers to an artifact, in no declaration, and its value is a key of that kind. The literal is a body
between two quotes; at its closing quote the same is known of it, and its key is among the completions
exactly when no backslash in the body escapes a character. -/
theorem completeAt_last (index : Index) {tree : Tree} {file text : String} {category : FileCategory}
    {position : Nat} {literal : LocatedLiteral} {classified : Classified}
    (known : FileCategory.of? file = some category) (isCode : category ≠ .script)
    (read : tree.read file = .ok text)
    (found : index.literalAt tree file position = .ok (some literal))
    (isClassified : literal.classified = some classified) (completes : declares classified = false)
    (isCandidate : literal.value ∈ index.candidates classified.kind) :
    ∃ written : WrittenLiteral, ∃ offers,
      slice? text literal.site.start literal.site.stop = some (String.ofList written.chars) ∧
      written.value = literal.value ∧
      index.classifyAt tree file (literal.site.stop - 1) = index.classifyAt tree file position ∧
      index.completeAt tree file (literal.site.stop - 1) = .ok offers ∧
      ((∃ offer ∈ offers, offer.label = literal.value) ↔ written.Unescaped) := by
  obtain ⟨written, slice, isValue, same⟩ := literalAt_last known isCode read found
  refine ⟨written, index.completions { literal with typed := String.ofList written.body }, slice, isValue,
    ?_, ?_, ?_⟩
  · rw [classifyAt, classifyAt, same, found]
    rfl
  · rw [completeAt, same]
    rfl
  · have offered : (∃ offer ∈ index.completions { literal with typed := String.ofList written.body },
        offer.label = literal.value) ↔ _ := mem_completions_iff isClassified completes
    rw [offered, String.toList_ofList, and_iff_right isCandidate, ← isValue, WrittenLiteral.value,
      String.toList_ofList]
    exact Literal.prefix_decode_iff _ _

/-- A key between quotes, with no escape in it. -/
theorem completeAt_last_plain :
    let file := "app/a.php"
    let program := "<?php __('a');"
    let tree := (MemoryFiles.mk ⟨[(file, program), ("lang/en.json", "\x7b\"a\":\"x\"\x7d")]⟩).toTree
    let index := (Index.empty false).refresh tree
    let literal : LocatedLiteral :=
      ⟨"a", some (.translation .call), "", { file, line := 0, start := 9, stop := 12 }⟩
    index.literalAt tree file 9 = .ok (some literal) ∧
      ∃ offers, index.completeAt tree file 11 = .ok offers ∧ ∃ offer ∈ offers, offer.label = "a" := by
  intro file program tree index literal
  have isProgram : FileCategory.of? file = some .php := by decide +kernel
  have read : tree.read file = .ok program := by decide +kernel
  obtain ⟨found, isCandidate⟩ : index.literalAt tree file 9 = .ok (some literal) ∧
      literal.value ∈ index.candidates .translation := by decide +kernel
  obtain ⟨written, offers, slice, -, -, answered, offered⟩ :=
    completeAt_last index isProgram (by decide) read found rfl rfl isCandidate
  have isSlice : slice? program 9 12 = some "'a'" := by decide +kernel
  have isWritten : written.chars = "'a'".toList := by
    rw [← String.toList_ofList (l := written.chars), Option.some.inj (slice.symm.trans isSlice)]
  have short : written.body.length ≤ 1 := by
    have length := congrArg List.length isWritten
    simp only [WrittenLiteral.chars, List.length_append, List.length_cons] at length
    have three : "'a'".toList.length = 3 := by decide
    omega
  exact ⟨found, offers, answered, offered.mpr (Literal.unescaped_of_short short)⟩

/-- **An escaped quote in a key**: the literal means the key, and at its closing quote nothing is offered. -/
theorem escaped_key_not_offered :
    let file := "app/a.php"
    let tree := (MemoryFiles.mk ⟨[(file, "<?php __('it\\'s');"), ("lang/en.json", "\x7b\"it's\":\"x\"\x7d")]⟩).toTree
    let index := (Index.empty false).refresh tree
    index.literalAt tree file 15 = .ok (some ⟨"it's", some (.translation .call), "it\\'s",
        { file, line := 0, start := 9, stop := 16 }⟩) ∧
      "it's" ∈ index.candidates .translation ∧ index.completeAt tree file 15 = .ok [] := by
  decide +kernel

end Index

end ArtifactIndex
