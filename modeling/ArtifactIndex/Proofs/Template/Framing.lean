/-
**The programs around pieces of a template.**

A fragment's program is the piece of the template between a few characters that are put before and behind
it. No quote is among these, so a literal of the program stands in the piece.

* `exists_piece_of_mem_fragments`: where a fragment comes from;
* `framed_of_mem_fragments`: no quote is put around a piece;
* `Fragment.Framed.inPiece`: a literal of a fragment's program stands in its piece.
-/

import ArtifactIndex.Proofs.Code.Written
import ArtifactIndex.Proofs.Template.Fragments

namespace ArtifactIndex

namespace Template

/-- What is put around the code of a piece has no quote, and no mark of a literal stands right before it. -/
structure CodePiece.Framed (code : CodePiece) : Prop where
  noQuote : (code.opening.toList ++ code.closing.toList).all (!Literal.isQuote ·) = true
  noMark : code.opening.toList.getLast? ≠ some 'b' ∧ code.opening.toList.getLast? ≠ some 'B'

theorem framed_between {kind : FragmentKind} {skipped : Nat} {mark chars : List Char}
    {opening closing : String} {directive : Option String} {inMarkup : Bool}
    (noQuote : (opening.toList ++ closing.toList).all (!Literal.isQuote ·) = true)
    (noMark : opening.toList.getLast? ≠ some 'b' ∧ opening.toList.getLast? ≠ some 'B') :
    ∀ code ∈ (Piece.between kind skipped mark opening closing directive inMarkup chars).code,
      code.Framed := by
  intro code isCode
  cases isCode
  exact ⟨noQuote, noMark⟩

theorem framed_directivePiece? {chars : List Char} {piece : Piece}
    (found : directivePiece? chars = some piece) : ∀ code ∈ piece.code, code.Framed := by
  revert found
  fun_cases directivePiece? chars
  · intro found
    cases found
  · intro found
    cases found
  · intro found code isCode
    obtain ⟨length, -, rfl⟩ := Option.map_eq_some_iff.mp found
    cases isCode
    have noQuote : ((programOpening ++ directiveFunction ++ "(").toList ++ ");".toList).all
        (!Literal.isQuote ·) = true := by decide +kernel
    have noMark : (programOpening ++ directiveFunction ++ "(").toList.getLast? ≠ some 'b' ∧
        (programOpening ++ directiveFunction ++ "(").toList.getLast? ≠ some 'B' := by decide +kernel
    exact ⟨noQuote, noMark⟩
  · intro found
    cases found
    exact framed_between (by decide +kernel) (by decide +kernel)
  · intro found code isCode
    cases found
    cases isCode

/-- **No quote is put around the code of a piece.** -/
theorem framed_pieceAt (previous : Option Char) (chars : List Char) :
    ∀ code ∈ (pieceAt previous chars).code, code.Framed := by
  have noCode : ∀ code : CodePiece, code ∈ (none : Option CodePiece) → code.Framed := by
    intro code isCode
    cases isCode
  fun_cases pieceAt previous chars
  · exact noCode
  · exact noCode
  · exact noCode
  · exact framed_between (by decide +kernel) (by decide +kernel)
  · exact framed_between (by decide +kernel) (by decide +kernel)
  · exact framed_between (by decide +kernel) (by decide +kernel)
  · exact framed_between (by decide +kernel) (by decide +kernel)
  · cases found : directivePiece? chars with
    | none => exact noCode
    | some piece => exact framed_directivePiece? found
  · exact noCode

/-- **Where a fragment comes from**: the scan cuts it out of one of the pieces that it takes. -/
theorem exists_piece_of_mem_fragmentsFrom {before chars : List Char} {offset : Nat} {fragment : Fragment}
    (isMember : fragment ∈ fragmentsFrom before offset chars) :
    ∃ before offset chars, ∃ code ∈ (pieceAt before.head? chars).code,
      fragment = code.toFragment before offset chars := by
  fun_induction fragmentsFrom before offset chars with
  | case1 => cases isMember
  | case2 before offset c rest piece taken found ih =>
    rcases List.mem_append.mp isMember with isFirst | isLater
    · obtain ⟨code, isCode, rfl⟩ := Option.map_eq_some_iff.mp (Option.mem_toList.mp isFirst)
      exact ⟨before, offset, c :: rest, code, isCode, rfl⟩
    · exact ih isLater

end Template

/-! ### Literals across an edge -/

namespace WrittenLiteral

variable {written : WrittenLiteral}

/-- A beginning of a literal has its quote, or is just its mark. -/
theorem of_prefix {first rest : List Char} (begins : first <+: written.chars ++ rest) :
    first = [] ∨ written.quote ∈ first ∨ first = written.mark := by
  have upToQuote : written.mark ++ [written.quote] <+: written.chars ++ rest :=
    ⟨written.body ++ [written.quote] ++ rest, by simp [chars]⟩
  rcases List.prefix_or_prefix_of_prefix begins upToQuote with shorter | longer
  · rcases List.prefix_concat_iff.mp shorter with isBoth | inMark
    · exact .inr (.inl (by rw [isBoth]; simp))
    · rcases written.isMark with isMark | isMark | isMark <;> rw [isMark] at inMark ⊢
      · exact .inl (List.prefix_nil.mp inMark)
      all_goals
        obtain empty | ⟨more, isFirst, none⟩ := List.prefix_cons_iff.mp inMark
        · exact .inl empty
        · exact .inr (.inr (by rw [isFirst, List.prefix_nil.mp none]))
  · exact .inr (.inl (longer.subset (by simp)))

/-- An end of a literal has its quote. -/
theorem of_suffix {before between last : List Char} (ends : before ++ written.chars = between ++ last) :
    last = [] ∨ written.quote ∈ last := by
  rcases List.eq_nil_or_concat last with empty | ⟨more, c, isLast⟩
  · exact .inl empty
  · have isQuote := congrArg List.getLast? ends
    rw [isLast, List.concat_eq_append, chars, ← List.append_assoc, List.getLast?_concat, ← List.append_assoc,
      List.getLast?_concat] at isQuote
    rw [isLast, Option.some.inj isQuote]
    exact .inr (by simp)

end WrittenLiteral

/-! ### Literals in a fragment -/

namespace Fragment

/-- **The program of a fragment** is its piece between characters of which none is a quote, and before the
piece stands no mark of a literal. -/
def Framed (fragment : Fragment) : Prop :=
  ∃ opening piece closing : List Char, fragment.code.toList = opening ++ piece ++ closing ∧
    fragment.lead = byteCount opening ∧ fragment.length = byteCount piece ∧
    (∀ c ∈ opening ++ closing, Literal.isQuote c = false) ∧
    opening.getLast? ≠ some 'b' ∧ opening.getLast? ≠ some 'B'

/-- **A literal of the program stands in the piece.** Its first quote stands behind what is put before the
piece, and so does its mark; its last quote stands before what is put behind the piece. -/
theorem Framed.inPiece {fragment : Fragment} {written : WrittenLiteral} {span : Span}
    (framed : fragment.Framed) (stands : written.StandsAt fragment.code span) :
    fragment.lead ≤ span.start ∧ span.stop ≤ fragment.lead + fragment.length := by
  obtain ⟨opening, piece, closing, shape, isLead, isLength, noQuote, noMark⟩ := framed
  obtain ⟨before, behind, split, rfl⟩ := stands
  have outside : written.quote ∉ opening ++ closing := fun inside =>
    Bool.false_ne_true ((noQuote _ inside).symm.trans written.isQuote)
  have same : opening ++ (piece ++ closing) = before ++ (written.chars ++ behind) := by
    rw [← List.append_assoc, ← shape, split, List.append_assoc]
  obtain ⟨ahead, rfl⟩ : ∃ ahead, before = opening ++ ahead := by
    obtain ⟨ahead, isBefore, -⟩ | ⟨first, isOpening, isRest⟩ := List.append_eq_append_iff.mp same
    · exact ⟨ahead, isBefore⟩
    · rcases WrittenLiteral.of_prefix ⟨_, isRest.symm⟩ with empty | inside | isMark
      · exact ⟨[], by rw [isOpening, empty, List.append_nil, List.append_nil]⟩
      · refine absurd (List.mem_append_left _ ?_) outside
        rw [isOpening]
        exact List.mem_append_right _ inside
      · -- The opening would end in the literal's mark.
        rcases written.isMark with none | isSmall | isLarge
        · exact ⟨[], by rw [isOpening, isMark, none, List.append_nil, List.append_nil]⟩
        · exact absurd (by rw [isOpening, isMark, isSmall, List.getLast?_concat]) noMark.1
        · exact absurd (by rw [isOpening, isMark, isLarge, List.getLast?_concat]) noMark.2
  have inner : piece ++ closing = (ahead ++ written.chars) ++ behind := by
    rw [List.append_assoc] at same
    rw [List.append_cancel_left same, List.append_assoc]
  obtain ⟨after, rfl⟩ : ∃ after, piece = ahead ++ written.chars ++ after := by
    obtain ⟨last, isInner, isClosing⟩ | ⟨after, isPiece, -⟩ := List.append_eq_append_iff.mp inner
    · -- A part of the closing would end in the last quote of the literal.
      rcases WrittenLiteral.of_suffix isInner with empty | inside
      · exact ⟨[], by rw [isInner, empty, List.append_nil, List.append_nil]⟩
      · refine absurd (List.mem_append_right _ ?_) outside
        rw [isClosing]
        exact List.mem_append_left _ inside
    · exact ⟨after, isPiece⟩
  simp only [isLead, isLength, byteCount_append]
  omega

end Fragment

/-- No quote is put around the piece of a fragment. -/
theorem framed_of_mem_fragments {template : String} {fragment : Fragment}
    (isMember : fragment ∈ fragments template) : fragment.Framed := by
  obtain ⟨before, offset, chars, code, isCode, rfl⟩ := Template.exists_piece_of_mem_fragmentsFrom isMember
  obtain ⟨noQuote, noMark⟩ := Template.framed_pieceAt before.head? chars code isCode
  have unquoted : ∀ c ∈ code.opening.toList ++ code.closing.toList, Literal.isQuote c = false :=
    fun c inside => (Bool.not_eq_true' _).mp (List.all_eq_true.mp noQuote c inside)
  refine ⟨code.opening.toList, code.content, code.closing.toList, ?_, byteLength_eq _, rfl, unquoted, noMark⟩
  show (code.opening ++ String.ofList code.content ++ code.closing).toList = _
  rw [String.toList_append, String.toList_append, String.toList_ofList]

end ArtifactIndex
