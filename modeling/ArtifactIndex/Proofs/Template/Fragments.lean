/-
**Fragments and their templates.**

A fragment's program holds a piece of the template between what is put before and behind it, so that
slices of the piece can be read in either text. The pieces stand one behind the other.

* `cutFrom_of_mem_fragments`: each fragment is cut from its template;
* `pairwise_fragments`: an earlier fragment's piece ends before a later one's starts;
* `Fragment.CutFrom.slice?_eq`: the slices of both texts agree.
-/

import ArtifactIndex.Proofs.Text.Slices
import ArtifactIndex.Usage.Scan

namespace ArtifactIndex

namespace Template

/-! ### Pieces -/

theorem untilMark_prefix (mark chars : List Char) : untilMark mark chars <+: chars := by
  induction chars with
  | nil => exact List.nil_prefix
  | cons c rest ih =>
    rw [untilMark]
    split
    · exact List.nil_prefix
    · exact (List.prefix_cons_inj c).mpr ih

/-- The code of a piece starts behind its mark and ends inside the piece. -/
structure CodePiece.Fits (chars : List Char) (length : Nat) (code : CodePiece) : Prop where
  skips : 0 < code.skipped
  content : code.content <+: chars.drop code.skipped
  inside : code.skipped + code.content.length ≤ length

/-- A piece with code is longer than what it skips, so that the scan takes just this piece. -/
theorem CodePiece.Fits.max_length {chars : List Char} {length : Nat} {code : CodePiece}
    (fits : code.Fits chars length) : max 1 length = length := by
  have := fits.skips
  have := fits.inside
  omega

theorem fits_between {kind : FragmentKind} {skipped : Nat} {mark chars : List Char}
    {opening closing : String} {directive : Option String} {inMarkup : Bool} (skips : 0 < skipped) :
    ∀ code ∈ (Piece.between kind skipped mark opening closing directive inMarkup chars).code,
      code.Fits chars
        (Piece.between kind skipped mark opening closing directive inMarkup chars).length := by
  rintro _ ⟨⟩
  have isPrefix := untilMark_prefix mark (chars.drop skipped)
  refine ⟨skips, isPrefix, ?_⟩
  have := isPrefix.length_le
  show skipped + (untilMark mark (chars.drop skipped)).length ≤
    skipped + min _ ((untilMark mark (chars.drop skipped)).length + mark.length)
  omega

theorem fits_directivePiece? {chars : List Char} {piece : Piece}
    (found : directivePiece? chars = some piece) :
    ∀ code ∈ piece.code, code.Fits chars piece.length := by
  revert found
  fun_cases directivePiece? chars
  · nofun
  · nofun
  · case case3 opensAt _ _ _ _ inner opens =>
    intro found
    obtain ⟨length, -, rfl⟩ := Option.map_eq_some_iff.mp found
    rintro _ ⟨⟩
    refine ⟨Nat.succ_pos _, ?_, ?_⟩
    · show inner.take length <+: chars.drop (opensAt + 1)
      rw [← List.drop_drop, opens]
      exact List.take_prefix _ _
    · have := List.length_take_le length inner
      show opensAt + 1 + (inner.take length).length ≤ opensAt + length + 2
      omega
  · rintro ⟨⟩
    exact fits_between (by decide)
  · rintro ⟨⟩
    nofun

/-- **The code of a piece stands inside it**, behind at least one character. -/
theorem fits_pieceAt (previous : Option Char) (chars : List Char) :
    ∀ code ∈ (pieceAt previous chars).code, code.Fits chars (pieceAt previous chars).length := by
  fun_cases pieceAt previous chars
  · nofun
  · nofun
  · nofun
  · exact fits_between (by decide)
  · exact fits_between (by decide)
  · exact fits_between (by decide)
  · exact fits_between (by decide)
  · cases found : directivePiece? chars with
    | none => nofun
    | some piece => exact fits_directivePiece? found
  · nofun

end Template

/-! ### Fragments -/

/-- The fragment's piece stands in the template at its offset, and in its program behind its lead. -/
structure Fragment.CutFrom (template : List Char) (fragment : Fragment) : Prop where
  shape : ∃ ahead content after opening closing,
    template = ahead ++ content ++ after ∧
      fragment.code = String.ofList (opening ++ content ++ closing) ∧
      fragment.start = byteCount ahead ∧ fragment.length = byteCount content ∧
      fragment.lead = byteCount opening

namespace Template

/-- A piece's code as a fragment of the template around it. -/
theorem cutFrom_toFragment {ahead chars before : List Char} {length : Nat} {code : CodePiece}
    (fits : code.Fits chars length) :
    (code.toFragment before (byteCount ahead) chars).CutFrom (ahead ++ chars) := by
  obtain ⟨after, split⟩ := fits.content
  refine ⟨ahead ++ chars.take code.skipped, code.content, after, code.opening.toList,
    code.closing.toList, ?_, ?_, ?_, rfl, byteLength_eq _⟩
  · rw [List.append_assoc, List.append_assoc, split, List.take_append_drop]
  · rw [String.ofList_append, String.ofList_append, String.ofList_toList, String.ofList_toList]
    rfl
  · rw [byteCount_append]
    rfl

/-- The code of a piece ends before what follows the piece. -/
theorem stop_toFragment_le (before : List Char) (offset : Nat) {chars : List Char} {length : Nat}
    {code : CodePiece} (fits : code.Fits chars length) :
    (code.toFragment before offset chars).start + (code.toFragment before offset chars).length ≤
      offset + byteCount (chars.take length) := by
  have joined : chars.take code.skipped ++ code.content <+: chars.take length := by
    have whole : chars.take code.skipped ++ code.content <+: chars := by
      obtain ⟨after, split⟩ := fits.content
      refine ⟨after, ?_⟩
      rw [List.append_assoc, split, List.take_append_drop]
    refine List.prefix_take_iff.mpr ⟨whole, ?_⟩
    have := fits.inside
    have := List.length_take_le code.skipped chars
    rw [List.length_append]
    omega
  obtain ⟨rest, split⟩ := joined
  show offset + byteCount (chars.take code.skipped) + byteCount code.content ≤ _
  rw [← split, byteCount_append, byteCount_append]
  omega

theorem lt_start_toFragment {before rest : List Char} {c : Char} {offset length : Nat}
    {code : CodePiece} (fits : code.Fits (c :: rest) length) :
    offset < (code.toFragment before offset (c :: rest)).start := by
  have nonempty : (c :: rest).take code.skipped ≠ [] := by
    rw [Ne, List.take_eq_nil_iff]
    have := fits.skips
    simp only [List.cons_ne_nil, or_false]
    omega
  have := byteCount_pos nonempty
  show offset < offset + byteCount ((c :: rest).take code.skipped)
  omega

/-- **Where fragments stand.** Each is cut from the text, behind the characters before it, and each
piece ends before the next one starts. -/
theorem fragmentsFrom_spec (before chars ahead : List Char) :
    (∀ fragment ∈ fragmentsFrom before (byteCount ahead) chars,
      byteCount ahead < fragment.start ∧ fragment.CutFrom (ahead ++ chars)) ∧
    (fragmentsFrom before (byteCount ahead) chars).Pairwise
      fun earlier later => earlier.start + earlier.length < later.start := by
  generalize counted : byteCount ahead = offset
  fun_induction fragmentsFrom before offset chars generalizing ahead with
  | case1 => exact ⟨nofun, .nil⟩
  | case2 before offset c rest piece taken found ih =>
    subst counted
    have shape : ahead ++ (c :: rest) = (ahead ++ taken) ++ (c :: rest).drop (max 1 piece.length) := by
      rw [List.append_assoc, List.take_append_drop]
    obtain ⟨placed, ordered⟩ := ih (ahead ++ taken) (byteCount_append ..)
    rw [← shape] at placed
    have fits := fits_pieceAt before.head? (c :: rest)
    have first : ∀ fragment ∈ found, ∃ code : CodePiece, code.Fits (c :: rest) piece.length ∧
        fragment = code.toFragment before (byteCount ahead) (c :: rest) := by
      intro fragment isFound
      obtain ⟨code, known, rfl⟩ := Option.map_eq_some_iff.mp (Option.mem_toList.mp isFound)
      exact ⟨code, fits code known, rfl⟩
    refine ⟨?_, List.pairwise_append.mpr ⟨?_, ordered, ?_⟩⟩
    · intro fragment isMember
      rcases List.mem_append.mp isMember with isFound | isLater
      · obtain ⟨code, fitting, rfl⟩ := first fragment isFound
        exact ⟨lt_start_toFragment fitting, cutFrom_toFragment fitting⟩
      · obtain ⟨behind, cut⟩ := placed fragment isLater
        exact ⟨by omega, cut⟩
    · show (Option.toList _).Pairwise _
      cases piece.code.map fun code => code.toFragment before (byteCount ahead) (c :: rest) with
      | none => exact .nil
      | some only => exact List.pairwise_singleton _ only
    · intro earlier isFound later isLater
      obtain ⟨code, fitting, rfl⟩ := first earlier isFound
      have stop := stop_toFragment_le before (byteCount ahead) fitting
      have behind := (placed later isLater).1
      rw [show taken = (c :: rest).take piece.length from
        congrArg (List.take · _) fitting.max_length] at behind
      omega

end Template

/-- Each fragment of a template is cut from it. -/
theorem cutFrom_of_mem_fragments {template : String} {fragment : Fragment}
    (isMember : fragment ∈ fragments template) : fragment.CutFrom template.toList :=
  ((Template.fragmentsFrom_spec [] template.toList []).1 fragment isMember).2

/-- The pieces of a template stand apart, in their order. -/
theorem pairwise_fragments (template : String) :
    (fragments template).Pairwise
      fun earlier later => earlier.start + earlier.length < later.start :=
  (Template.fragmentsFrom_spec [] template.toList []).2

/-! ### Ranges of a fragment -/

namespace Fragment

theorem toTemplate?_eq_some {fragment : Fragment} {offset inTemplate : Nat} :
    fragment.toTemplate? offset = some inTemplate ↔
      (fragment.lead ≤ offset ∧ offset ≤ fragment.lead + fragment.length) ∧
        inTemplate = fragment.start + (offset - fragment.lead) := by
  rw [toTemplate?, Option.ite_none_right_eq_some, Option.some.injEq, eq_comm (a := inTemplate)]

theorem spanInTemplate?_eq_some {fragment : Fragment} {span inTemplate : Span} :
    fragment.spanInTemplate? span = some inTemplate ↔
      fragment.toTemplate? span.start = some inTemplate.start ∧
        fragment.toTemplate? span.stop = some inTemplate.stop := by
  fun_cases spanInTemplate? fragment span with
  | case1 start stop last first =>
    rw [first, last, Option.some.injEq, Option.some.injEq, Option.some.injEq, Span.mk.injEq]
  | case2 missing =>
    refine ⟨nofun, ?_⟩
    rintro ⟨first, last⟩
    exact absurd last (missing _ _ first)

/-- **A range of a fragment reads the same in the program and in the template.** -/
theorem CutFrom.slice?_eq {template : String} {fragment : Fragment} {span inTemplate : Span}
    (cut : fragment.CutFrom template.toList) (mapped : fragment.spanInTemplate? span = some inTemplate)
    (ordered : span.start ≤ span.stop) :
    slice? template inTemplate.start inTemplate.stop = slice? fragment.code span.start span.stop := by
  obtain ⟨first, last⟩ := spanInTemplate?_eq_some.mp mapped
  obtain ⟨⟨startAhead, -⟩, start⟩ := toTemplate?_eq_some.mp first
  obtain ⟨⟨stopAhead, stopInside⟩, stop⟩ := toTemplate?_eq_some.mp last
  obtain ⟨ahead, content, after, opening, closing, split, code, starts, lasts, leads⟩ := cut.shape
  have rebuilt : template = String.ofList (ahead ++ content ++ after) := by
    rw [← split, String.ofList_toList]
  have fewer := Nat.sub_le_sub_right ordered fragment.lead
  have inside : span.stop - fragment.lead ≤ byteCount content := by omega
  have inContent := slice?_inner opening closing fewer inside
  rw [← leads, Nat.add_sub_cancel' startAhead, Nat.add_sub_cancel' stopAhead, ← code] at inContent
  rw [inContent, start, stop, rebuilt, starts]
  exact slice?_inner ahead after fewer inside

/-- A range of a fragment ends inside the template. -/
theorem CutFrom.stop_le {template : String} {fragment : Fragment} {span inTemplate : Span}
    (cut : fragment.CutFrom template.toList)
    (mapped : fragment.spanInTemplate? span = some inTemplate) :
    inTemplate.stop ≤ byteLength template := by
  obtain ⟨⟨stopAhead, stopInside⟩, stop⟩ :=
    toTemplate?_eq_some.mp (spanInTemplate?_eq_some.mp mapped).2
  obtain ⟨ahead, content, after, _, _, split, _, starts, lasts, _⟩ := cut.shape
  rw [byteLength_eq, split, byteCount_append, byteCount_append]
  omega

end Fragment

end ArtifactIndex
