/-
**Checked slices.**

A scan that keeps byte offsets must only cut at boundaries of its text. A checked slice fails everywhere
else, so that a scan made of checked slices fails as soon as it leaves the boundaries.

* `takeBytes?_eq_some_iff`: the beginning of a text with a given number of bytes;
* `checkedSlice?_middle`: the slice over a run of characters;
* `checkedSlice?_isSome_iff`: a slice succeeds between two boundaries in order, and only there.
-/

import ArtifactIndex.Proofs.Text.Slices

namespace ArtifactIndex

/-- The text between two byte offsets; `none` unless both are boundaries in order. Unlike `slice?`, it also
fails on an empty range inside a character. -/
def checkedSlice? (text : String) (start stop : Nat) : Option String := do
  let before ← takeBytes? start text.toList
  let upTo ← takeBytes? stop text.toList
  if start ≤ stop then some (String.ofList (upTo.drop before.length)) else none

theorem takeBytes?_eq_some_iff {count : Nat} {chars before : List Char} :
    takeBytes? count chars = some before ↔ before <+: chars ∧ byteCount before = count := by
  fun_induction takeBytes? count chars generalizing before with
  | case1 chars =>
    constructor
    · rintro ⟨⟩
      exact ⟨List.nil_prefix, rfl⟩
    · rintro ⟨-, empty⟩
      by_contra differs
      have := byteCount_pos (fun isNil => differs (congrArg some isNil.symm) : before ≠ [])
      omega
  | case2 count =>
    refine ⟨nofun, ?_⟩
    rintro ⟨isPrefix, counted⟩
    rw [List.prefix_nil.mp isPrefix] at counted
    cases counted
  | case3 count c rest fits ih =>
    rw [Option.map_eq_some_iff]
    constructor
    · rintro ⟨others, taken, rfl⟩
      obtain ⟨isPrefix, counted⟩ := ih.mp taken
      refine ⟨(List.prefix_cons_inj c).mpr isPrefix, ?_⟩
      rw [byteCount_cons]
      omega
    · rintro ⟨isPrefix, counted⟩
      cases before with
      | nil => cases counted
      | cons d others =>
        obtain ⟨rfl, later⟩ := List.cons_prefix_cons.mp isPrefix
        rw [byteCount_cons] at counted
        exact ⟨others, ih.mpr ⟨later, by omega⟩, rfl⟩
  | case4 count c rest tooLong =>
    refine ⟨nofun, ?_⟩
    rintro ⟨isPrefix, counted⟩
    cases before with
    | nil => cases counted
    | cons d others =>
      obtain ⟨rfl, -⟩ := List.cons_prefix_cons.mp isPrefix
      rw [byteCount_cons] at counted
      omega

/-- The slice over a run of characters. -/
theorem checkedSlice?_middle {text : String} {before middle behind : List Char}
    (shape : text.toList = before ++ middle ++ behind) :
    checkedSlice? text (byteCount before) (byteCount before + byteCount middle) =
      some (String.ofList middle) := by
  have first : takeBytes? (byteCount before) text.toList = some before :=
    takeBytes?_eq_some_iff.mpr ⟨⟨middle ++ behind, by rw [shape, List.append_assoc]⟩, rfl⟩
  have second : takeBytes? (byteCount before + byteCount middle) text.toList = some (before ++ middle) :=
    takeBytes?_eq_some_iff.mpr ⟨⟨behind, shape.symm⟩, byteCount_append ..⟩
  rw [checkedSlice?, first, second]
  exact (if_pos (Nat.le_add_right _ _)).trans (by rw [List.drop_left])

/-- **A slice succeeds between two boundaries in order**, and only there. -/
theorem checkedSlice?_isSome_iff {text : String} {start stop : Nat} :
    (checkedSlice? text start stop).isSome ↔ Boundary text start ∧ Boundary text stop ∧ start ≤ stop := by
  constructor
  · intro isSome
    unfold checkedSlice? at isSome
    cases first : takeBytes? start text.toList with
    | none => rw [first] at isSome; cases isSome
    | some before =>
      cases second : takeBytes? stop text.toList with
      | none => rw [first, second] at isSome; cases isSome
      | some upTo =>
        obtain ⟨⟨behind, shape⟩, rfl⟩ := takeBytes?_eq_some_iff.mp first
        obtain ⟨⟨after, shapeToo⟩, rfl⟩ := takeBytes?_eq_some_iff.mp second
        refine ⟨⟨before, behind, shape.symm, rfl⟩, ⟨upTo, after, shapeToo.symm, rfl⟩, ?_⟩
        by_contra unordered
        rw [first, second] at isSome
        simp [unordered] at isSome
  · rintro ⟨⟨before, rest, shape, rfl⟩, second, ordered⟩
    obtain ⟨middle, behind, rfl, rfl⟩ := second.exists_middle shape ordered
    rw [checkedSlice?_middle (by rw [shape, List.append_assoc])]
    rfl

/-- The rest of a text behind a boundary. -/
theorem checkedSlice?_toEnd {text : String} {before rest : List Char} (shape : text.toList = before ++ rest) :
    checkedSlice? text (byteCount before) (byteLength text) = some (String.ofList rest) := by
  rw [byteLength_eq, shape, byteCount_append]
  exact checkedSlice?_middle (by rw [shape, List.append_nil])

end ArtifactIndex
