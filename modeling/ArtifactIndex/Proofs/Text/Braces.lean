/-
**Braces in pairs.**

The braces of a text come in pairs when each closing one has an opening one before it, and none is left
open. The count of open braces decides this.

* `closesBraces`: a text that closes as many braces as are open before it;
* `exists_opening_of_closesBraces`: the first brace of a text whose braces come in pairs opens.
-/

import Mathlib.Data.List.Basic

namespace ArtifactIndex

/-- **The text closes the braces that are open before it**, and all that it opens itself. -/
def closesBraces : Nat → List Char → Bool
  | depth, [] => depth == 0
  | depth, c :: rest =>
    if c = '{' then closesBraces (depth + 1) rest
    else if c = '}' then
      match depth with
      | 0 => false
      | outer + 1 => closesBraces outer rest
    else closesBraces depth rest

section Steps

variable {depth : Nat} {c : Char} {rest : List Char}

theorem closesBraces_nil : closesBraces depth [] = true ↔ depth = 0 := by
  rw [closesBraces, beq_iff_eq]

theorem closesBraces_opening : closesBraces depth ('{' :: rest) = closesBraces (depth + 1) rest := by
  rw [closesBraces.eq_def]
  exact if_pos rfl

theorem closesBraces_closing :
    closesBraces depth ('}' :: rest) = true ↔ ∃ outer, depth = outer + 1 ∧ closesBraces outer rest = true := by
  cases depth <;> simp [closesBraces]

theorem closesBraces_other (noOpening : c ≠ '{') (noClosing : c ≠ '}') :
    closesBraces depth (c :: rest) = closesBraces depth rest := by
  rw [closesBraces.eq_def]
  exact (if_neg noOpening).trans (if_neg noClosing)

end Steps

/-- The text has no brace. -/
def IsBraceFree (chars : List Char) : Prop := ∀ c ∈ chars, c ≠ '{' ∧ c ≠ '}'

instance (chars : List Char) : Decidable (IsBraceFree chars) :=
  List.decidableBAll (fun c => c ≠ '{' ∧ c ≠ '}') chars

/-- **The first brace opens**, of a text whose braces come in pairs. -/
theorem exists_opening_of_closesBraces {chars : List Char} (closes : closesBraces 0 chars = true) :
    IsBraceFree chars ∨ ∃ before behind, chars = before ++ '{' :: behind ∧ IsBraceFree before := by
  induction chars with
  | nil => exact .inl nofun
  | cons c rest ih =>
    by_cases opening : c = '{'
    · exact .inr ⟨[], rest, by rw [opening, List.nil_append], nofun⟩
    by_cases closing : c = '}'
    · obtain ⟨outer, none, -⟩ := closesBraces_closing.mp (closing ▸ closes)
      cases none
    rw [closesBraces_other opening closing] at closes
    rcases ih closes with free | ⟨before, behind, rfl, free⟩
    · exact .inl (List.forall_mem_cons.mpr ⟨⟨opening, closing⟩, free⟩)
    · exact .inr ⟨c :: before, behind, rfl, List.forall_mem_cons.mpr ⟨⟨opening, closing⟩, free⟩⟩

end ArtifactIndex
