/-
**The members of an object have distinct names.**

A text may give a member twice; the object that is read has it once, and its members ascend by their names.

* `Dict.inOrder_ofList`: entries set one after another are kept in order;
* `Json.exists_readMembers_of_parse`: such an object is made of the members that the text gives;
* `Json.pairwise_of_parse`: the members of an object that is read from a text ascend.
-/

import ArtifactIndex.Json.Reader
import ArtifactIndex.Proofs.Tree.Listing

namespace ArtifactIndex

/-- **Entries set one after another** are in order. -/
theorem Dict.inOrder_ofList {α : Type} (entries : List (String × α)) : (Dict.ofList entries).InOrder := by
  suffices ∀ dict : Dict α, dict.InOrder →
      (entries.foldl (fun dict entry => dict.insert entry.1 entry.2) dict).InOrder from this _ .nil
  induction entries with
  | nil => exact fun _ inOrder => inOrder
  | cons entry rest ih => exact fun dict inOrder => ih _ (pairwise_insertEntry inOrder)

namespace Json

/-- The value is no object. -/
def IsPlain (value : Json) : Prop := ∀ members, value ≠ .object members

variable {value : Json} {cursor behind : Cursor} {negative : Bool} {significand : Nat} {exponent : Int}

/-! ### Numbers and words -/

theorem isPlain_of_decimalAt
    (isRead : decimalAt negative significand exponent cursor = .ok (value, behind)) : value.IsPlain := by
  unfold decimalAt at isRead
  split at isRead
  · cases isRead
    nofun
  · cases isRead

theorem isPlain_of_readExponent
    (isRead : readExponent negative significand exponent cursor = .ok (value, behind)) :
    value.IsPlain := by
  unfold readExponent at isRead
  dsimp only at isRead
  split at isRead
  · cases isRead
  · split at isRead
    · exact isPlain_of_decimalAt isRead
    · cases isRead

theorem isPlain_of_readScale
    (isRead : readScale negative significand exponent cursor = .ok (value, behind)) :
    value.IsPlain := by
  unfold readScale at isRead
  split at isRead
  · exact isPlain_of_readExponent isRead
  · exact isPlain_of_readExponent isRead
  · exact isPlain_of_decimalAt isRead

theorem isPlain_of_readFraction
    (isRead : readFraction negative significand exponent cursor = .ok (value, behind)) :
    value.IsPlain := by
  unfold readFraction at isRead
  dsimp only at isRead
  split at isRead
  · cases isRead
  · exact isPlain_of_readScale isRead

theorem isPlain_of_readNumberTail {left : Nat}
    (isRead : readNumberTail negative significand left cursor = .ok (value, behind)) :
    value.IsPlain := by
  unfold readNumberTail at isRead
  split at isRead
  · exact isPlain_of_readFraction isRead
  · exact isPlain_of_readExponent isRead
  · exact isPlain_of_readExponent isRead
  · split at isRead
    · exact isPlain_of_decimalAt isRead
    · split at isRead
      · split at isRead
        · exact isPlain_of_decimalAt isRead
        · cases isRead
          nofun
      · cases isRead
        nofun

theorem isPlain_of_readNumber (isRead : readNumber negative cursor = .ok (value, behind)) :
    value.IsPlain := by
  unfold readNumber at isRead
  split at isRead
  · cases isRead
  · next c rest shape =>
    split at isRead
    · split at isRead
      · split at isRead
        · cases isRead
        · exact isPlain_of_readNumberTail isRead
      · exact isPlain_of_readNumberTail isRead
    · split at isRead
      · exact isPlain_of_readNumberTail isRead
      · cases isRead

theorem exists_of_map_eq_ok {ε α β : Type} {change : α → β} {outcome : Except ε α} {result : β}
    (isMapped : outcome.map change = .ok result) : ∃ found, outcome = .ok found ∧ change found = result := by
  cases outcome with
  | error fault => cases isMapped
  | ok found =>
    cases isMapped
    exact ⟨found, rfl, rfl⟩

/-- A value without braces and brackets is no object. -/
theorem isPlain_of_readScalar (isRead : readScalar cursor = .ok (value, behind)) : value.IsPlain := by
  unfold readScalar at isRead
  split at isRead
  · cases isRead
  · split at isRead
    · obtain ⟨_, -, ⟨⟩⟩ := exists_of_map_eq_ok isRead
      intro members same
      cases same
    · split at isRead
      · obtain ⟨_, -, ⟨⟩⟩ := exists_of_map_eq_ok isRead
        intro members same
        cases same
      · split at isRead
        · obtain ⟨_, -, ⟨⟩⟩ := exists_of_map_eq_ok isRead
          intro members same
          cases same
        · split at isRead
          · exact isPlain_of_readNumber isRead
          · split at isRead
            · exact isPlain_of_readNumber isRead
            · split at isRead
              · obtain ⟨_, -, ⟨⟩⟩ := exists_of_map_eq_ok isRead
                intro members same
                cases same
              · cases isRead

/-! ### Values -/

/-- **An object is read by its members**, from behind its opening brace on. -/
theorem exists_readMembers_of_readValue {fuel depth : Nat} {entries : List (String × Json)}
    (isRead : readValue fuel depth cursor = .ok (.object entries, behind)) :
    ∃ members inner, readMembers (fuel - 1) (depth - 1) true cursor.skipGaps.next = .ok (members, inner) ∧
      entries = (Dict.ofList members).entries := by
  cases fuel with
  | zero => cases isRead
  | succ fuel =>
    rw [readValue] at isRead
    split at isRead
    · cases isRead
    · split at isRead
      · split at isRead
        · cases isRead
        · split at isRead
          · cases isRead
          · cases isRead
      · split at isRead
        · split at isRead
          · cases isRead
          · split at isRead
            · next members inner areMembers =>
              cases isRead
              exact ⟨members, inner, areMembers, rfl⟩
            · cases isRead
        · exact absurd rfl (isPlain_of_readScalar isRead entries)

/-- The members of a text that is an object. -/
theorem exists_readMembers_of_parse {text : String} {entries : List (String × Json)}
    (isRead : parse text = .ok (.object entries)) :
    ∃ members inner, readMembers (fuelFor (.ofText text) - 1) (depthLimit - 1) true
        (Cursor.ofText text).skipGaps.next = .ok (members, inner) ∧
      entries = (Dict.ofList members).entries := by
  unfold parse at isRead
  dsimp only at isRead
  split at isRead
  · cases isRead
  · next value cursor isValue =>
    split at isRead
    · cases isRead
    · cases isRead
      exact exists_readMembers_of_readValue isValue

/-- **The members of an object ascend.** -/
theorem pairwise_of_parse {text : String} {members : List (String × Json)}
    (isRead : parse text = .ok (.object members)) :
    members.Pairwise fun left right => left.1 < right.1 := by
  obtain ⟨read, -, -, rfl⟩ := exists_readMembers_of_parse isRead
  exact Dict.inOrder_ofList read

end Json

end ArtifactIndex
