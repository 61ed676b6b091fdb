/-
**Texts in quotes.**

A text that has a value as a literal is, blanks around it aside, a body between two quotes.

* `unquote?_writes`: what is written in such a text, and how its value comes from that;
* `unquote?_isQuoted`: an unpadded text with a value is quoted;
* `unpadded_of_ends`, `unpadded_of_head`: two ways to see that a range holds no padded literal.
-/

import ArtifactIndex.Code.Literal
import ArtifactIndex.Proofs.Text.Slices

namespace ArtifactIndex

/-- The text is a body between two quotes, behind an optional `b` or `B`. -/
def IsQuoted (text : String) (body : List Char) : Prop :=
  ∃ mark first last, text.toList = mark ++ first :: body ++ [last] ∧
    (mark = [] ∨ mark = ['b'] ∨ mark = ['B']) ∧ Literal.isQuote first = true ∧
    Literal.isQuote last = true

theorem IsQuoted.byteLength_pos {text : String} {body : List Char} (quoted : IsQuoted text body) :
    0 < byteLength text := by
  obtain ⟨mark, first, last, shape, _⟩ := quoted
  rw [byteLength_eq, shape]
  exact byteCount_pos (List.append_ne_nil_of_right_ne_nil _ (List.cons_ne_nil _ _))

/-- **A literal as it is written**: a body between two quotes of one kind, behind an optional mark. -/
structure WrittenLiteral where
  mark : List Char
  quote : Char
  body : List Char
  isMark : mark = [] ∨ mark = ['b'] ∨ mark = ['B']
  isQuote : Literal.isQuote quote = true

namespace WrittenLiteral

/-- The characters of the literal. -/
def chars (written : WrittenLiteral) : List Char :=
  written.mark ++ written.quote :: written.body ++ [written.quote]

/-- What the literal means: its body with the escapes in it decoded. -/
def value (written : WrittenLiteral) : String := String.ofList (Literal.decode written.quote written.body)

end WrittenLiteral

/-- **No padded literal.** If the range of a text has a value as a literal, no blanks stand around that
literal in the range. -/
def Unpadded (source : String) (span : Span) : Prop :=
  ∀ value, Literal.unquote? (textOf source span) = some value →
    trimmed (textOf source span) = textOf source span

namespace Literal

/-- The parts of a literal behind its mark. -/
theorem withoutMark_eq (chars : List Char) :
    withoutMark chars = chars ∨
      ∃ mark rest, (mark = 'b' ∨ mark = 'B') ∧ chars = mark :: rest ∧ withoutMark chars = rest := by
  fun_cases withoutMark chars
  case case1 mark quote rest isMark => exact .inr ⟨mark, quote :: rest, isMark.1, rfl, rfl⟩
  case case2 => exact .inl rfl
  case case3 => exact .inl rfl

/-- **What is written** in a text with a value, blanks around it aside. -/
theorem unquote?_writes {raw value : String} (found : unquote? raw = some value) :
    ∃ written : WrittenLiteral, (trimmed raw).toList = written.chars ∧ value = written.value := by
  revert found
  fun_cases unquote? raw
  case case1 =>
    rename_i rest quote inner reversed shape isQuote
    rintro ⟨⟩
    have behind : rest = inner.reverse ++ [quote] := by
      rw [← List.reverse_reverse rest, reversed, List.reverse_cons]
    rcases withoutMark_eq (trimmed raw).toList with same | ⟨mark, tail, isMark, chars, bare⟩
    · refine ⟨⟨[], quote, inner.reverse, .inl rfl, isQuote⟩, ?_, rfl⟩
      rw [← same, shape, behind]
      rfl
    · have oneMark : [mark] = ['b'] ∨ [mark] = ['B'] := isMark.imp (congrArg ([·])) (congrArg ([·]))
      refine ⟨⟨[mark], quote, inner.reverse, .inr oneMark, isQuote⟩, ?_, rfl⟩
      show (trimmed raw).toList = mark :: quote :: (inner.reverse ++ [quote])
      rw [chars, ← bare, shape, behind]
  all_goals nofun

/-- A text with a value is quoted, blanks around it aside. -/
theorem unquote?_isQuoted {raw value : String} (found : unquote? raw = some value) :
    ∃ body, IsQuoted (trimmed raw) body := by
  obtain ⟨⟨mark, quote, body, isMark, isQuote⟩, shape, -⟩ := unquote?_writes found
  exact ⟨body, mark, quote, quote, shape, isMark, isQuote, isQuote⟩

/-- A text that starts with none of the characters of a literal has no value. -/
theorem unquote?_eq_none {c : Char} {rest : List Char} (notBlank : isBlank c = false)
    (notMark : c ≠ 'b' ∧ c ≠ 'B') (notQuote : isQuote c = false) :
    unquote? (String.ofList (c :: rest)) = none := by
  cases found : unquote? (String.ofList (c :: rest)) with
  | none => rfl
  | some value =>
    obtain ⟨body, mark, first, last, shape, isMark, isFirst, _⟩ := unquote?_isQuoted found
    have head : (trimmed (String.ofList (c :: rest))).toList.head? = some c := head?_trimmed notBlank
    rw [shape] at head
    rcases isMark with rfl | rfl | rfl
    · cases head
      exact absurd (notQuote.symm.trans isFirst) Bool.false_ne_true
    · cases head
      exact absurd rfl notMark.1
    · cases head
      exact absurd rfl notMark.2

end Literal

/-! ### Ranges -/

theorem textOf_middle {source : String} {before middle behind : List Char}
    (shape : source.toList = before ++ middle ++ behind) :
    textOf source ⟨byteCount before, byteCount before + byteCount middle⟩ = String.ofList middle := by
  rw [textOf, slice?_middle shape]
  rfl

/-- A range that neither starts nor ends with a blank holds no padded literal. -/
theorem unpadded_of_ends {source : String} {before middle behind : List Char}
    (shape : source.toList = before ++ middle ++ behind)
    (first : ∀ c ∈ middle.head?, isBlank c = false) (last : ∀ c ∈ middle.getLast?, isBlank c = false) :
    Unpadded source ⟨byteCount before, byteCount before + byteCount middle⟩ := by
  intro _ _
  rw [textOf_middle shape]
  refine trimmed_eq_self ?_ ?_
  · rwa [String.toList_ofList]
  · rwa [String.toList_ofList]

/-- A range that starts with none of the characters of a literal holds none. -/
theorem unpadded_of_head {source : String} {before rest : List Char} {c : Char} {stop : Nat}
    (shape : source.toList = before ++ c :: rest) (boundary : Boundary source stop)
    (ordered : byteCount before ≤ stop) (notBlank : isBlank c = false)
    (notMark : c ≠ 'b' ∧ c ≠ 'B') (notQuote : Literal.isQuote c = false) :
    Unpadded source ⟨byteCount before, stop⟩ := by
  intro value found
  obtain ⟨middle, behind, split, rfl⟩ := boundary.exists_middle shape ordered
  have shapeToo : source.toList = before ++ middle ++ behind := by
    rw [shape, split, List.append_assoc]
  rw [textOf_middle shapeToo] at found ⊢
  cases middle with
  | nil => rfl
  | cons first inner =>
    cases split
    rw [Literal.unquote?_eq_none notBlank notMark notQuote] at found
    cases found

end ArtifactIndex
