/-
**Literals at a position, as they are written.**

The value of a literal is its body with the escapes in it decoded. Decoding only drops characters, so a body
that its own value starts with has no escapes, and is the value. In a program the literal over an offset is
known with its place: it is what is written there, and the same literal is over each offset of its range.

* `decode_eq_self_iff`, `prefix_decode_iff`: bodies without escapes;
* `Node.Row.of_literalBelowAny?`: where the search for a literal ends, it ends for each offset of the literal;
* `Node.IsTreeOf.written_of_literalAt?`: the literal over an offset of a program;
* `WrittenLiteral.StandsAt.typedPart_last`: what is typed of it up to its closing quote.
-/

import ArtifactIndex.Cursor
import ArtifactIndex.Proofs.Code.Literals

namespace ArtifactIndex

/-! ### Escapes -/

namespace Literal

variable {quote c next : Char} {body rest : List Char}

/-- No backslash in the body escapes the character behind it. -/
def Unescaped (quote : Char) (body : List Char) : Prop :=
  ∀ before c behind, body = before ++ '\\' :: c :: behind → escaped? quote c = none

theorem unescaped_of_short (short : body.length ≤ 1) : Unescaped quote body := by
  intro before c behind shape
  rw [shape, List.length_append, List.length_cons, List.length_cons] at short
  omega

theorem unescaped_cons_cons : Unescaped quote (c :: next :: rest) ↔
    (c = '\\' → escaped? quote next = none) ∧ Unescaped quote (next :: rest) := by
  constructor
  · intro unescaped
    refine ⟨fun isBackslash => unescaped [] next rest (by rw [isBackslash, List.nil_append]), ?_⟩
    intro before other behind shape
    exact unescaped (c :: before) other behind (by rw [shape, List.cons_append])
  · rintro ⟨here, later⟩ before other behind shape
    cases before with
    | nil =>
      cases shape
      exact here rfl
    | cons first before => exact later before other behind (List.cons.inj shape).2

/-- A decoded body is never longer than the body. -/
theorem length_decode_le (quote : Char) (body : List Char) :
    (decode quote body).length ≤ body.length := by
  fun_induction decode quote body with
  | case1 => exact Nat.le_refl _
  | case2 => exact Nat.le_refl _
  | case3 next rest meant _ ih =>
    rw [List.length_cons, List.length_cons, List.length_cons]
    omega
  | case4 next rest _ ih => exact Nat.succ_le_succ ih
  | case5 c next rest _ ih => exact Nat.succ_le_succ ih

/-- **A body means itself** exactly when nothing in it is escaped. -/
theorem decode_eq_self_iff (quote : Char) (body : List Char) :
    decode quote body = body ↔ Unescaped quote body := by
  fun_induction decode quote body with
  | case1 => exact iff_of_true rfl (unescaped_of_short (Nat.zero_le _))
  | case2 => exact iff_of_true rfl (unescaped_of_short (Nat.le_refl _))
  | case3 next rest meant isEscaped _ =>
    refine iff_of_false (fun same => ?_) (fun unescaped => ?_)
    · have shorter := length_decode_le quote rest
      have sameLength := congrArg List.length same
      rw [List.length_cons, List.length_cons, List.length_cons] at sameLength
      omega
    · have notEscaped := (unescaped_cons_cons.mp unescaped).1 rfl
      rw [isEscaped] at notEscaped
      cases notEscaped
  | case4 next rest notEscaped ih =>
    rw [List.cons.injEq, ih, unescaped_cons_cons]
    exact and_congr_left fun _ => iff_of_true rfl fun _ => notEscaped
  | case5 c next rest noBackslash ih =>
    rw [List.cons.injEq, ih, unescaped_cons_cons]
    exact and_congr_left fun _ => iff_of_true rfl fun isBackslash => absurd isBackslash noBackslash

/-- **A value starts with the body** that it is decoded from exactly when nothing in it is escaped. -/
theorem prefix_decode_iff (quote : Char) (body : List Char) :
    body <+: decode quote body ↔ Unescaped quote body := by
  rw [← decode_eq_self_iff]
  constructor
  · intro begins
    exact (begins.eq_of_length_le (length_decode_le quote body)).symm
  · intro same
    rw [same]

end Literal

/-! ### Where a search ends -/

namespace Node

/-- **The search for the literal over an offset** in a nested row. Where it ends at a literal without embedded
code, that literal stands in the row, and the search over each other offset of its range ends there, too. -/
theorem Row.of_literalBelowAny? {holds : Node → Prop} {lo hi : Nat} {nodes : List Node} {parent : Node}
    {trail : List Descent} {index offset : Nat} {place : Place} (row : Row holds lo hi nodes)
    (found : literalBelowAny? offset parent trail index nodes = some place)
    (bare : place.node.children = []) :
    lo ≤ place.node.span.start ∧ place.node.span.start ≤ place.node.span.stop ∧
      place.node.span.stop ≤ hi ∧ holds place.node ∧
      ∀ other, place.node.span.covers other = true →
        literalBelowAny? other parent trail index nodes = some place := by
  induction row generalizing parent trail index with
  | nil _ => cases found
  | @cons _ _ kind span text children rest behind held inner later below ahead =>
    rw [literalBelowAny?] at found
    split at found
    · rw [literalBelow?] at found
      split at found
      · next deeper isDeeper =>
        -- The literal stands below the first node.
        cases found
        obtain ⟨start, ordered, stop, heldToo, same⟩ := below isDeeper
        have inside := later.le
        refine ⟨by omega, ordered, by omega, heldToo, fun other covered => ?_⟩
        have inNode : span.covers other = true := by
          rw [Span.covers_iff] at covered ⊢
          omega
        rw [literalBelowAny?]
        show (if span.covers other = true then _ else _) = _
        rw [if_pos inNode, literalBelow?, same other covered]
      · next isString =>
        -- The first node is the literal itself, and has no children in which the search could go on.
        split at found
        · next isLiteral =>
          cases found
          cases (show children = [] from bare)
          refine ⟨behind, inner.le, later.le, held, fun other covered => ?_⟩
          rw [literalBelowAny?, if_pos covered, literalBelow?, literalBelowAny?]
          simp only [isLiteral, if_true]
        · cases found
    · obtain ⟨start, ordered, stop, heldToo, same⟩ := ahead found
      have inside := inner.le
      refine ⟨by omega, ordered, stop, heldToo, fun other covered => ?_⟩
      have outside : ¬span.covers other = true := by
        rw [Span.covers_iff] at covered ⊢
        omega
      rw [literalBelowAny?]
      show (if span.covers other = true then _ else _) = _
      rw [if_neg outside, same other covered]

end Node

/-! ### Written literals -/

namespace WrittenLiteral

variable {written : WrittenLiteral} {source : String} {span : Span}

/-- The literal is what stands in the range of the source. -/
def StandsAt (written : WrittenLiteral) (source : String) (span : Span) : Prop :=
  ∃ before behind, source.toList = before ++ written.chars ++ behind ∧
    span = ⟨byteCount before, byteCount before + byteCount written.chars⟩

/-- Nothing in the literal is escaped. -/
def Unescaped (written : WrittenLiteral) : Prop := Literal.Unescaped written.quote written.body

/-- The literal is the slice of its range. -/
theorem StandsAt.slice?_eq (stands : written.StandsAt source span) :
    slice? source span.start span.stop = some (String.ofList written.chars) := by
  obtain ⟨before, behind, shape, rfl⟩ := stands
  exact slice?_middle shape

/-- A quote takes one byte. -/
theorem utf8Size_quote (written : WrittenLiteral) : written.quote.utf8Size = 1 := by
  have isQuote := written.isQuote
  simp only [Literal.isQuote, Bool.or_eq_true, beq_iff_eq] at isQuote
  obtain isQuote | isQuote := isQuote <;> rw [isQuote] <;> rfl

/-- The bytes of the literal, around its body. -/
theorem byteCount_chars (written : WrittenLiteral) :
    byteCount written.chars = byteCount written.mark + 1 + byteCount written.body + 1 := by
  rw [chars, byteCount_append, byteCount_append, byteCount_cons, byteCount_cons, byteCount_nil,
    written.utf8Size_quote]
  omega

/-- The closing quote is a part of the literal. -/
theorem StandsAt.covers_last (stands : written.StandsAt source span) :
    span.covers (span.stop - 1) = true := by
  obtain ⟨before, behind, -, rfl⟩ := stands
  have counted := written.byteCount_chars
  rw [Span.covers_iff]
  dsimp only
  omega

/-- The body of the literal starts behind the first quote. -/
theorem StandsAt.bodyStart_eq (stands : written.StandsAt source span) :
    bodyStart source span.start = span.start + byteCount written.mark + 1 := by
  obtain ⟨before, behind, shape, rfl⟩ := stands
  have toEnd : slice? source (byteCount before) (byteLength source) =
      some (String.ofList (written.chars ++ behind)) := by
    have whole : source.toList = before ++ (written.chars ++ behind) ++ [] := by
      rw [shape, List.append_assoc, List.append_nil]
    rw [byteLength_eq, shape, List.append_assoc, byteCount_append]
    exact slice?_middle whole
  -- The mark has no quote in it.
  have isMark : ∀ c ∈ written.mark, (!Pattern.quotes.contains c) = true := by
    refine List.all_eq_true.mp ?_
    rcases written.isMark with isMark | isMark | isMark <;> rw [isMark] <;> decide
  have isQuote : ¬(!Pattern.quotes.contains written.quote) = true := by
    have isQuote := written.isQuote
    simp only [Literal.isQuote, Bool.or_eq_true, beq_iff_eq] at isQuote
    obtain isQuote | isQuote := isQuote <;> rw [isQuote] <;> decide
  have upToQuote : (written.chars ++ behind).takeWhile (!Pattern.quotes.contains ·) = written.mark := by
    rw [chars, List.append_assoc, List.append_assoc, List.cons_append,
      List.takeWhile_append_of_pos isMark, List.takeWhile_cons, if_neg isQuote, List.append_nil]
  have shorter : written.mark.length < (written.chars ++ behind).length := by
    simp only [chars, List.length_append, List.length_cons]
    omega
  simp only [bodyStart, toEnd, String.toList_ofList, upToQuote, if_pos shorter]

/-- **What is typed up to the closing quote** is the body. -/
theorem StandsAt.typedPart_last (stands : written.StandsAt source span) :
    typedPart source span.start (span.stop - 1) = String.ofList written.body := by
  rw [typedPart, stands.bodyStart_eq]
  obtain ⟨before, behind, shape, rfl⟩ := stands
  have counted := written.byteCount_chars
  have parted : source.toList =
      (before ++ written.mark ++ [written.quote]) ++ written.body ++ (written.quote :: behind) := by
    rw [shape, chars]
    simp only [List.append_assoc, List.cons_append, List.nil_append]
  have body := slice?_middle parted
  rw [byteCount_append, byteCount_append, byteCount_cons, byteCount_nil, written.utf8Size_quote] at body
  have stop : byteCount before + byteCount written.chars - 1 =
      byteCount before + byteCount written.mark + (1 + 0) + byteCount written.body := by omega
  dsimp only
  rw [stop]
  split
  · next short =>
    -- Nothing stands between the quotes.
    have empty : written.body = [] := by
      by_contra nonempty
      have := byteCount_pos nonempty
      omega
    rw [empty]
  · rw [body, Option.getD_some]

end WrittenLiteral

namespace Node

/-- **The literal over an offset of a program.** It is written in its range, and it is over each offset of
that range. -/
theorem IsTreeOf.written_of_literalAt? {source value : String} {root : Node} {offset : Nat} {place : Place}
    (isTree : root.IsTreeOf source) (found : root.literalAt? offset = some place)
    (hasValue : place.node.literal? = some value) :
    ∃ written : WrittenLiteral, written.StandsAt source place.node.span ∧ value = written.value ∧
      ∀ other, place.node.span.covers other = true → root.literalAt? other = some place := by
  obtain ⟨isString, bare, isValue⟩ := bare_of_literal? hasValue
  rw [isTree.literalAt?_eq] at found
  obtain ⟨-, ordered, -, read, same⟩ := isTree.row.of_literalBelowAny? found bare
  obtain ⟨before, rest, split, isStart⟩ := read.start
  obtain ⟨middle, behind, rfl, isStop⟩ := read.stop.exists_middle split (isStart ▸ ordered)
  have whole : source.toList = before ++ middle ++ behind := by rw [split, List.append_assoc]
  have isSpan : place.node.span = ⟨byteCount before, byteCount before + byteCount middle⟩ := by
    rw [← isStop, ← isStart]
  have unpadded := read.bare isString bare value
  rw [read.text, isSpan, textOf_middle whole] at isValue
  rw [isSpan, textOf_middle whole] at unpadded
  obtain ⟨written, isWritten, isDecoded⟩ := Literal.unquote?_writes isValue
  rw [unpadded isValue, String.toList_ofList] at isWritten
  refine ⟨written, ⟨before, behind, ?_, ?_⟩, isDecoded, fun other covered => ?_⟩
  · rw [whole, isWritten]
  · rw [isSpan, isWritten]
  · rw [isTree.literalAt?_eq, same other covered]

end Node

end ArtifactIndex
