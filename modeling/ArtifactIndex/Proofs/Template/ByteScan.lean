/-
**The scan of a template by byte offsets.**

The scan for fragments can be run with an offset into the bytes of the template instead of lists of
characters. Such a scan cuts slices out of the text all the time, and a slice fails when it leaves the text
or cuts through a character. Here the scan is written so that a slice that fails stops it; it never does,
and it ends with the fragments of the template.

* `byteStep?`, `ByteScan`: one step of the scan and its runs;
* `byteStep?_eq`: a step at a boundary succeeds and takes the piece that stands there;
* `byteScan_iff`: the scan ends, with the fragments of the template and with nothing else.
-/

import ArtifactIndex.Proofs.Template.Fragments
import ArtifactIndex.Proofs.Text.ByteChars
import ArtifactIndex.Proofs.Text.CheckedSlices
import ArtifactIndex.Proofs.Text.Cuts

namespace ArtifactIndex

namespace Template

/-! ### Steps by byte offsets -/

/-- A step of the scan: the fragment that it finds, and the offset where the scan goes on. -/
structure ByteStep where
  found : Option Fragment
  next : Nat

/-- The byte at an offset passes the test. -/
def byteAt (text : String) (offset : Nat) (test : Char → Bool) : Bool :=
  ((byteChars text).drop offset).head?.any test

/-- The byte before an offset passes the test. -/
def byteBefore (text : String) (offset : Nat) (test : Char → Bool) : Bool :=
  ((byteChars text).take offset).getLast?.any test

/-- The run of bytes from an offset on that pass the test, by its length. -/
def byteRun (text : String) (offset : Nat) (test : Char → Bool) : Nat :=
  (((byteChars text).drop offset).takeWhile test).length

/-- The attribute in whose value an offset stands, looked for from the last tag on. The outer `none` stands
for a slice that fails, here and below. -/
def checkedAttribute? (text : String) (offset : Nat) : Option (Option String) := do
  let before ← checkedSlice? text 0 offset
  match splitLast? '<' before with
  | none => some none
  | some (ahead, _) =>
    let tag ← checkedSlice? before (byteLength ahead) (byteLength before)
    some (openAttribute? tag.toList.reverse)

/-- The offset of the next mark, or the end of the text. -/
def markOffset? (text : String) (start : Nat) (mark : String) : Option Nat := do
  let rest ← checkedSlice? text start (byteLength text)
  some (start + byteCount (untilMark mark.toList rest.toList))

/-- The offset behind a mark at an offset, or the end of the text. -/
def behindMark (text : String) (offset : Nat) (mark : String) : Nat :=
  min (offset + byteLength mark) (byteLength text)

/-- A step over a comment. -/
def skipPast? (text : String) (start : Nat) (mark : String) : Option ByteStep := do
  let stop ← markOffset? text start mark
  some ⟨none, behindMark text stop mark⟩

/-- The fragment of a range of the text. -/
def cutFragment? (text : String) (kind : FragmentKind) (opening closing : String) (start stop : Nat)
    (directive markupAttribute : Option String) : Option Fragment := do
  let body ← checkedSlice? text start stop
  some
    { kind
      code := opening ++ body ++ closing
      lead := byteLength opening
      start
      length := byteLength body
      directive
      markupAttribute }

/-- A step over code up to a mark. -/
def cutUntil? (text : String) (kind : FragmentKind) (opening closing : String) (start : Nat) (mark : String)
    (directive markupAttribute : Option String) : Option ByteStep := do
  let stop ← markOffset? text start mark
  let found ← cutFragment? text kind opening closing start stop directive markupAttribute
  some ⟨some found, behindMark text stop mark⟩

/-- The step over a directive with arguments, from its sign on. It goes on behind the sign alone when nothing
closes the arguments. -/
def argumentsStep? (text : String) (sign opensAt behindSign : Nat) (name : String) : Option ByteStep :=
  match groupLength? ((byteChars text).drop (opensAt + 1)) with
  | none => some ⟨none, behindSign⟩
  | some length => do
    let markupAttribute ← checkedAttribute? text sign
    let found ← cutFragment? text .directive (programOpening ++ directiveFunction ++ "(") ");"
      (opensAt + 1) (opensAt + 1 + length) (some name) markupAttribute
    some ⟨some found, opensAt + 1 + length + 1⟩

/-- The step over a directive without arguments, from behind its name on. -/
def bareStep? (text : String) (nameStop : Nat) (name : String) : Option ByteStep :=
  if name = "php" then
    cutUntil? text .codeBlock programOpening "\n;" nameStop "@endphp" (some name) none
  else some ⟨none, nameStop⟩

/-- The step at a directive's sign; it goes on behind the sign alone when no directive stands here. -/
def directiveStep? (text : String) (sign behindSign : Nat) : Option ByteStep :=
  let nameStop := sign + 1 + byteRun text (sign + 1) insideDirective
  let opensAt := nameStop + byteRun text nameStop fun c => c == ' ' || c == '\t'
  if nameStop = sign + 1 ∨ byteAt text (sign + 1) Char.isDigit then some ⟨none, behindSign⟩
  else do
    let name ← checkedSlice? text (sign + 1) nameStop
    if byteAt text opensAt (· == '(') then argumentsStep? text sign opensAt behindSign name
    else bareStep? text nameStop name

/-- **One step of the scan** at a byte offset inside the text. -/
def byteStep? (text : String) (offset : Nat) : Option ByteStep := do
  let rest ← checkedSlice? text offset (byteLength text)
  let behindFirst := offset + byteCount (rest.toList.take 1)
  if startsWith "\x7b\x7b--" rest then skipPast? text (offset + 4) "--\x7d\x7d"
  else if startsWith "@\x7b\x7b" rest then skipPast? text (offset + 3) "\x7d\x7d"
  else if startsWith "@@" rest then some ⟨none, offset + 2⟩
  else if startsWith "\x7b!!" rest then
    let markupAttribute ← checkedAttribute? text offset
    cutUntil? text .rawEcho programOpening ";" (offset + 3) "!!\x7d" none markupAttribute
  else if startsWith "\x7b\x7b" rest then
    let markupAttribute ← checkedAttribute? text offset
    cutUntil? text .echo programOpening ";" (offset + 2) "\x7d\x7d" none markupAttribute
  else if startsWith "<?php" rest then
    cutUntil? text .codeBlock programOpening "\n;" (offset + 5) "?>" none none
  else if startsWith "<?=" rest then
    cutUntil? text .codeBlock "<?php echo " "\n;" (offset + 3) "?>" none none
  else if byteAt text offset (· == '@') ∧ !byteBefore text offset insideDirective then
    directiveStep? text offset behindFirst
  else some ⟨none, behindFirst⟩

/-- **The runs of the scan** from an offset on, with the fragments that they find. -/
inductive ByteScan (text : String) : Nat → List Fragment → Prop
  | done {offset : Nat} (outside : byteLength text ≤ offset) : ByteScan text offset []
  | step {offset : Nat} {taken : ByteStep} {later : List Fragment} (inside : offset < byteLength text)
      (isStep : byteStep? text offset = some taken) (onward : ByteScan text taken.next later) :
      ByteScan text offset (taken.found.toList ++ later)

/-! ### Searches through bytes -/

theorem isAsciiTest_insideDirective : IsAsciiTest insideDirective :=
  IsAsciiTest.isAlphanum.or (.beq (by decide))

section Searches

variable {text : String} {ahead chars : List Char} {test : Char → Bool}

theorem byteAt_eq (isAscii : IsAsciiTest test) (shape : text.toList = ahead ++ chars) :
    byteAt text (byteCount ahead) test = chars.head?.any test := by
  rw [byteAt, (byteChars_append shape).2, isAscii.any_head?_flatMap]

theorem byteBefore_eq (isAscii : IsAsciiTest test) (shape : text.toList = ahead ++ chars) :
    byteBefore text (byteCount ahead) test = ahead.getLast?.any test := by
  rw [byteBefore, (byteChars_append shape).1, isAscii.any_getLast?_flatMap]

theorem byteRun_eq (isAscii : IsAsciiTest test) (shape : text.toList = ahead ++ chars) :
    byteRun text (byteCount ahead) test = byteCount (chars.takeWhile test) := by
  obtain ⟨same, counted⟩ := isAscii.takeWhile_flatMap chars
  rw [byteRun, (byteChars_append shape).2, same, counted]

end Searches

/-! ### Marks -/

/-- Behind what stands before a mark there is the mark, or nothing. -/
theorem untilMark_or (mark chars : List Char) :
    untilMark mark chars = chars ∨ untilMark mark chars ++ mark <+: chars := by
  induction chars with
  | nil => exact .inl rfl
  | cons c rest ih =>
    rw [untilMark]
    split
    · case isTrue starts => exact .inr (List.isPrefixOf_iff_prefix.mp starts)
    · rcases ih with all | found
      · exact .inl (by rw [all])
      · exact .inr ((List.prefix_cons_inj c).mpr found)

/-- The bytes up to and with a mark. -/
theorem byteCount_take_pastMark (mark chars : List Char) :
    byteCount (chars.take (pastMark mark chars)) =
      min (byteCount (untilMark mark chars) + byteCount mark) (byteCount chars) := by
  rw [pastMark]
  rcases untilMark_or mark chars with all | found
  · rw [all, Nat.min_eq_left (Nat.le_add_right _ _), List.take_length,
      Nat.min_eq_right (Nat.le_add_right _ _)]
  · generalize untilMark mark chars = body at found
    obtain ⟨behind, rfl⟩ := found
    simp only [List.length_append, byteCount_append]
    rw [Nat.min_eq_right (Nat.le_add_right _ _), Nat.min_eq_left (Nat.le_add_right _ _),
      ← List.length_append, List.take_left, byteCount_append]

/-- The bytes of a piece that starts with the given characters. -/
theorem byteCount_take_opened {opens : List Char} (given : opens ≠ []) (inner : List Char) (count : Nat) :
    byteCount ((opens ++ inner).take (max 1 (opens.length + count))) =
      byteCount opens + byteCount (inner.take count) := by
  have := List.length_pos_of_ne_nil given
  rw [Nat.max_eq_right (by omega), List.take_length_add_append, byteCount_append]

section Marks

variable {text : String} {ahead inner : List Char}

theorem markOffset?_eq (shape : text.toList = ahead ++ inner) (mark : String) :
    markOffset? text (byteCount ahead) mark =
      some (byteCount ahead + byteCount (untilMark mark.toList inner)) := by
  rw [markOffset?, checkedSlice?_toEnd shape, Option.bind_eq_bind, Option.bind_some, String.toList_ofList]

theorem behindMark_eq (shape : text.toList = ahead ++ inner) (mark : String) :
    behindMark text (byteCount ahead + byteCount (untilMark mark.toList inner)) mark =
      byteCount ahead + byteCount (inner.take (pastMark mark.toList inner)) := by
  rw [behindMark, byteCount_take_pastMark, byteLength_eq, byteLength_eq, shape, byteCount_append]
  omega

end Marks

/-! ### The step over a piece -/

/-- The step over a piece at the start of a text, behind the characters ahead of it. -/
def Piece.stepAt (piece : Piece) (ahead chars : List Char) : ByteStep where
  found := piece.code.map fun code => code.toFragment ahead.reverse (byteCount ahead) chars
  next := byteCount ahead + byteCount (chars.take (max 1 piece.length))

/-- A step and a piece that are chosen by the same question. -/
theorem ite_eq_stepAt {question : Prop} [Decidable question] {ifSo ifNot : Option ByteStep}
    {pieceIfSo pieceIfNot : Piece} {ahead chars : List Char}
    (yes : question → ifSo = some (pieceIfSo.stepAt ahead chars))
    (no : ¬question → ifNot = some (pieceIfNot.stepAt ahead chars)) :
    (if question then ifSo else ifNot) =
      some ((if question then pieceIfSo else pieceIfNot).stepAt ahead chars) := by
  by_cases answer : question
  · rw [if_pos answer, if_pos answer, yes answer]
  · rw [if_neg answer, if_neg answer, no answer]

section Pieces

variable {text : String} {ahead opens inner : List Char}

theorem skipPast?_eq (given : opens ≠ []) (shape : text.toList = ahead ++ (opens ++ inner)) (mark : String) :
    skipPast? text (byteCount ahead + byteCount opens) mark =
      some ((Piece.plain (opens.length + pastMark mark.toList inner)).stepAt ahead (opens ++ inner)) := by
  have shape : text.toList = (ahead ++ opens) ++ inner := by rw [shape, List.append_assoc]
  rw [← byteCount_append, skipPast?, markOffset?_eq shape, Option.bind_eq_bind, Option.bind_some,
    behindMark_eq shape, Piece.stepAt, Piece.plain, byteCount_take_opened given, byteCount_append,
    Nat.add_assoc]
  rfl

/-- The fragment of a range of the text is that of the piece of code there. -/
theorem cutFragment?_eq (code : CodePiece) (skips : code.skipped = opens.length)
    (content : code.content <+: inner) (shape : text.toList = ahead ++ (opens ++ inner)) :
    cutFragment? text code.kind code.opening code.closing (byteCount ahead + byteCount opens)
        (byteCount ahead + byteCount opens + byteCount code.content) code.directive
        (if code.inMarkup then openAttribute? ahead.reverse else none) =
      some (code.toFragment ahead.reverse (byteCount ahead) (opens ++ inner)) := by
  obtain ⟨behind, rfl⟩ := content
  have shape : text.toList = (ahead ++ opens) ++ code.content ++ behind := by simp [shape]
  rw [← byteCount_append, cutFragment?, checkedSlice?_middle shape, Option.bind_eq_bind, Option.bind_some,
    byteLength_ofList, CodePiece.toFragment, skips, List.take_left, byteCount_append]

theorem cutUntil?_eq (given : opens ≠ []) (shape : text.toList = ahead ++ (opens ++ inner)) (mark : String)
    (kind : FragmentKind) (opening closing : String) (directive : Option String) (inMarkup : Bool) :
    cutUntil? text kind opening closing (byteCount ahead + byteCount opens) mark directive
        (if inMarkup then openAttribute? ahead.reverse else none) =
      some ((Piece.between kind opens.length mark.toList opening closing directive inMarkup
        (opens ++ inner)).stepAt ahead (opens ++ inner)) := by
  have begins := untilMark_prefix mark.toList inner
  have found := cutFragment?_eq
    ⟨kind, opens.length, untilMark mark.toList inner, opening, closing, directive, inMarkup⟩ rfl begins shape
  have split : text.toList = (ahead ++ opens) ++ inner := by rw [shape, List.append_assoc]
  have isMark := markOffset?_eq split mark
  have next := behindMark_eq split mark
  rw [byteCount_append] at isMark next
  rw [cutUntil?, isMark, Option.bind_eq_bind, Option.bind_some, found, Option.bind_eq_bind,
    Option.bind_some, next, Piece.stepAt, Piece.between, List.drop_left, byteCount_take_opened given,
    Nat.add_assoc]
  rfl

end Pieces

/-! ### Attributes -/

theorem openAttribute?_eq_none {reversed : List Char} (noTag : '<' ∉ reversed) :
    openAttribute? reversed = none := by
  have noTag : '<' ∉ reversed.dropWhile fun c => c != '<' && c != '>' :=
    fun inside => noTag ((List.dropWhile_sublist _).mem inside)
  unfold openAttribute?
  split
  · case h_1 behind outside =>
    rw [outside] at noTag
    exact absurd List.mem_cons_self noTag
  · rfl

/-- What stands before the last tag does not decide on an attribute. -/
theorem openAttribute?_append (tag before : List Char) :
    openAttribute? (tag ++ '<' :: before) = openAttribute? (tag ++ ['<']) := by
  unfold openAttribute?
  rw [List.takeWhile_append, List.takeWhile_append, List.dropWhile_append, List.dropWhile_append,
    List.takeWhile_cons_of_neg (by decide), List.takeWhile_cons_of_neg (by decide),
    List.dropWhile_cons_of_neg (by decide), List.dropWhile_cons_of_neg (by decide)]
  cases outside : tag.dropWhile fun c => c != '<' && c != '>' with
  | nil => rfl
  | cons c others =>
    simp only [List.isEmpty_cons, Bool.false_eq_true, if_false, List.cons_append]
    by_cases isTag : c = '<'
    · subst isTag
      rfl
    · simp [isTag]

/-- The attribute at a boundary is found from the last tag on. -/
theorem checkedAttribute?_eq {text : String} {ahead chars : List Char}
    (shape : text.toList = ahead ++ chars) :
    checkedAttribute? text (byteCount ahead) = some (openAttribute? ahead.reverse) := by
  have before : checkedSlice? text 0 (byteCount ahead) = some (String.ofList ahead) := by
    have sliced := checkedSlice?_middle (show text.toList = [] ++ ahead ++ chars from shape)
    rwa [byteCount_nil, Nat.zero_add] at sliced
  rw [checkedAttribute?, before, Option.bind_eq_bind, Option.bind_some]
  by_cases isTag : '<' ∈ ahead
  · obtain ⟨tag, earlier, reversed, noTag⟩ := List.eq_append_cons_of_mem (List.mem_reverse.mpr isTag)
    have split : ahead = earlier.reverse ++ '<' :: tag.reverse := by
      rw [← List.reverse_reverse ahead, reversed]
      simp
    have last : splitLast? '<' (String.ofList ahead) =
        some (String.ofList earlier.reverse, String.ofList tag.reverse) := by
      have joined : String.ofList ahead =
          String.ofList earlier.reverse ++ String.singleton '<' ++ String.ofList tag.reverse := by
        rw [split, ← String.toList_inj]
        simp
      rw [joined]
      exact splitLast?_append _ (by simpa using noTag)
    have isTag : checkedSlice? (String.ofList ahead) (byteCount earlier.reverse)
        (byteLength (String.ofList ahead)) = some (String.ofList ('<' :: tag.reverse)) :=
      checkedSlice?_toEnd (by rw [String.toList_ofList, split])
    simp only [last, byteLength_ofList earlier.reverse, isTag, Option.bind_some, String.toList_ofList,
      reversed, List.reverse_cons, List.reverse_reverse]
    rw [openAttribute?_append tag earlier]
  · rw [splitLast?_eq_none (by rwa [String.toList_ofList]),
      openAttribute?_eq_none (by rwa [List.mem_reverse])]

/-! ### Directives -/

/-- The piece of a directive with arguments of a given length, behind the given number of characters. -/
def argumentsPiece (opensAt : Nat) (name inner : List Char) (length : Nat) : Piece where
  length := opensAt + length + 2
  code := some ⟨.directive, opensAt + 1, inner.take length, programOpening ++ directiveFunction ++ "(", ");",
    some (String.ofList name), true⟩

/-- The piece of a directive without arguments. -/
def barePiece (name inner : List Char) : Piece :=
  if name = "php".toList then
    .between .codeBlock 4 "@endphp".toList programOpening "\n;" (some "php") false ('@' :: (name ++ inner))
  else .plain (1 + name.length)

section Directives

variable {text : String} {ahead opens name inner : List Char}

/-- The bytes of a directive up to the end of its arguments. -/
theorem byteCount_take_group {length : Nat} (given : opens ≠ []) (closes : groupLength? inner = some length) :
    byteCount ((opens ++ inner).take (max 1 (opens.length + (length + 1)))) =
      byteCount opens + byteCount (inner.take length) + 1 := by
  obtain ⟨behind, isClosing⟩ := drop_of_closingAfter? closes
  have taken : inner.take (length + 1) = inner.take length ++ [')'] := by
    rw [List.take_add, isClosing]
    rfl
  rw [byteCount_take_opened given, taken, byteCount_append, ← Nat.add_assoc]
  rfl

theorem argumentsStep?_eq (shape : text.toList = ahead ++ (opens ++ '(' :: inner)) :
    argumentsStep? text (byteCount ahead) (byteCount ahead + byteCount opens)
        (byteCount ahead + byteCount ((opens ++ '(' :: inner).take 1)) (String.ofList name) =
      some ((((groupLength? inner).map (argumentsPiece opens.length name inner)).getD (.plain 1)).stepAt ahead
        (opens ++ '(' :: inner)) := by
  have opened : byteCount ahead + byteCount opens + 1 = byteCount ahead + byteCount (opens ++ ['(']) := by
    rw [byteCount_append, Nat.add_assoc]
    rfl
  rw [List.append_cons] at shape ⊢
  have inside : (byteChars text).drop (byteCount ahead + byteCount (opens ++ ['('])) =
      inner.flatMap codeChars := by
    rw [← byteCount_append]
    exact (byteChars_append (shape.trans (List.append_assoc ..).symm)).2
  rw [argumentsStep?, opened, inside, groupLength?_flatMap_codeChars]
  cases closes : groupLength? inner with
  | none => rfl
  | some length =>
    have found := cutFragment?_eq ⟨.directive, opens.length + 1, inner.take length,
      programOpening ++ directiveFunction ++ "(", ");", some (String.ofList name), true⟩
      (by rw [List.length_append]; rfl) (List.take_prefix length inner) shape
    rw [if_pos rfl] at found
    have next := byteCount_take_group (List.concat_ne_nil '(' opens) closes
    have whole : (argumentsPiece opens.length name inner length).length =
        (opens ++ ['(']).length + (length + 1) := by
      simp only [argumentsPiece, List.length_append, List.length_singleton]
      omega
    simp only [Option.map_some, checkedAttribute?_eq shape, Option.bind_eq_bind, Option.bind_some]
    rw [found, Option.bind_some, Option.getD_some, Piece.stepAt, whole, next, ← Nat.add_assoc,
      ← Nat.add_assoc]
    rfl

theorem bareStep?_eq (shape : text.toList = ahead ++ '@' :: (name ++ inner)) :
    bareStep? text (byteCount ahead + byteCount ('@' :: name)) (String.ofList name) =
      some ((barePiece name inner).stepAt ahead ('@' :: (name ++ inner))) := by
  unfold bareStep? barePiece
  by_cases isBlock : name = "php".toList
  · subst isBlock
    rw [String.ofList_toList, if_pos rfl, if_pos rfl]
    exact cutUntil?_eq (List.cons_ne_nil _ _) shape "@endphp" .codeBlock programOpening "\n;" (some "php")
      false
  · have noBlock : String.ofList name ≠ "php" := by
      intro same
      exact isBlock (by rw [← same, String.toList_ofList])
    rw [if_neg isBlock, if_neg noBlock, Piece.stepAt]
    have next := byteCount_take_opened (List.cons_ne_nil '@' name) inner 0
    rw [List.length_cons, Nat.add_comm name.length 1, List.take_zero, byteCount_nil] at next
    exact congrArg (fun next => some (ByteStep.mk none (byteCount ahead + next))) next.symm

theorem exists_of_head?_any {c : Char} {chars : List Char} (starts : chars.head?.any (· == c) = true) :
    ∃ rest, chars = c :: rest := by
  cases chars with
  | nil => cases starts
  | cons d rest =>
    rw [List.head?_cons, Option.any_some, beq_iff_eq] at starts
    exact ⟨rest, by rw [starts]⟩

/-- What stands behind a directive's sign: a name and blanks, each as long as it can be. -/
structure SignParts (behind name blanks tail : List Char) : Prop where
  joined : behind = name ++ (blanks ++ tail)
  isName : behind.takeWhile insideDirective = name
  areBlanks : (blanks ++ tail).takeWhile (fun c => c == ' ' || c == '\t') = blanks

theorem exists_signParts (behind : List Char) : ∃ name blanks tail, SignParts behind name blanks tail := by
  refine ⟨_, (behind.dropWhile insideDirective).takeWhile fun c => c == ' ' || c == '\t',
    (behind.dropWhile insideDirective).dropWhile fun c => c == ' ' || c == '\t', ?_, rfl, ?_⟩
  · rw [List.takeWhile_append_dropWhile, List.takeWhile_append_dropWhile]
  · rw [List.takeWhile_append_dropWhile]

namespace SignParts

variable {behind blanks tail : List Char} (parts : SignParts behind name blanks tail)

include parts

/-- The piece at a sign, by its parts. -/
theorem directivePiece?_eq :
    directivePiece? ('@' :: behind) =
      if name = [] ∨ behind.head?.any Char.isDigit then none
      else if tail.head?.any (· == '(') then
        (groupLength? (tail.drop 1)).map (argumentsPiece ('@' :: (name ++ blanks)).length name (tail.drop 1))
      else some (barePiece name (blanks ++ tail)) := by
  have behindName : behind.drop name.length = blanks ++ tail := by rw [parts.joined, List.drop_left]
  have opensAt : 1 + name.length + blanks.length = ('@' :: (name ++ blanks)).length := by
    rw [List.length_cons, List.length_append]
    omega
  have behindBlanks : ('@' :: behind).drop ('@' :: (name ++ blanks)).length = tail := by
    rw [parts.joined, ← List.append_assoc]
    exact List.drop_left
  unfold directivePiece?
  simp only [List.drop_succ_cons, List.drop_zero, parts.isName, behindName, parts.areBlanks, opensAt,
    behindBlanks]
  cases name with
  | nil => rfl
  | cons first others =>
    have starts : behind.head? = some first := by rw [parts.joined]; rfl
    simp only [starts, reduceCtorEq, false_or, Option.any_some]
    split
    · rfl
    · by_cases isOpening : tail.head?.any (· == '(') = true
      · obtain ⟨inner, rfl⟩ := exists_of_head?_any isOpening
        rfl
      · rw [if_neg isOpening, barePiece, ← parts.joined, apply_ite some]
        split
        · exact absurd rfl isOpening
        · rfl

/-- The offset behind the name. -/
theorem nameStop_eq (shape : text.toList = ahead ++ '@' :: behind) :
    byteCount ahead + 1 + byteRun text (byteCount ahead + 1) insideDirective =
      byteCount ahead + byteCount ('@' :: name) := by
  have behindSign : byteCount (ahead ++ ['@']) = byteCount ahead + 1 := byteCount_append ..
  have run := byteRun_eq isAsciiTest_insideDirective
    (show text.toList = (ahead ++ ['@']) ++ behind by rw [shape, List.append_cons])
  rw [behindSign, parts.isName] at run
  rw [run, byteCount_cons, Nat.add_assoc]
  rfl

/-- The offset behind the blanks. -/
theorem opensAt_eq (shape : text.toList = ahead ++ '@' :: behind) :
    byteCount ahead + byteCount ('@' :: name) +
        byteRun text (byteCount ahead + byteCount ('@' :: name)) (fun c => c == ' ' || c == '\t') =
      byteCount ahead + byteCount ('@' :: (name ++ blanks)) := by
  have isAscii : IsAsciiTest fun c => c == ' ' || c == '\t' := .or (.beq (by decide)) (.beq (by decide))
  have named : text.toList = (ahead ++ '@' :: name) ++ (blanks ++ tail) := by
    rw [shape, parts.joined, List.append_assoc, List.cons_append]
  rw [← byteCount_append, byteRun_eq isAscii named, parts.areBlanks, ← byteCount_append, List.append_assoc,
    List.cons_append, byteCount_append]

/-- The name as a slice. -/
theorem checkedSlice?_name (shape : text.toList = ahead ++ '@' :: behind) :
    checkedSlice? text (byteCount ahead + 1) (byteCount ahead + byteCount ('@' :: name)) =
      some (String.ofList name) := by
  have shape : text.toList = (ahead ++ ['@']) ++ name ++ (blanks ++ tail) := by
    rw [shape, parts.joined]
    simp
  have sliced := checkedSlice?_middle shape
  rwa [← byteCount_append, ← List.append_cons, byteCount_append, byteCount_append] at sliced

end SignParts

/-- **The step at a directive's sign** takes the piece that stands there. -/
theorem directiveStep?_eq {behind : List Char} (shape : text.toList = ahead ++ '@' :: behind) :
    directiveStep? text (byteCount ahead) (byteCount ahead + byteCount (('@' :: behind).take 1)) =
      some (((directivePiece? ('@' :: behind)).getD (.plain 1)).stepAt ahead ('@' :: behind)) := by
  obtain ⟨name, blanks, tail, parts⟩ := exists_signParts behind
  have signed : text.toList = (ahead ++ ['@']) ++ behind := by rw [shape, List.append_cons]
  have noName : byteCount ahead + byteCount ('@' :: name) = byteCount ahead + 1 ↔ name = [] := by
    refine ⟨fun empty => ?_, fun empty => by rw [empty]; rfl⟩
    by_contra nonempty
    have := byteCount_pos nonempty
    have : byteCount ('@' :: name) = 1 + byteCount name := rfl
    omega
  have digit := byteAt_eq .isDigit signed
  rw [byteCount_append] at digit
  have digit : byteAt text (byteCount ahead + 1) Char.isDigit = behind.head?.any Char.isDigit := digit
  have spaced : text.toList = ahead ++ ('@' :: (name ++ blanks) ++ tail) := by
    rw [shape, parts.joined, List.cons_append, List.append_assoc]
  have opens := byteAt_eq (.beq (by decide : '('.toNat < 128)) (spaced.trans (List.append_assoc ..).symm)
  rw [byteCount_append] at opens
  rw [parts.directivePiece?_eq, directiveStep?, parts.nameStop_eq shape, parts.opensAt_eq shape]
  simp only [noName, digit, parts.checkedSlice?_name shape, opens, Option.bind_eq_bind, Option.bind_some]
  split
  · rfl
  · split
    -- The arguments are searched for their end by bytes, and by characters in the piece.
    · case isTrue isOpening =>
      obtain ⟨inner, rfl⟩ := exists_of_head?_any isOpening
      have behindSign : '@' :: behind = '@' :: (name ++ blanks) ++ '(' :: inner := by
        rw [parts.joined, List.cons_append, List.append_assoc]
      rw [behindSign]
      exact argumentsStep?_eq spaced
    · case isFalse noOpening =>
      rw [Option.getD_some, parts.joined]
      exact bareStep?_eq (shape.trans (by rw [parts.joined]))

end Directives

/-- **A step at a boundary** succeeds and takes the piece that stands there. -/
theorem byteStep?_eq {text : String} {ahead rest : List Char} {c : Char}
    (shape : text.toList = ahead ++ c :: rest) :
    byteStep? text (byteCount ahead) =
      some ((pieceAt ahead.reverse.head? (c :: rest)).stepAt ahead (c :: rest)) := by
  have sign : byteAt text (byteCount ahead) (· == '@') = true ↔ (c :: rest).head? = some '@' := by
    rw [byteAt_eq (.beq (by decide)) shape, List.head?_cons, Option.any_some, beq_iff_eq, Option.some.injEq]
  have previous := byteBefore_eq isAsciiTest_insideDirective shape
  have opened : ∀ {mark : String}, mark.toList.isPrefixOf (c :: rest) = true →
      ∃ inner, c :: rest = mark.toList ++ inner := by
    intro mark starts
    obtain ⟨inner, split⟩ := List.isPrefixOf_iff_prefix.mp starts
    exact ⟨inner, split.symm⟩
  rw [byteStep?, checkedSlice?_toEnd shape, Option.bind_eq_bind, Option.bind_some, pieceAt]
  simp only [startsWith, String.toList_ofList, checkedAttribute?_eq shape, Option.bind_eq_bind,
    Option.bind_some, sign, previous, List.head?_reverse]
  -- Both sides ask the same questions in the same order.
  refine ite_eq_stepAt (fun isComment => ?_) fun _ => ite_eq_stepAt (fun isVerbatim => ?_) fun _ =>
    ite_eq_stepAt (fun isSign => ?_) fun _ => ite_eq_stepAt (fun isRaw => ?_) fun _ =>
    ite_eq_stepAt (fun isEcho => ?_) fun _ => ite_eq_stepAt (fun isBlock => ?_) fun _ =>
    ite_eq_stepAt (fun isShort => ?_) fun _ => ite_eq_stepAt (fun isDirective => ?_) fun _ => ?_
  · obtain ⟨inner, split⟩ := opened isComment
    rw [split] at shape ⊢
    exact skipPast?_eq (List.cons_ne_nil _ _) shape "--\x7d\x7d"
  · obtain ⟨inner, split⟩ := opened isVerbatim
    rw [split] at shape ⊢
    exact skipPast?_eq (List.cons_ne_nil _ _) shape "\x7d\x7d"
  · obtain ⟨inner, split⟩ := opened isSign
    rw [split]
    rfl
  · obtain ⟨inner, split⟩ := opened isRaw
    rw [split] at shape ⊢
    exact cutUntil?_eq (List.cons_ne_nil _ _) shape "!!\x7d" .rawEcho programOpening ";" none true
  · obtain ⟨inner, split⟩ := opened isEcho
    rw [split] at shape ⊢
    exact cutUntil?_eq (List.cons_ne_nil _ _) shape "\x7d\x7d" .echo programOpening ";" none true
  · obtain ⟨inner, split⟩ := opened isBlock
    rw [split] at shape ⊢
    exact cutUntil?_eq (List.cons_ne_nil _ _) shape "?>" .codeBlock programOpening "\n;" none false
  · obtain ⟨inner, split⟩ := opened isShort
    rw [split] at shape ⊢
    exact cutUntil?_eq (List.cons_ne_nil _ _) shape "?>" .codeBlock "<?php echo " "\n;" none false
  · obtain rfl : c = '@' := Option.some.inj isDirective.1
    exact directiveStep?_eq shape
  · rfl

/-! ### Runs -/

/-- The scan gives one result. -/
theorem ByteScan.unique {text : String} {offset : Nat} {found other : List Fragment}
    (scanned : ByteScan text offset found) (scannedToo : ByteScan text offset other) : found = other := by
  induction scanned generalizing other with
  | done outside =>
    cases scannedToo with
    | done => rfl
    | step inside => exact absurd outside (Nat.not_le.mpr inside)
  | step inside isStep onward ih =>
    cases scannedToo with
    | done outside => exact absurd outside (Nat.not_le.mpr inside)
    | step _ isStepToo onwardToo =>
      obtain rfl := Option.some.inj (isStep.symm.trans isStepToo)
      rw [ih onwardToo]

/-- **The scan from a boundary on** ends with the fragments of the characters behind it. -/
theorem byteScan_fragmentsFrom {text : String} (ahead chars : List Char)
    (shape : text.toList = ahead ++ chars) :
    ByteScan text (byteCount ahead) (fragmentsFrom ahead.reverse (byteCount ahead) chars) := by
  generalize reversed : ahead.reverse = before
  generalize counted : byteCount ahead = offset
  fun_induction fragmentsFrom before offset chars generalizing ahead with
  | case1 before offset =>
    refine .done ?_
    rw [← counted, byteLength_eq, shape, List.append_nil]
  | case2 before offset c rest piece taken found ih =>
    subst reversed counted
    have onward := ih (ahead ++ taken) (by rw [List.append_assoc, List.take_append_drop, shape])
      (List.reverse_append ..) (byteCount_append ..)
    have inside : byteCount ahead < byteLength text := by
      have := byteCount_pos (List.cons_ne_nil c rest)
      rw [byteLength_eq, shape, byteCount_append]
      omega
    exact .step inside (byteStep?_eq shape) onward

end Template

/-- **The scan by byte offsets ends**, with the fragments of the template and with nothing else. -/
theorem byteScan_iff {template : String} {found : List Fragment} :
    Template.ByteScan template 0 found ↔ found = fragments template := by
  have ends : Template.ByteScan template 0 (fragments template) :=
    Template.byteScan_fragmentsFrom [] template.toList rfl
  constructor
  · exact fun scanned => scanned.unique ends
  · rintro rfl
    exact ends

end ArtifactIndex
