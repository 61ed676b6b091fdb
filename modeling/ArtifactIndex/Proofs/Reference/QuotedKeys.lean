/-
**Keys that text patterns find stand in quotes.**

A pattern is a row of parts, and a match of it takes a run of characters for each part
(`matchParts?_cons`, `matchParts?_key`). In every pattern of the tables a part that ends in a quote
stands before the key and one that starts with a quote behind it.

* `inQuotes_of_matchParts?`: a match of such a pattern finds a key in quotes;
* `quoted_of_mem_findAll`: so each key that is found in a text is, with one more character on both sides,
  a quoted slice of it;
* `PatternMatch.InQuotes.same_or_apart`: two keys that are found in a text have the same range, or one
  ends before the other starts.
-/

import ArtifactIndex.Proofs.Code.Quotation
import ArtifactIndex.Reference.Pattern

namespace ArtifactIndex

namespace Pattern

/-! ### What a part takes -/

/-- The part matches exactly these characters; the key is left out. -/
def Part.Takes : Part → List Char → Prop
  | .exact text, taken => taken = text
  | .blanks, taken => ∀ c ∈ taken, isBlank c = true
  | .someBlanks, taken => taken ≠ [] ∧ ∀ c ∈ taken, isBlank c = true
  | .oneOf choices, taken => ∃ c ∈ choices, taken = [c]
  | .key, _ => False
  | .gap excluded, taken => ∀ c ∈ taken, c ∉ excluded

/-- A match behind a number of characters, as a match behind a gap. -/
theorem attemptTails_eq_some {attempt : List Char → Option Extent} {excluded chars : List Char}
    {extent : Extent} (found : attemptTails attempt excluded chars = some extent) :
    ∃ taken rest inner, chars = taken ++ rest ∧ (∀ c ∈ taken, c ∉ excluded) ∧
      attempt rest = some inner ∧ extent = inner.shift taken.length := by
  induction chars generalizing extent with
  | nil => exact ⟨[], [], extent, rfl, nofun, found, rfl⟩
  | cons c rest ih =>
    rw [attemptTails] at found
    split at found
    · next here =>
      cases found
      exact ⟨[], c :: rest, extent, rfl, nofun, here, rfl⟩
    · split at found
      · cases found
      · next passed =>
        obtain ⟨later, isLater, rfl⟩ := Option.map_eq_some_iff.mp found
        obtain ⟨taken, behind, inner, rfl, free, isInner, rfl⟩ := ih isLater
        refine ⟨c :: taken, behind, inner, rfl, ?_, isInner, rfl⟩
        rw [List.contains_iff_mem] at passed
        exact List.forall_mem_cons.mpr ⟨passed, free⟩

/-- The characters at the start of a text that pass a test, and those behind them. -/
theorem takeWhile_append_drop (test : Char → Bool) (chars : List Char) :
    chars = chars.takeWhile test ++ chars.drop (chars.takeWhile test).length :=
  (List.prefix_iff_eq_append.mp (List.takeWhile_prefix test)).symm

/-- **One part that is not the key.** It takes some characters, and the other parts match behind
them. -/
theorem matchParts?_cons {part : Part} {parts : List Part} {chars : List Char} {extent : Extent}
    (other : part ≠ .key) (found : matchParts? (part :: parts) chars = some extent) :
    ∃ taken rest inner, chars = taken ++ rest ∧ part.Takes taken ∧
      matchParts? parts rest = some inner ∧ extent = inner.shift taken.length := by
  cases part with
  | exact text =>
    rw [matchParts?, Option.ite_none_right_eq_some] at found
    obtain ⟨starts, found⟩ := found
    obtain ⟨rest, rfl⟩ := List.isPrefixOf_iff_prefix.mp starts
    obtain ⟨inner, isInner, rfl⟩ := Option.map_eq_some_iff.mp found
    rw [List.drop_left] at isInner
    exact ⟨text, rest, inner, rfl, rfl, isInner, rfl⟩
  | blanks =>
    obtain ⟨inner, isInner, rfl⟩ := Option.map_eq_some_iff.mp found
    have allBlank := List.all_eq_true.mp (List.all_takeWhile (p := isBlank) (l := chars))
    exact ⟨_, _, inner, takeWhile_append_drop isBlank chars, allBlank, isInner, rfl⟩
  | someBlanks =>
    simp only [matchParts?, Option.ite_none_left_eq_some, List.length_eq_zero_iff] at found
    obtain ⟨nonempty, found⟩ := found
    obtain ⟨inner, isInner, rfl⟩ := Option.map_eq_some_iff.mp found
    have allBlank := List.all_eq_true.mp (List.all_takeWhile (p := isBlank) (l := chars))
    exact ⟨_, _, inner, takeWhile_append_drop isBlank chars, ⟨nonempty, allBlank⟩, isInner, rfl⟩
  | oneOf choices =>
    cases chars with
    | nil => cases found
    | cons c rest =>
      rw [matchParts?, Option.ite_none_right_eq_some, List.contains_iff_mem] at found
      obtain ⟨isChoice, found⟩ := found
      obtain ⟨inner, isInner, rfl⟩ := Option.map_eq_some_iff.mp found
      exact ⟨[c], rest, inner, rfl, ⟨c, isChoice, rfl⟩, isInner, rfl⟩
  | key => exact absurd rfl other
  | gap excluded => exact attemptTails_eq_some found

/-- **The key.** It takes the characters up to a quote, at least one. -/
theorem matchParts?_key {parts : List Part} {chars : List Char} {extent : Extent}
    (found : matchParts? (.key :: parts) chars = some extent) :
    ∃ key rest inner, chars = key ++ rest ∧ (∀ c ∈ key, c ∉ quotes) ∧
      matchParts? parts rest = some inner ∧ extent.keyStart = 0 ∧ extent.keyLength = key.length := by
  simp only [matchParts?, Option.ite_none_left_eq_some] at found
  obtain ⟨inner, isInner, rfl⟩ := Option.map_eq_some_iff.mp found.2
  refine ⟨_, _, inner, takeWhile_append_drop (!quotes.contains ·) chars, ?_, isInner, rfl, rfl⟩
  intro c isKey isQuote
  have passed := List.all_eq_true.mp List.all_takeWhile c isKey
  rw [List.contains_iff_mem.mpr isQuote] at passed
  cases passed

/-! ### Quoted keys -/

/-- What the part takes ends in a quote. -/
def Part.endsInQuote : Part → Bool
  | .exact text => text.getLast?.any quotes.contains
  | .oneOf choices => choices.all quotes.contains
  | _ => false

/-- What the part takes starts with a quote. -/
def Part.startsWithQuote : Part → Bool
  | .exact text => text.head?.any quotes.contains
  | .oneOf choices => choices.all quotes.contains
  | _ => false

/-- The first key among the parts stands between two quotes. -/
def quotesKey : List Part → Bool
  | before :: .key :: behind :: _ => before.endsInQuote && behind.startsWithQuote
  | .key :: _ => false
  | _ :: parts => quotesKey parts
  | [] => false

theorem Part.Takes.ends {part : Part} {taken : List Char} (takes : part.Takes taken)
    (ends : part.endsInQuote = true) : ∃ front, ∃ quote ∈ quotes, taken = front ++ [quote] := by
  cases part with
  | exact text =>
    cases takes
    obtain ⟨quote, isLast, isQuote⟩ := (Option.any_eq_true _ _).mp ends
    obtain ⟨front, shape⟩ := List.getLast?_eq_some_iff.mp isLast
    exact ⟨front, quote, List.contains_iff_mem.mp isQuote, shape⟩
  | oneOf choices =>
    obtain ⟨c, isChoice, rfl⟩ := takes
    exact ⟨[], c, List.contains_iff_mem.mp (List.all_eq_true.mp ends c isChoice), rfl⟩
  | _ => cases ends

theorem Part.Takes.starts {part : Part} {taken : List Char} (takes : part.Takes taken)
    (starts : part.startsWithQuote = true) : ∃ quote ∈ quotes, ∃ back, taken = quote :: back := by
  cases part with
  | exact text =>
    cases takes
    obtain ⟨quote, isFirst, isQuote⟩ := (Option.any_eq_true _ _).mp starts
    obtain ⟨back, shape⟩ := List.head?_eq_some_iff.mp isFirst
    exact ⟨quote, List.contains_iff_mem.mp isQuote, back, shape⟩
  | oneOf choices =>
    obtain ⟨c, isChoice, rfl⟩ := takes
    exact ⟨c, List.contains_iff_mem.mp (List.all_eq_true.mp starts c isChoice), [], rfl⟩
  | _ => cases starts

/-- The match finds a key without quotes that stands between two of them. -/
def Extent.InQuotes (chars : List Char) (extent : Extent) : Prop :=
  ∃ before key behind, ∃ first ∈ quotes, ∃ last ∈ quotes,
    chars = before ++ [first] ++ key ++ [last] ++ behind ∧ (∀ c ∈ key, c ∉ quotes) ∧
      extent.keyStart = (before ++ [first]).length ∧ extent.keyLength = key.length

theorem Extent.InQuotes.shift {chars : List Char} {extent : Extent} (inQuotes : extent.InQuotes chars)
    (taken : List Char) : (extent.shift taken.length).InQuotes (taken ++ chars) := by
  obtain ⟨before, key, behind, first, isFirst, last, isLast, rfl, free, start, length⟩ := inQuotes
  refine ⟨taken ++ before, key, behind, first, isFirst, last, isLast, ?_, free, ?_, length⟩
  · simp only [List.append_assoc]
  · show extent.keyStart + taken.length = _
    rw [start, List.append_assoc, List.length_append, List.length_append, List.length_append]
    omega

/-- **A match finds a key in quotes**, when the parts before and behind the key see to it. By induction
on the parts. -/
theorem inQuotes_of_matchParts? {parts : List Part} {chars : List Char} {extent : Extent}
    (quoted : quotesKey parts = true) (found : matchParts? parts chars = some extent) :
    extent.InQuotes chars := by
  fun_induction quotesKey parts generalizing chars extent with
  | case1 before behind parts =>
    rw [Bool.and_eq_true] at quoted
    obtain ⟨ends, starts⟩ := quoted
    have beforeKey : before ≠ .key := by
      rintro rfl
      cases ends
    have behindKey : behind ≠ .key := by
      rintro rfl
      cases starts
    -- The part before the key ends in the opening quote, the one behind it starts with the closing one.
    obtain ⟨taken, rest, inner, rfl, takes, further, rfl⟩ := matchParts?_cons beforeKey found
    obtain ⟨key, rest, _, rfl, free, further, start, length⟩ := matchParts?_key further
    obtain ⟨takenToo, rest, _, rfl, takesToo, _, _⟩ := matchParts?_cons behindKey further
    obtain ⟨front, first, isFirst, rfl⟩ := takes.ends ends
    obtain ⟨last, isLast, back, rfl⟩ := takesToo.starts starts
    refine ⟨front, key, back ++ rest, first, isFirst, last, isLast, ?_, free, ?_, length⟩
    · simp only [List.append_assoc, List.cons_append, List.nil_append]
    · show inner.keyStart + _ = _
      rw [start, Nat.zero_add]
  | case2 => cases quoted
  | case3 part parts _ other ih =>
    obtain ⟨taken, rest, inner, rfl, -, further, rfl⟩ := matchParts?_cons other found
    exact (ih quoted further).shift taken
  | case4 => cases quoted

end Pattern

/-- The found key, without quotes itself, stands between two quotes of the text. -/
def PatternMatch.InQuotes (chars : List Char) (found : PatternMatch) : Prop :=
  ∃ before key behind, ∃ first ∈ Pattern.quotes, ∃ last ∈ Pattern.quotes,
    chars = before ++ [first] ++ key ++ [last] ++ behind ∧ (∀ c ∈ key, c ∉ Pattern.quotes) ∧
      found.key = String.ofList key ∧
      found.span = ⟨byteCount (before ++ [first]), byteCount (before ++ [first]) + byteCount key⟩

namespace Pattern

/-! ### Whole texts -/

/-- **All matches of a pattern.** By induction on the search, which goes on behind a match. -/
theorem inQuotes_of_mem_findFrom {pattern : Pattern} (quoted : quotesKey pattern.parts = true)
    (previous : Option Char) (ahead chars : List Char) :
    ∀ found ∈ pattern.findFrom previous (byteCount ahead) chars, found.InQuotes (ahead ++ chars) := by
  generalize counted : byteCount ahead = offset
  fun_induction findFrom pattern previous offset chars generalizing ahead with
  | case1 => nofun
  | case2 previous offset c rest unmatched ih =>
    subst counted
    have later := ih (ahead ++ [c]) (by rw [byteCount_append]; rfl)
    rw [List.append_assoc] at later
    exact later
  | case3 previous offset c rest extent matched key start taken ih =>
    subst counted
    have later := ih (ahead ++ taken) (byteCount_append ..)
    rw [List.append_assoc, List.take_append_drop] at later
    rw [List.forall_mem_cons]
    refine ⟨?_, later⟩
    rw [matchAt?, Option.ite_none_left_eq_some] at matched
    obtain ⟨before, word, behind, first, isFirst, last, isLast, shape, free, keyStart, keyLength⟩ :=
      inQuotes_of_matchParts? quoted matched.2
    have shape : c :: rest = (before ++ [first]) ++ (word ++ ([last] ++ behind)) := by
      rw [shape]
      simp only [List.append_assoc]
    have isKey : key = word := by
      show ((c :: rest).drop extent.keyStart).take extent.keyLength = word
      rw [shape, keyStart, keyLength, List.drop_left, List.take_left]
    have isStart : start = byteCount (ahead ++ before ++ [first]) := by
      show byteCount ahead + byteCount ((c :: rest).take extent.keyStart) = _
      rw [shape, keyStart, List.take_left, List.append_assoc, byteCount_append ahead]
    refine ⟨ahead ++ before, word, behind, first, isFirst, last, isLast, ?_, free, ?_, ?_⟩
    · rw [shape]
      simp only [List.append_assoc]
    · rw [isKey]
    · rw [isKey, isStart]

/-- **All matches of a table.** -/
theorem inQuotes_of_mem_findAll {table : List Pattern} {text : String} {found : PatternMatch}
    (quoted : ∀ pattern ∈ table, quotesKey pattern.parts = true)
    (isFound : found ∈ findAll table text) : found.InQuotes text.toList := by
  obtain ⟨pattern, isPattern, isFound⟩ := List.mem_flatMap.mp isFound
  exact inQuotes_of_mem_findFrom (quoted pattern isPattern) none [] text.toList found isFound

theorem mem_quotes {c : Char} : c ∈ quotes ↔ c = '\'' ∨ c = '"' := by
  rw [quotes, List.mem_cons, List.mem_singleton]

/-- A quote takes one byte. -/
theorem utf8Size_of_mem_quotes {c : Char} (isQuote : c ∈ quotes) : c.utf8Size = 1 := by
  rcases mem_quotes.mp isQuote with rfl | rfl
  · rfl
  · rfl

theorem isQuote_of_mem_quotes {c : Char} (isQuote : c ∈ quotes) : Literal.isQuote c = true := by
  rcases mem_quotes.mp isQuote with rfl | rfl
  · rfl
  · rfl

/-- **Found keys are quoted.** With the character before and the one behind it, the key is a quoted slice
of the text. -/
theorem quoted_of_mem_findAll {table : List Pattern} {text : String} {found : PatternMatch}
    (quoted : ∀ pattern ∈ table, quotesKey pattern.parts = true)
    (isFound : found ∈ findAll table text) :
    found.span.start - 1 < found.span.stop + 1 ∧ found.span.stop + 1 ≤ byteLength text ∧
      ∃ whole, slice? text (found.span.start - 1) (found.span.stop + 1) = some whole ∧
        IsQuoted whole found.key.toList := by
  obtain ⟨before, key, behind, first, isFirst, last, isLast, shape, -, isKey, span⟩ :=
    inQuotes_of_mem_findAll quoted isFound
  have shape : text.toList = before ++ ([first] ++ key ++ [last]) ++ behind := by
    rw [shape]
    simp only [List.append_assoc]
  have lead : byteCount (before ++ [first]) = byteCount before + 1 := by
    rw [byteCount_append, byteCount_cons, utf8Size_of_mem_quotes isFirst, byteCount_nil]
  have length : byteCount ([first] ++ key ++ [last]) = byteCount key + 2 := by
    rw [byteCount_append, byteCount_append, byteCount_cons, byteCount_cons, byteCount_nil,
      utf8Size_of_mem_quotes isFirst, utf8Size_of_mem_quotes isLast]
    omega
  have start : found.span.start - 1 = byteCount before := by
    rw [span]
    exact Nat.sub_eq_of_eq_add lead
  have stop : found.span.stop + 1 = byteCount before + byteCount ([first] ++ key ++ [last]) := by
    rw [span, length]
    show byteCount (before ++ [first]) + byteCount key + 1 = _
    omega
  rw [start, stop]
  refine ⟨by omega, ?_, String.ofList ([first] ++ key ++ [last]), slice?_middle shape, [], first, last,
    ?_, .inl rfl, isQuote_of_mem_quotes isFirst, isQuote_of_mem_quotes isLast⟩
  · rw [byteLength_eq, shape, ← byteCount_append, byteCount_append _ behind]
    exact Nat.le_add_right _ _
  · rw [isKey, String.toList_ofList, String.toList_ofList]
    rfl

end Pattern

namespace PatternMatch.InQuotes

variable {text : String} {found other : PatternMatch}

theorem start_le_stop {chars : List Char} (inQuotes : found.InQuotes chars) :
    found.span.start ≤ found.span.stop := by
  obtain ⟨_, _, _, _, -, _, -, -, -, -, span⟩ := inQuotes
  rw [span]
  exact Nat.le_add_right _ _

/-- A found key by what stands before and behind it: a text that ends in a quote, and one that starts with
a quote. -/
theorem exists_lead (inQuotes : found.InQuotes text.toList) :
    ∃ lead key rest, text.toList = lead ++ (key ++ rest) ∧ (∀ c ∈ key, c ∉ Pattern.quotes) ∧
      (∃ quote ∈ Pattern.quotes, lead.getLast? = some quote) ∧
      (∃ quote ∈ Pattern.quotes, rest.head? = some quote) ∧
      found.span = ⟨byteCount lead, byteCount lead + byteCount key⟩ := by
  obtain ⟨before, key, behind, first, isFirst, last, isLast, shape, free, -, span⟩ := inQuotes
  refine ⟨before ++ [first], key, last :: behind, ?_, free, ⟨first, isFirst, ?_⟩, ⟨last, isLast, rfl⟩, span⟩
  · rw [shape]
    simp
  · exact List.getLast?_concat

/-- A text behind a quote has one key: it goes up to the next quote. -/
theorem takeWhile_key {key rest : List Char} (free : ∀ c ∈ key, c ∉ Pattern.quotes)
    (ends : ∃ quote ∈ Pattern.quotes, rest.head? = some quote) :
    (key ++ rest).takeWhile (!Pattern.quotes.contains ·) = key := by
  obtain ⟨quote, isQuote, isFirst⟩ := ends
  obtain ⟨behind, rfl⟩ := List.head?_eq_some_iff.mp isFirst
  have passes : ∀ c ∈ key, (!Pattern.quotes.contains c) = true := by
    intro c isKey
    rw [Bool.not_eq_true', Bool.eq_false_iff, Ne, List.contains_iff_mem]
    exact free c isKey
  have stops : (!Pattern.quotes.contains quote) = false := by
    rw [List.contains_iff_mem.mpr isQuote]
    rfl
  rw [List.takeWhile_append_of_pos passes, List.takeWhile_cons, stops]
  exact List.append_nil key

/-- A key that starts behind the start of another starts behind its end too: the quote before it does not
stand in the other. -/
theorem stop_lt_of_start_lt (inQuotes : found.InQuotes text.toList) (otherToo : other.InQuotes text.toList)
    (ahead : found.span.start < other.span.start) : found.span.stop < other.span.start := by
  obtain ⟨lead, key, rest, shape, free, -, -, span⟩ := inQuotes.exists_lead
  obtain ⟨leadOther, _, _, shapeToo, -, ⟨quote, isQuote, isLast⟩, -, otherSpan⟩ := otherToo.exists_lead
  rw [span, otherSpan] at ahead ⊢
  refine Nat.lt_of_not_le fun inside => ?_
  replace inside : byteCount leadOther ≤ byteCount (lead ++ key) := by
    rw [byteCount_append]
    exact inside
  have keyEnd : lead ++ key <+: text.toList := ⟨rest, by rw [shape, List.append_assoc]⟩
  obtain ⟨passed, isPassed⟩ :=
    Boundary.prefix_of_byteCount_le ⟨_, shape.symm⟩ ⟨_, shapeToo.symm⟩ (Nat.le_of_lt ahead)
  obtain ⟨left, isLeft⟩ := Boundary.prefix_of_byteCount_le ⟨_, shapeToo.symm⟩ keyEnd inside
  rw [← isPassed, List.append_assoc] at isLeft
  have inKey : passed ++ left = key := List.append_cancel_left isLeft
  have nonempty : passed ≠ [] := by
    rintro rfl
    rw [← isPassed, List.append_nil] at ahead
    exact Nat.lt_irrefl _ ahead
  rw [← isPassed, List.getLast?_append_of_ne_nil _ nonempty] at isLast
  refine free quote ?_ isQuote
  rw [← inKey]
  exact List.mem_append_left _ (List.mem_of_getLast? isLast)

/-- **Two keys of a text** have the same range, or one ends before the other starts. -/
theorem same_or_apart (inQuotes : found.InQuotes text.toList) (otherToo : other.InQuotes text.toList) :
    found.span = other.span ∨ found.span.stop < other.span.start ∨ other.span.stop < found.span.start := by
  rcases Nat.lt_trichotomy found.span.start other.span.start with ahead | same | behind
  · exact .inr (.inl (stop_lt_of_start_lt inQuotes otherToo ahead))
  · obtain ⟨lead, key, rest, shape, free, -, ends, span⟩ := inQuotes.exists_lead
    obtain ⟨leadOther, word, restOther, shapeToo, freeToo, -, endsToo, otherSpan⟩ := otherToo.exists_lead
    have sameStart : byteCount lead = byteCount leadOther := by
      rw [span, otherSpan] at same
      exact same
    have starts := Boundary.prefix_of_byteCount_le ⟨_, shape.symm⟩ ⟨_, shapeToo.symm⟩ sameStart.le
    have startsToo := Boundary.prefix_of_byteCount_le ⟨_, shapeToo.symm⟩ ⟨_, shape.symm⟩ sameStart.ge
    have sameLead : lead = leadOther := starts.eq_of_length_le startsToo.length_le
    subst sameLead
    have sameKey : key = word := by
      rw [← takeWhile_key free ends, ← takeWhile_key freeToo endsToo]
      exact congrArg _ (List.append_cancel_left (shape.symm.trans shapeToo))
    left
    rw [span, otherSpan, sameKey]
  · exact .inr (.inr (stop_lt_of_start_lt otherToo inQuotes behind))

end PatternMatch.InQuotes

namespace Pattern

/-- **The tables.** In each of their patterns the key stands in quotes. -/
theorem quotesKey_of_mem_templateTable : ∀ pattern ∈ templateTable, quotesKey pattern.parts = true := by
  decide

theorem quotesKey_of_mem_tableFor (file : String) :
    ∀ pattern ∈ tableFor file, quotesKey pattern.parts = true := by
  rw [tableFor]
  split
  · decide
  · decide

end Pattern

end ArtifactIndex
