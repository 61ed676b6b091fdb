/-
**Texts byte by byte.**

A search for ASCII characters may look at the bytes of a text instead of its characters: the bytes of all
other characters are above the ASCII range, so that such a search passes over them and never stops inside a
character. Here each byte is read as a character of its own.

* `byteChars_eq`: the bytes of a text, character by character;
* `IsAsciiTest.takeWhile_flatMap`: a run of ASCII characters is the same run of bytes;
* `Template.groupLength?_flatMap_codeChars`: the bytes of a group are those of its characters, although a
  backslash takes one byte with it instead of one character.
-/

import ArtifactIndex.Proofs.Template.Groups
import ArtifactIndex.Proofs.Text.Bytes

namespace ArtifactIndex

/-- The bytes of a character, each as a character of its own. -/
def codeChars (c : Char) : List Char := (String.utf8EncodeChar c).map fun byte => Char.ofNat byte.toNat

/-- **The bytes of a text**, each as a character of its own. -/
def byteChars (text : String) : List Char := text.toByteArray.toList.map fun byte => Char.ofNat byte.toNat

theorem flatMap_codeChars (chars : List Char) : chars.flatMap codeChars =
    (chars.flatMap String.utf8EncodeChar).map fun byte => Char.ofNat byte.toNat := by
  rw [List.map_flatMap]
  rfl

theorem byteChars_eq (text : String) : byteChars text = text.toList.flatMap codeChars := by
  rw [byteChars, toByteArray_toList, flatMap_codeChars]

/-! ### One character -/

theorem length_codeChars (c : Char) : (codeChars c).length = c.utf8Size := by
  rw [codeChars, List.length_map, String.length_utf8EncodeChar]

theorem toNat_ofNat_byte (byte : UInt8) : (Char.ofNat byte.toNat).toNat = byte.toNat := by
  have valid : byte.toNat.isValidChar := .inl (Nat.lt_trans byte.toNat_lt (by decide))
  unfold Char.ofNat
  rw [dif_pos valid]
  rfl

/-- An ASCII character is its own byte. -/
theorem codeChars_ascii {c : Char} (ascii : c.toNat < 128) : codeChars c = [c] := by
  have small : c.val.toNat ≤ 127 := Nat.lt_succ_iff.mp ascii
  have code : String.utf8EncodeChar c = [UInt8.ofNat c.toNat] := if_pos small
  rw [codeChars, code, List.map_singleton, UInt8.toNat_ofNat_of_lt' (Nat.lt_trans ascii (by decide)),
    Char.ofNat_toNat]

/-- The bytes of all other characters are above the ASCII range. -/
theorem codeChars_high {c d : Char} (high : 128 ≤ c.toNat) (isCode : d ∈ codeChars c) : 128 ≤ d.toNat := by
  obtain ⟨byte, isByte, rfl⟩ := List.mem_map.mp isCode
  rw [toNat_ofNat_byte]
  have high : ¬c.val.toNat ≤ 127 := Nat.not_le.mpr high
  have marked : ∀ {value mark : Nat}, 128 ≤ mark → value + mark < 256 →
      128 ≤ (UInt8.ofNat (value + mark)).toNat := by
    intro value mark atLeast small
    rw [UInt8.toNat_ofNat_of_lt' small]
    omega
  unfold String.utf8EncodeChar at isByte
  generalize c.val.toNat = v at isByte high
  dsimp only at isByte
  rw [if_neg high] at isByte
  split at isByte
  · simp only [List.mem_cons, List.not_mem_nil, or_false] at isByte
    rcases isByte with rfl | rfl <;> exact marked (by decide) (by omega)
  · split at isByte
    · simp only [List.mem_cons, List.not_mem_nil, or_false] at isByte
      rcases isByte with rfl | rfl | rfl <;> exact marked (by decide) (by omega)
    · simp only [List.mem_cons, List.not_mem_nil, or_false] at isByte
      rcases isByte with rfl | rfl | rfl | rfl <;> exact marked (by decide) (by omega)

theorem utf8Size_of_ascii {c : Char} (ascii : c.toNat < 128) : c.utf8Size = 1 := by
  rw [← length_codeChars, codeChars_ascii ascii, List.length_singleton]

theorem exists_codeChars (c : Char) : ∃ first others, codeChars c = first :: others :=
  List.exists_cons_of_ne_nil fun empty => by
    have length := length_codeChars c
    have := c.utf8Size_pos
    rw [empty, List.length_nil] at length
    omega

/-! ### Runs -/

theorem length_flatMap_codeChars (chars : List Char) :
    (chars.flatMap codeChars).length = byteCount chars := by
  rw [flatMap_codeChars, List.length_map, length_flatMap_utf8EncodeChar]

/-- The bytes on both sides of a boundary. -/
theorem byteChars_append {text : String} {before rest : List Char} (shape : text.toList = before ++ rest) :
    (byteChars text).take (byteCount before) = before.flatMap codeChars ∧
      (byteChars text).drop (byteCount before) = rest.flatMap codeChars := by
  rw [byteChars_eq, shape, List.flatMap_append, ← length_flatMap_codeChars]
  exact ⟨List.take_left, List.drop_left⟩

/-- The test is passed by ASCII characters only. -/
def IsAsciiTest (test : Char → Bool) : Prop := ∀ c, 128 ≤ c.toNat → test c = false

namespace IsAsciiTest

variable {test : Char → Bool}

theorem beq {c : Char} (ascii : c.toNat < 128) : IsAsciiTest (· == c) := by
  intro d high
  rw [beq_eq_false_iff_ne]
  rintro rfl
  omega

theorem or {other : Char → Bool} (left : IsAsciiTest test) (right : IsAsciiTest other) :
    IsAsciiTest fun c => test c || other c := by
  intro c high
  show (test c || other c) = false
  rw [left c high, right c high]
  rfl

/-- A character above the ASCII range lies behind all ranges of ASCII characters. -/
theorem not_le_of_high {c last : Char} (high : 128 ≤ c.toNat) (ascii : last.toNat < 128) :
    ¬c.val ≤ last.val := by
  rw [UInt32.le_iff_toNat_le]
  exact Nat.not_le.mpr (Nat.lt_of_lt_of_le ascii high)

theorem isDigit : IsAsciiTest Char.isDigit := by
  intro c high
  show (decide (c.val ≥ '0'.val) && decide (c.val ≤ '9'.val)) = false
  rw [decide_eq_false (not_le_of_high high (by decide)), Bool.and_false]

theorem isAlphanum : IsAsciiTest Char.isAlphanum := by
  refine or (fun c high => ?_) isDigit
  have noUpper : c.isUpper = false := decide_eq_false fun both => not_le_of_high high (by decide) both.2
  have noLower : c.isLower = false := by
    show (decide (c.val ≥ 'a'.val) && decide (c.val ≤ 'z'.val)) = false
    rw [decide_eq_false (not_le_of_high high (by decide)), Bool.and_false]
  show (c.isUpper || c.isLower) = false
  rw [noUpper, noLower]
  rfl

/-- The bytes of a character pass the test just when the character does. -/
theorem eq_of_mem_codeChars (isAscii : IsAsciiTest test) {c d : Char} (isByte : d ∈ codeChars c) :
    test d = test c := by
  rcases Nat.lt_or_ge c.toNat 128 with ascii | high
  · rw [codeChars_ascii ascii, List.mem_singleton] at isByte
    rw [isByte]
  · rw [isAscii d (codeChars_high high isByte), isAscii c high]

theorem ascii_of_passes (isAscii : IsAsciiTest test) {c : Char} (passes : test c = true) : c.toNat < 128 := by
  by_contra high
  rw [isAscii c (Nat.not_lt.mp high)] at passes
  cases passes

/-- **A run of ASCII characters** is the same run of bytes, one for each character. -/
theorem takeWhile_flatMap (isAscii : IsAsciiTest test) (chars : List Char) :
    (chars.flatMap codeChars).takeWhile test = chars.takeWhile test ∧
      byteCount (chars.takeWhile test) = (chars.takeWhile test).length := by
  induction chars with
  | nil => exact ⟨rfl, rfl⟩
  | cons c rest ih =>
    obtain ⟨first, others, code⟩ := exists_codeChars c
    have same := isAscii.eq_of_mem_codeChars (code ▸ List.mem_cons_self : first ∈ codeChars c)
    rw [List.flatMap_cons, List.takeWhile_cons]
    cases passes : test c with
    | false =>
      rw [code, List.cons_append, List.takeWhile_cons, same, passes]
      exact ⟨rfl, rfl⟩
    | true =>
      have ascii := isAscii.ascii_of_passes passes
      rw [codeChars_ascii ascii, List.singleton_append, List.takeWhile_cons, passes]
      simp only [if_true, ih.1, byteCount_cons, utf8Size_of_ascii ascii, ih.2, List.length_cons, true_and]
      exact Nat.add_comm 1 _

theorem any_head?_flatMap (isAscii : IsAsciiTest test) (chars : List Char) :
    (chars.flatMap codeChars).head?.any test = chars.head?.any test := by
  cases chars with
  | nil => rfl
  | cons c rest =>
    obtain ⟨first, others, code⟩ := exists_codeChars c
    rw [List.flatMap_cons, code]
    exact isAscii.eq_of_mem_codeChars (code ▸ List.mem_cons_self)

theorem any_getLast?_flatMap (isAscii : IsAsciiTest test) (chars : List Char) :
    (chars.flatMap codeChars).getLast?.any test = chars.getLast?.any test := by
  rcases List.eq_nil_or_concat chars with rfl | ⟨before, c, rfl⟩
  · rfl
  · obtain ⟨first, others, code⟩ := exists_codeChars c
    have given : codeChars c ≠ [] := by rw [code]; exact List.cons_ne_nil _ _
    rw [List.concat_eq_append, List.flatMap_append, List.flatMap_singleton, List.getLast?_concat,
      List.getLast?_append_of_ne_nil _ given, List.getLast?_eq_getLast_of_ne_nil given]
    exact isAscii.eq_of_mem_codeChars (List.getLast_mem given)

end IsAsciiTest

/-! ### Groups -/

namespace Template

/-- Characters above the ASCII range are passed over, inside and outside of strings. -/
theorem closingAfter?_append_of_high {high : List Char} (isHigh : ∀ d ∈ high, 128 ≤ d.toNat) (depth : Nat)
    {quote : Option Char} (ascii : ∀ q ∈ quote, q.toNat < 128) (rest : List Char) :
    closingAfter? depth quote (high ++ rest) =
      (closingAfter? depth quote rest).map (· + high.length) := by
  induction high with
  | nil => simp
  | cons d high ih =>
    have differs : ∀ {c : Char}, c.toNat < 128 → d ≠ c := by
      rintro c isAscii rfl
      have := isHigh d List.mem_cons_self
      omega
    have step : closingAfter? depth quote (d :: (high ++ rest)) =
        (closingAfter? depth quote (high ++ rest)).map (· + 1) := by
      cases quote with
      | none =>
        exact closingAfter?_plain depth _ (not_or.mpr ⟨differs (by decide), differs (by decide)⟩)
          (differs (by decide)) (differs (by decide))
      | some q => exact closingAfter?_quoted depth _ (differs (by decide)) (differs (ascii q rfl))
    rw [List.cons_append, step, ih fun e inside => isHigh e (List.mem_cons_of_mem d inside),
      map_add_map_add, List.length_cons]

/-- A character that is passed over is so with all its bytes. -/
theorem closingAfter?_codeChars_append {depth : Nat} {quote : Option Char} {c : Char}
    (asciiQuote : ∀ q ∈ quote, q.toNat < 128)
    (passes : ∀ rest, closingAfter? depth quote (c :: rest) = (closingAfter? depth quote rest).map (· + 1))
    (rest : List Char) :
    closingAfter? depth quote (codeChars c ++ rest) =
      (closingAfter? depth quote rest).map (· + c.utf8Size) := by
  rw [← length_codeChars]
  rcases Nat.lt_or_ge c.toNat 128 with ascii | high
  · rw [codeChars_ascii ascii, List.singleton_append, passes, List.length_singleton]
  · exact closingAfter?_append_of_high (fun d => codeChars_high high) depth asciiQuote rest

/-- The bytes before a place, counted from one character earlier. -/
theorem map_byteCount_take_cons (found : Option Nat) (c : Char) (rest : List Char) :
    (found.map (· + 1)).map (fun count => byteCount ((c :: rest).take count)) =
      (found.map fun count => byteCount (rest.take count)).map (· + c.utf8Size) := by
  rw [Option.map_map, Option.map_map]
  congr 1
  funext count
  exact Nat.add_comm _ _

/-- **The search for a closing parenthesis may go through bytes.** A backslash then takes one byte with it
instead of one character; the other bytes of that character are passed over one by one. -/
theorem closingAfter?_flatMap_codeChars (depth : Nat) (quote : Option Char) (chars : List Char)
    (asciiQuote : ∀ q ∈ quote, q.toNat < 128) :
    closingAfter? depth quote (chars.flatMap codeChars) =
      (closingAfter? depth quote chars).map fun count => byteCount (chars.take count) := by
  have outside : ∀ q ∈ (none : Option Char), q.toNat < 128 := by
    intro q isQuote
    cases isQuote
  fun_induction closingAfter? depth quote chars with
  | case1 depth quote => exact closingAfter?_nil depth quote
  | case2 depth quote =>
    rw [List.flatMap_singleton, codeChars_ascii (by decide), closingAfter?_lastEscape]
    rfl
  | case3 depth quote c behind ih =>
    obtain ⟨first, others, code⟩ := exists_codeChars c
    have isHigh : ∀ d ∈ others, 128 ≤ d.toNat := by
      intro d isOther
      rcases Nat.lt_or_ge c.toNat 128 with ascii | high
      · rw [codeChars_ascii ascii, List.cons.injEq] at code
        rw [← code.2] at isOther
        cases isOther
      · exact codeChars_high high (code ▸ List.mem_cons_of_mem first isOther)
    have size : others.length + 2 = c.utf8Size + ('\\' : Char).utf8Size := by
      rw [← length_codeChars c, code]
      rfl
    rw [List.flatMap_cons, codeChars_ascii (by decide), List.flatMap_cons, code, List.singleton_append,
      List.cons_append, closingAfter?_escape, closingAfter?_append_of_high isHigh depth asciiQuote,
      ih asciiQuote, map_add_map_add, size, ← map_add_map_add, ← map_byteCount_take_cons,
      ← map_byteCount_take_cons, map_add_map_add]
  | case4 depth c rest noEscape ih =>
    have ascii := asciiQuote c rfl
    rw [List.flatMap_cons, codeChars_ascii ascii, List.singleton_append,
      closingAfter?_endQuote depth _ noEscape, ih outside, map_byteCount_take_cons,
      utf8Size_of_ascii ascii]
  | case5 depth quote c rest noEscape differs ih =>
    rw [List.flatMap_cons, closingAfter?_codeChars_append asciiQuote fun _ =>
      closingAfter?_quoted depth _ noEscape differs, ih asciiQuote, map_byteCount_take_cons]
  | case6 depth c rest isQuote ih =>
    have ascii : c.toNat < 128 := by rcases isQuote with rfl | rfl <;> decide
    have asciiQuote : ∀ q ∈ some c, q.toNat < 128 := by
      rintro _ ⟨⟩
      exact ascii
    rw [List.flatMap_cons, codeChars_ascii ascii, List.singleton_append,
      closingAfter?_startQuote depth _ isQuote, ih asciiQuote, map_byteCount_take_cons,
      utf8Size_of_ascii ascii]
  | case7 depth rest noQuote ih =>
    rw [List.flatMap_cons, codeChars_ascii (by decide), List.singleton_append, closingAfter?_opening,
      ih outside, map_byteCount_take_cons]
    rfl
  | case8 rest noQuote noOpening =>
    rw [List.flatMap_cons, codeChars_ascii (by decide), List.singleton_append, closingAfter?_closing]
    rfl
  | case9 rest outer noQuote noOpening ih =>
    rw [List.flatMap_cons, codeChars_ascii (by decide), List.singleton_append, closingAfter?_inner,
      ih outside, map_byteCount_take_cons]
    rfl
  | case10 depth c rest noQuote noOpening noClosing ih =>
    rw [List.flatMap_cons, closingAfter?_codeChars_append asciiQuote fun _ =>
      closingAfter?_plain depth _ noQuote noOpening noClosing, ih asciiQuote, map_byteCount_take_cons]

/-- **The bytes of a group** are those of its characters. -/
theorem groupLength?_flatMap_codeChars (chars : List Char) :
    groupLength? (chars.flatMap codeChars) =
      (groupLength? chars).map fun length => byteCount (chars.take length) := by
  refine closingAfter?_flatMap_codeChars 0 none chars fun q isQuote => ?_
  cases isQuote

end Template

end ArtifactIndex
