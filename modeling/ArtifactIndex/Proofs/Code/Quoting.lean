/-
**Values read back from their quotes.**

A value can be written in single quotes, where a backslash stands before each quote and each backslash of it,
and in double quotes, where one also stands before dollar signs and line ends and tabs are written by letters.
Unquoting takes the escapes in the order in which they were written and gives the value back. A body that is
written without escapes is its own value; a backslash that escapes nothing is a part of it, the last one of
the body, too.

* `unquote?_chars`: a literal as it is written has a value, its decoded body;
* `decode_encodeSingle`, `decode_encodeDouble`: decoding is the inverse of both ways to write a value;
* `unescaped_single_iff`, `unescaped_double_iff`: the bodies that stay as they are;
* `readsBack_of_mark`: all of this for literals behind a mark and without one.
-/

import ArtifactIndex.Proofs.Code.Written

namespace ArtifactIndex

namespace Literal

variable {quote c meant : Char} {mark body rest : List Char}

/-! ### Written literals have values -/

theorem isBlank_of_isQuote (isQuote : Literal.isQuote quote = true) : isBlank quote = false := by
  rw [Literal.isQuote, Bool.or_eq_true, beq_iff_eq, beq_iff_eq] at isQuote
  rcases isQuote with rfl | rfl <;> rfl

/-- The mark before a quote is left out. -/
theorem withoutMark_append (isMark : mark = [] ∨ mark = ['b'] ∨ mark = ['B'])
    (isQuote : Literal.isQuote quote = true) : withoutMark (mark ++ quote :: rest) = quote :: rest := by
  have noMark : ¬(quote = 'b' ∨ quote = 'B') := by
    rintro (rfl | rfl) <;> cases isQuote
  rcases isMark with rfl | rfl | rfl
  · cases rest with
    | nil => rfl
    | cons next rest => exact if_neg fun both => noMark both.1
  · exact if_pos ⟨.inl rfl, isQuote⟩
  · exact if_pos ⟨.inr rfl, isQuote⟩

/-- **A literal as it is written has a value**, its decoded body. -/
theorem unquote?_chars (written : WrittenLiteral) :
    unquote? (String.ofList written.chars) = some written.value := by
  obtain ⟨mark, quote, body, isMark, isQuote⟩ := written
  have notBlank := isBlank_of_isQuote isQuote
  have plain : trimmed (String.ofList (mark ++ quote :: body ++ [quote])) =
      String.ofList (mark ++ quote :: body ++ [quote]) := by
    refine trimmed_eq_self ?_ ?_
    · rw [String.toList_ofList]
      rcases isMark with rfl | rfl | rfl <;> rintro c ⟨⟩
      · exact notBlank
      · rfl
      · rfl
    · rw [String.toList_ofList, List.getLast?_concat]
      rintro c ⟨⟩
      exact notBlank
  have bare : withoutMark (mark ++ quote :: body ++ [quote]) = quote :: (body ++ [quote]) := by
    rw [List.append_assoc, List.cons_append, withoutMark_append isMark isQuote]
  show unquote? (String.ofList (mark ++ quote :: body ++ [quote])) = _
  rw [unquote?, plain, String.toList_ofList, bare]
  simp only [isQuote, if_true, List.reverse_append, List.reverse_singleton, List.singleton_append,
    List.reverse_reverse]
  rfl

/-! ### Values that are written -/

/-- Any other character than a backslash stands for itself. -/
theorem decode_plain (noEscape : c ≠ '\\') (rest : List Char) :
    decode quote (c :: rest) = c :: decode quote rest := by
  cases rest with
  | nil => rfl
  | cons next rest => rw [decode, if_neg noEscape]

/-- A backslash takes a character with it that it escapes. -/
theorem decode_escape (isEscaped : escaped? quote c = some meant) (rest : List Char) :
    decode quote ('\\' :: c :: rest) = meant :: decode quote rest := by
  rw [decode, if_pos rfl, isEscaped]

theorem escaped?_single (c : Char) : escaped? '\'' c = if c = '\'' ∨ c = '\\' then some c else none :=
  if_pos rfl

theorem escaped?_double (c : Char) :
    escaped? '"' c =
      if c = '"' ∨ c = '\\' ∨ c = '$' then some c
      else if c = 'n' then some '\n'
      else if c = 't' then some '\t'
      else none :=
  if_neg (by decide)

/-- **Decoding gives back what is written in single quotes.** -/
theorem decode_encodeSingle (value : List Char) : decode '\'' (encodeSingle value) = value := by
  induction value with
  | nil => rfl
  | cons c rest ih =>
    rw [encodeSingle]
    split
    · next escapes => rw [decode_escape (by rw [escaped?_single, if_pos escapes]), ih]
    · next plain => rw [decode_plain (fun isEscape => plain (.inr isEscape)), ih]

/-- **Decoding gives back what is written in double quotes.** -/
theorem decode_encodeDouble (value : List Char) : decode '"' (encodeDouble value) = value := by
  induction value with
  | nil => rfl
  | cons c rest ih =>
    rw [encodeDouble]
    split
    · next escapes => rw [decode_escape (by rw [escaped?_double, if_pos escapes]), ih]
    · next plain =>
      split
      · next isLineEnd =>
        have isEscaped : escaped? '"' 'n' = some '\n' := rfl
        rw [decode_escape isEscaped, ih, isLineEnd]
      · next =>
        split
        · next isTab =>
          have isEscaped : escaped? '"' 't' = some '\t' := rfl
          rw [decode_escape isEscaped, ih, isTab]
        · next => rw [decode_plain (fun isEscape => plain (.inr (.inl isEscape))), ih]

/-! ### Bodies that stay as they are -/

/-- Nothing is escaped when no backslash stands before a character that it escapes. -/
theorem unescaped_iff : Unescaped quote body ↔ ∀ c, ['\\', c] <:+: body → escaped? quote c = none := by
  constructor
  · rintro unescaped c ⟨before, behind, shape⟩
    exact unescaped before c behind (by rw [← shape, List.append_assoc]; rfl)
  · intro unescaped before c behind shape
    exact unescaped c ⟨before, behind, by rw [shape, List.append_assoc]; rfl⟩

/-- In single quotes only a second backslash can be escaped in a body without quotes. -/
theorem unescaped_single_iff (noQuote : '\'' ∉ body) :
    Unescaped '\'' body ↔ ¬['\\', '\\'] <:+: body := by
  rw [unescaped_iff]
  constructor
  · intro unescaped twice
    cases unescaped '\\' twice
  · intro apart c inside
    rw [escaped?_single, if_neg]
    rintro (rfl | rfl)
    · exact noQuote (inside.mem (List.mem_cons_of_mem _ (List.mem_singleton_self _)))
    · exact apart inside

/-- In double quotes these are backslashes, dollar signs and the letters of line ends and tabs. -/
theorem unescaped_double_iff (noQuote : '"' ∉ body) :
    Unescaped '"' body ↔ ∀ c ∈ ['\\', '$', 'n', 't'], ¬['\\', c] <:+: body := by
  rw [unescaped_iff]
  constructor
  · intro unescaped c isListed inside
    have kept := unescaped c inside
    simp only [List.mem_cons, List.not_mem_nil, or_false] at isListed
    rcases isListed with rfl | rfl | rfl | rfl <;> cases kept
  · intro apart c inside
    have differs : ∀ other ∈ ['\\', '$', 'n', 't'], c ≠ other := by
      rintro other isListed rfl
      exact apart c isListed inside
    have isNoQuote : c ≠ '"' := by
      rintro rfl
      exact noQuote (inside.mem (List.mem_cons_of_mem _ (List.mem_singleton_self _)))
    simp only [List.forall_mem_cons] at differs
    obtain ⟨noEscape, noDollar, noLineEnd, noTab, -⟩ := differs
    rw [escaped?_double, if_neg (by simp [isNoQuote, noEscape, noDollar]), if_neg noLineEnd, if_neg noTab]

/-! ### Literals behind a mark -/

/-- **Values are read back from their quotes**, behind a given mark. -/
structure ReadsBack (mark : List Char) : Prop where
  single : ∀ value : String,
    unquote? (String.ofList (mark ++ '\'' :: encodeSingle value.toList ++ ['\''])) = some value
  double : ∀ value : String,
    unquote? (String.ofList (mark ++ '"' :: encodeDouble value.toList ++ ['"'])) = some value
  /-- In single quotes a body without them stays as it is exactly when no two backslashes stand side by
  side. -/
  singlePlain : ∀ body : String, '\'' ∉ body.toList →
    (unquote? (String.ofList (mark ++ '\'' :: body.toList ++ ['\''])) = some body ↔
      ¬['\\', '\\'] <:+: body.toList)
  /-- In double quotes, exactly when no backslash stands before one of four characters. -/
  doublePlain : ∀ body : String, '"' ∉ body.toList →
    (unquote? (String.ofList (mark ++ '"' :: body.toList ++ ['"'])) = some body ↔
      ∀ c ∈ ['\\', '$', 'n', 't'], ¬['\\', c] <:+: body.toList)

/-- A literal is read as its body exactly when nothing in it is escaped. -/
theorem unquote?_chars_eq_body_iff (written : WrittenLiteral) :
    unquote? (String.ofList written.chars) = some (String.ofList written.body) ↔
      Unescaped written.quote written.body := by
  rw [unquote?_chars, WrittenLiteral.value, Option.some.injEq, String.ofList_inj, decode_eq_self_iff]

/-- **Unquoting is the inverse of quoting**, and changes nothing in a body without escapes. -/
theorem readsBack_of_mark (mark : List Char) (isMark : mark = [] ∨ mark = ['b'] ∨ mark = ['B']) :
    ReadsBack mark where
  single value := by
    have read := unquote?_chars ⟨mark, '\'', encodeSingle value.toList, isMark, rfl⟩
    rwa [WrittenLiteral.value, decode_encodeSingle, String.ofList_toList] at read
  double value := by
    have read := unquote?_chars ⟨mark, '"', encodeDouble value.toList, isMark, rfl⟩
    rwa [WrittenLiteral.value, decode_encodeDouble, String.ofList_toList] at read
  singlePlain body noQuote := by
    have kept := unquote?_chars_eq_body_iff ⟨mark, '\'', body.toList, isMark, rfl⟩
    rw [String.ofList_toList] at kept
    exact kept.trans (unescaped_single_iff noQuote)
  doublePlain body noQuote := by
    have kept := unquote?_chars_eq_body_iff ⟨mark, '"', body.toList, isMark, rfl⟩
    rw [String.ofList_toList] at kept
    exact kept.trans (unescaped_double_iff noQuote)

/-- Of `b'it\'s \\'` the value is read back, and the backslash at the end of `b'C:\'` stays. -/
theorem readsBack_of_mark_binary :
    unquote? "b'it\\'s \\\\'" = some "it's \\" ∧ unquote? "b'C:\\'" = some "C:\\" := by
  have reads := readsBack_of_mark ['b'] (.inr (.inl rfl))
  have quoted : String.ofList (['b'] ++ '\'' :: encodeSingle "it's \\".toList ++ ['\'']) = "b'it\\'s \\\\'" := by
    decide +kernel
  have plain : String.ofList (['b'] ++ '\'' :: "C:\\".toList ++ ['\'']) = "b'C:\\'" := by decide +kernel
  exact ⟨quoted ▸ reads.single "it's \\",
    plain ▸ (reads.singlePlain "C:\\" (by decide +kernel)).mpr (by decide +kernel)⟩

end Literal

end ArtifactIndex
