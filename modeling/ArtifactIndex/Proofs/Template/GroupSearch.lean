/-
**The search for the end of a group, by bytes.**

The search runs over bytes with an offset, the number of groups that are open there, and the quote of the
string around it. Each round takes one byte, or two where a backslash stands inside a string. An opening
parenthesis is counted up and a closing one down; a round that would count below zero stops the search
without an answer. Whatever the bytes are, this never happens: the search ends, and it answers just when
what it has passed is a balanced group.

* `Closes`: what stands before a parenthesis that closes a group, from inside of further groups;
* `groupLength?_eq_some_iff`: the arguments that are found are the balanced ones;
* `GroupSearch.round`, `GroupSearch.Ends`: a round of the search and its runs;
* `GroupSearch.fits_round`, `GroupSearch.Reaches.advanced`: what one round keeps, and all of them;
* `findsGroup_of_opening`: the search from an opening parenthesis on.
-/

import ArtifactIndex.Proofs.Text.ByteChars

namespace ArtifactIndex

namespace Template

/-! ### Arguments that are found -/

section Found

variable {depth : Nat} {quote : Char} {arguments chars : List Char}

theorem Balanced.append (first : Balanced arguments) (second : Balanced chars) :
    Balanced (arguments ++ chars) := by
  induction first with
  | nil => exact second
  | plain noQuote noOpening noClosing later ih => exact .plain noQuote noOpening noClosing ih
  | quoted isQuote inside later ih =>
    rw [List.cons_append, List.append_assoc, List.cons_append]
    exact .quoted isQuote inside ih
  | group inside later ihInside ihLater =>
    rw [List.cons_append, List.append_assoc, List.cons_append]
    exact .group inside ihLater

/-- **What stands before the parenthesis that closes a group**, from inside of as many further groups: the
rest of each of them, the innermost first, and a parenthesis that closes it. -/
inductive Closes : Nat → List Char → Prop
  | last {arguments : List Char} (balanced : Balanced arguments) : Closes 0 arguments
  | inner {depth : Nat} {arguments outer : List Char} (balanced : Balanced arguments)
      (later : Closes depth outer) : Closes (depth + 1) (arguments ++ ')' :: outer)

namespace Closes

theorem prepend (closes : Closes depth chars) (balanced : Balanced arguments) :
    Closes depth (arguments ++ chars) := by
  cases closes with
  | last more => exact .last (balanced.append more)
  | inner more later =>
    rw [← List.append_assoc]
    exact .inner (balanced.append more) later

/-- A group that is opened and closed on the way is a part of the arguments around it. -/
theorem opening (closes : Closes (depth + 1) chars) : Closes depth ('(' :: chars) := by
  cases closes with
  | @inner _ inside outer balanced later =>
    have group : Balanced ('(' :: (inside ++ [')'])) := .group balanced .nil
    have whole := later.prepend group
    rwa [List.cons_append, List.append_assoc, List.singleton_append] at whole

end Closes

/-- What stands before the parenthesis that closes a group, from inside of a string or outside. -/
def ClosesFrom (depth : Nat) : Option Char → List Char → Prop
  | none, chars => Closes depth chars
  | some quote, chars =>
    ∃ body rest, chars = body ++ quote :: rest ∧ QuotedBody quote body ∧ Closes depth rest

/-- **The search passes over balanced arguments only.** -/
theorem closesFrom_of_closingAfter? {depth count : Nat} {quote : Option Char} {chars : List Char}
    (found : closingAfter? depth quote chars = some count) : ClosesFrom depth quote (chars.take count) := by
  fun_induction closingAfter? depth quote chars generalizing count with
  | case1 => cases found
  | case2 => cases found
  | case3 depth quote c behind ih =>
    obtain ⟨later, isLater, rfl⟩ := Option.map_eq_some_iff.mp found
    obtain ⟨body, rest, shape, inside, closes⟩ := ih isLater
    exact ⟨'\\' :: c :: body, rest, by simp only [List.take_succ_cons, shape, List.cons_append],
      .escaped inside, closes⟩
  | case4 depth c rest noEscape ih =>
    obtain ⟨later, isLater, rfl⟩ := Option.map_eq_some_iff.mp found
    exact ⟨[], rest.take later, rfl, .nil, ih isLater⟩
  | case5 depth quote c rest noEscape differs ih =>
    obtain ⟨later, isLater, rfl⟩ := Option.map_eq_some_iff.mp found
    obtain ⟨body, behind, shape, inside, closes⟩ := ih isLater
    exact ⟨c :: body, behind, by rw [List.take_succ_cons, shape, List.cons_append],
      .plain noEscape differs inside, closes⟩
  | case6 depth c rest isQuote ih =>
    -- The string that starts here is a part of the arguments as a whole.
    obtain ⟨later, isLater, rfl⟩ := Option.map_eq_some_iff.mp found
    obtain ⟨body, behind, shape, inside, closes⟩ := ih isLater
    have string : Balanced (c :: (body ++ [c])) := .quoted isQuote inside .nil
    have whole := closes.prepend string
    rw [List.cons_append, List.append_assoc, List.singleton_append] at whole
    rwa [List.take_succ_cons, shape]
  | case7 depth rest noQuote ih =>
    obtain ⟨later, isLater, rfl⟩ := Option.map_eq_some_iff.mp found
    exact (ih isLater).opening
  | case8 rest noQuote noOpening =>
    cases found
    exact .last .nil
  | case9 rest outer noQuote noOpening ih =>
    obtain ⟨later, isLater, rfl⟩ := Option.map_eq_some_iff.mp found
    exact .inner .nil (ih isLater)
  | case10 depth c rest noQuote noOpening noClosing ih =>
    obtain ⟨later, isLater, rfl⟩ := Option.map_eq_some_iff.mp found
    exact (ih isLater).prepend (.plain noQuote noOpening noClosing .nil)

/-- **The arguments that are found** are the balanced ones. -/
theorem groupLength?_eq_some_iff {length : Nat} : groupLength? chars = some length ↔
    ∃ arguments behind, chars = arguments ++ ')' :: behind ∧ Balanced arguments ∧
      arguments.length = length := by
  constructor
  · intro found
    obtain ⟨behind, isClosing⟩ := drop_of_closingAfter? found
    have inside : length < chars.length := by
      by_contra outside
      rw [List.drop_eq_nil_of_le (Nat.not_lt.mp outside)] at isClosing
      cases isClosing
    cases closesFrom_of_closingAfter? found with
    | last balanced =>
      refine ⟨chars.take length, behind, ?_, balanced, ?_⟩
      · rw [← isClosing, List.take_append_drop]
      · rw [List.length_take, Nat.min_eq_left inside.le]
  · rintro ⟨arguments, behind, rfl, balanced, rfl⟩
    exact groupLength?_of_balanced balanced behind

end Found

/-! ### Rounds of the search -/

/-- A byte read as a character of its own. -/
def charOf (byte : UInt8) : Char := Char.ofNat byte.toNat

theorem charOf_injective : Function.Injective charOf := by
  intro first second same
  have same := congrArg Char.toNat same
  rw [charOf, charOf, toNat_ofNat_byte, toNat_ofNat_byte] at same
  exact UInt8.toNat_inj.mp same

/-- An ASCII character is read from one byte only. -/
theorem charOf_eq_iff {byte : UInt8} {c : Char} (ascii : c.toNat < 128) :
    charOf byte = c ↔ byte = c.toUInt8 := by
  have isByte : charOf c.toUInt8 = c := by
    show Char.ofNat (c.toNat % 256) = c
    rw [Nat.mod_eq_of_lt (by omega), Char.ofNat_toNat]
  constructor
  · intro same
    exact charOf_injective (same.trans isByte.symm)
  · rintro rfl
    exact isByte

/-- **A state of the search**: an offset, how many groups are open there, and the quote of the string around
it. -/
structure GroupSearch where
  offset : Nat
  depth : Nat
  quote : Option UInt8

/-- What a round comes to: the search goes on, it is at the end of the group, or it has counted below
zero. -/
inductive GroupRound
  | onward (next : GroupSearch)
  | found
  | underflow

namespace GroupSearch

/-- **One round of the search**, at a byte. -/
def round (search : GroupSearch) (byte : UInt8) : GroupRound :=
  match search.quote with
  | some quote =>
    if byte = '\\'.toUInt8 then .onward { search with offset := search.offset + 2 }
    else if byte = quote then .onward { search with offset := search.offset + 1, quote := none }
    else .onward { search with offset := search.offset + 1 }
  | none =>
    if byte = '\''.toUInt8 ∨ byte = '"'.toUInt8 then
      .onward { search with offset := search.offset + 1, quote := some byte }
    else if byte = '('.toUInt8 then
      .onward { search with offset := search.offset + 1, depth := search.depth + 1 }
    else if byte = ')'.toUInt8 then
      match search.depth with
      | 0 => .underflow
      | 1 => .found
      | depth + 2 => .onward { search with offset := search.offset + 1, depth := depth + 1 }
    else .onward { search with offset := search.offset + 1 }

/-- The search comes from one state to another in a number of rounds. -/
inductive Reaches (bytes : List UInt8) (start : GroupSearch) : Nat → GroupSearch → Prop
  | start : Reaches bytes start 0 start
  | round {count : Nat} {search next : GroupSearch} {byte : UInt8} (earlier : Reaches bytes start count search)
      (isByte : bytes[search.offset]? = some byte) (isOnward : search.round byte = .onward next) :
      Reaches bytes start (count + 1) next

/-- **The runs of the search** from a state to its end, with the answer. -/
inductive Ends (bytes : List UInt8) : GroupSearch → Option Nat → Prop
  | outside {search : GroupSearch} (outside : bytes.length ≤ search.offset) : Ends bytes search none
  | found {search : GroupSearch} {byte : UInt8} (isByte : bytes[search.offset]? = some byte)
      (isFound : search.round byte = .found) : Ends bytes search (some search.offset)
  | onward {search next : GroupSearch} {byte : UInt8} {answer : Option Nat}
      (isByte : bytes[search.offset]? = some byte) (isOnward : search.round byte = .onward next)
      (later : Ends bytes next answer) : Ends bytes search answer

/-- The offset that the search from a state on is to answer. -/
def answer? (bytes : List UInt8) (search : GroupSearch) : Option Nat :=
  (closingAfter? (search.depth - 1) (search.quote.map charOf) ((bytes.drop search.offset).map charOf)).map
    (search.offset + ·)

/-- A round that keeps the answer and leaves a group open, or gives the answer. -/
inductive Fits (bytes : List UInt8) (search : GroupSearch) : GroupRound → Prop
  | onward {next : GroupSearch} (isOpen : 0 < next.depth) (ahead : search.offset < next.offset)
      (same : next.answer? bytes = search.answer? bytes) : Fits bytes search (.onward next)
  | found (answers : search.answer? bytes = some search.offset) : Fits bytes search .found

variable {bytes : List UInt8} {byte : UInt8} {search : GroupSearch}

/-- The bytes from an offset on. -/
theorem drop_eq_of_isByte {offset : Nat} (isByte : bytes[offset]? = some byte) :
    bytes.drop offset = byte :: bytes.drop (offset + 1) := by
  obtain ⟨inside, rfl⟩ := List.getElem?_eq_some_iff.mp isByte
  exact List.drop_eq_getElem_cons inside

/-- Counting from a later offset on. -/
theorem map_add_offset (found : Option Nat) (offset step : Nat) :
    found.map (offset + step + ·) = (found.map (· + step)).map (offset + ·) := by
  rw [Option.map_map]
  congr 1
  funext count
  show offset + step + count = offset + (count + step)
  omega

/-- A round that passes over bytes fits when the search for the closing parenthesis passes over them. -/
theorem Fits.pass {next : GroupSearch} {step : Nat} (isOpen : 0 < next.depth) (positive : 0 < step)
    (isNext : next.offset = search.offset + step)
    (passes : closingAfter? (search.depth - 1) (search.quote.map charOf)
        ((bytes.drop search.offset).map charOf) =
      (closingAfter? (next.depth - 1) (next.quote.map charOf)
        ((bytes.drop (search.offset + step)).map charOf)).map (· + step)) :
    Fits bytes search (.onward next) := by
  refine .onward isOpen (by omega) ?_
  rw [answer?, answer?, passes, isNext, map_add_offset]

/-- A round inside a string fits. -/
theorem fits_round_inString {offset depth : Nat} {quote : UInt8} (isByte : bytes[offset]? = some byte) :
    Fits bytes ⟨offset, depth + 1, some quote⟩ (round ⟨offset, depth + 1, some quote⟩ byte) := by
  have rest : (bytes.drop offset).map charOf = charOf byte :: (bytes.drop (offset + 1)).map charOf :=
    congrArg (List.map charOf) (drop_eq_of_isByte isByte)
  have isEscape : charOf byte = '\\' ↔ byte = '\\'.toUInt8 := charOf_eq_iff (by decide)
  have isQuote : charOf byte = charOf quote ↔ byte = quote := charOf_injective.eq_iff
  rw [round]
  dsimp only
  split
  · next escapes =>
    refine .pass (Nat.succ_pos depth) Nat.two_pos rfl ?_
    show closingAfter? depth (some (charOf quote)) _ = _
    rw [rest, isEscape.mpr escapes, closingAfter?_backslash, ← List.map_drop, List.drop_drop]
    rfl
  · next noEscape =>
    split
    · next ends =>
      refine .pass (Nat.succ_pos depth) Nat.one_pos rfl ?_
      show closingAfter? depth (some (charOf quote)) _ = _
      rw [rest, isQuote.mpr ends]
      exact closingAfter?_endQuote depth _ (by rw [← isQuote.mpr ends]; exact mt isEscape.mp noEscape)
    · next differs =>
      refine .pass (Nat.succ_pos depth) Nat.one_pos rfl ?_
      show closingAfter? depth (some (charOf quote)) _ = _
      rw [rest]
      exact closingAfter?_quoted depth _ (mt isEscape.mp noEscape) (mt isQuote.mp differs)

/-- A round outside of strings fits. -/
theorem fits_round_outside {offset depth : Nat} (isByte : bytes[offset]? = some byte) :
    Fits bytes ⟨offset, depth + 1, none⟩ (round ⟨offset, depth + 1, none⟩ byte) := by
  have rest : (bytes.drop offset).map charOf = charOf byte :: (bytes.drop (offset + 1)).map charOf :=
    congrArg (List.map charOf) (drop_eq_of_isByte isByte)
  have isQuote : charOf byte = '\'' ∨ charOf byte = '"' ↔ byte = '\''.toUInt8 ∨ byte = '"'.toUInt8 :=
    or_congr (charOf_eq_iff (by decide)) (charOf_eq_iff (by decide))
  have isOpening : charOf byte = '(' ↔ byte = '('.toUInt8 := charOf_eq_iff (by decide)
  have isClosing : charOf byte = ')' ↔ byte = ')'.toUInt8 := charOf_eq_iff (by decide)
  rw [round]
  dsimp only
  split
  · next starts =>
    refine .pass (Nat.succ_pos depth) Nat.one_pos rfl ?_
    show closingAfter? depth none _ = _
    rw [rest]
    exact closingAfter?_startQuote depth _ (isQuote.mpr starts)
  · next noQuote =>
    split
    · next opens =>
      refine .pass (Nat.succ_pos (depth + 1)) Nat.one_pos rfl ?_
      show closingAfter? depth none _ = _
      rw [rest, isOpening.mpr opens]
      exact closingAfter?_opening depth _
    · next noOpening =>
      split
      · next closes =>
        -- The parenthesis ends the group that is searched when no further one is open.
        cases depth with
        | zero =>
          refine .found ?_
          show (closingAfter? 0 none _).map (offset + ·) = some offset
          rw [rest, isClosing.mpr closes, closingAfter?_closing]
          rfl
        | succ outer =>
          refine .pass (Nat.succ_pos outer) Nat.one_pos rfl ?_
          show closingAfter? (outer + 1) none _ = _
          rw [rest, isClosing.mpr closes]
          exact closingAfter?_inner outer _
      · next noClosing =>
        refine .pass (Nat.succ_pos depth) Nat.one_pos rfl ?_
        show closingAfter? depth none _ = _
        rw [rest]
        exact closingAfter?_plain depth _ (mt isQuote.mp noQuote) (mt isOpening.mp noOpening)
          (mt isClosing.mp noClosing)

/-- **A round inside a group** keeps the answer and leaves a group open, or gives the answer. It never counts
below zero. -/
theorem fits_round (isOpen : 0 < search.depth) (isByte : bytes[search.offset]? = some byte) :
    Fits bytes search (search.round byte) := by
  obtain ⟨offset, depth, quote⟩ := search
  obtain ⟨outer, rfl⟩ := Nat.exists_eq_succ_of_ne_zero (Nat.ne_of_gt isOpen)
  cases quote with
  | none => exact fits_round_outside isByte
  | some quote => exact fits_round_inString isByte

/-! ### Runs of the search -/

theorem ends_iff_of_outside (outside : bytes.length ≤ search.offset) {answer : Option Nat} :
    Ends bytes search answer ↔ answer = none := by
  have noByte := List.getElem?_eq_none outside
  constructor
  · intro ends
    cases ends with
    | outside => rfl
    | found isByte => cases noByte.symm.trans isByte
    | onward isByte => cases noByte.symm.trans isByte
  · rintro rfl
    exact .outside outside

/-- What the round at an offset says of the end of the search. -/
theorem ends_iff_of_isByte (isByte : bytes[search.offset]? = some byte) {answer : Option Nat} :
    Ends bytes search answer ↔
      match search.round byte with
      | .onward next => Ends bytes next answer
      | .found => answer = some search.offset
      | .underflow => False := by
  constructor
  · intro ends
    cases ends with
    | outside outside => cases (List.getElem?_eq_none outside).symm.trans isByte
    | found isByteToo isFound =>
      obtain rfl := Option.some.inj (isByteToo.symm.trans isByte)
      rw [isFound]
    | onward isByteToo isOnward later =>
      obtain rfl := Option.some.inj (isByteToo.symm.trans isByte)
      rwa [isOnward]
  · intro told
    split at told
    · next isOnward => exact .onward isByte isOnward told
    · next isFound =>
      rw [told]
      exact .found isByte isFound
    · exact told.elim

/-- A run has one answer. -/
theorem Ends.unique {answer other : Option Nat} (ends : Ends bytes search answer)
    (endsToo : Ends bytes search other) : answer = other := by
  induction ends with
  | outside outside => exact ((ends_iff_of_outside outside).mp endsToo).symm
  | found isByte isFound =>
    rw [ends_iff_of_isByte isByte, isFound] at endsToo
    exact endsToo.symm
  | onward isByte isOnward later ih =>
    rw [ends_iff_of_isByte isByte, isOnward] at endsToo
    exact ih endsToo

/-- **From inside a group the search ends**, with the answer that it is to give. By induction on the number of
bytes ahead. -/
theorem ends_answer? (bytes : List UInt8) (search : GroupSearch) (isOpen : 0 < search.depth) :
    Ends bytes search (search.answer? bytes) := by
  by_cases outside : bytes.length ≤ search.offset
  · have nothing : search.answer? bytes = none := by
      rw [answer?, List.drop_eq_nil_of_le outside, List.map_nil, closingAfter?_nil, Option.map_none]
    rw [nothing]
    exact .outside outside
  · have isByte := List.getElem?_eq_getElem (Nat.not_le.mp outside)
    have fits := fits_round isOpen isByte
    generalize isRound : search.round bytes[search.offset] = taken at fits
    cases fits with
    | @onward next isOpen ahead same =>
      have shorter : bytes.length - next.offset < bytes.length - search.offset := by omega
      rw [← same]
      exact .onward isByte isRound (ends_answer? bytes next isOpen)
    | found answers =>
      rw [answers]
      exact .found isByte isRound
termination_by bytes.length - search.offset
decreasing_by exact shorter

end GroupSearch

/-! ### The search from a parenthesis on -/

/-- **A balanced group**: the bytes from an opening parenthesis up to a closing one, with balanced arguments
between them. -/
def IsGroup (bytes : List UInt8) (opening closing : Nat) : Prop :=
  ∃ before arguments behind,
    bytes = before ++ '('.toUInt8 :: (arguments ++ ')'.toUInt8 :: behind) ∧ Balanced (arguments.map charOf) ∧
      before.length = opening ∧ opening + 1 + arguments.length = closing

/-- The offset of the parenthesis that closes the one at an offset. -/
def closingOffset? (bytes : List UInt8) (opening : Nat) : Option Nat :=
  (groupLength? ((bytes.drop (opening + 1)).map charOf)).map (opening + 1 + ·)

/-- The state in which the search starts, with no group open. -/
def GroupSearch.startAt (opening : Nat) : GroupSearch := ⟨opening, 0, none⟩

section Opening

variable {bytes : List UInt8} {opening count : Nat} {search : GroupSearch}

/-- **What is found** is where a balanced group ends. -/
theorem closingOffset?_eq_some_iff (opens : bytes[opening]? = some '('.toUInt8) {closing : Nat} :
    closingOffset? bytes opening = some closing ↔ IsGroup bytes opening closing := by
  constructor
  · intro found
    obtain ⟨length, isLength, rfl⟩ := Option.map_eq_some_iff.mp found
    obtain ⟨chars, charsBehind, shape, balanced, rfl⟩ := groupLength?_eq_some_iff.mp isLength
    obtain ⟨arguments, rest, split, rfl, isRest⟩ := List.map_eq_append_iff.mp shape
    obtain ⟨byte, behind, rfl, isClosing, -⟩ := List.map_eq_cons_iff.mp isRest
    obtain rfl := (charOf_eq_iff (by decide)).mp isClosing
    refine ⟨bytes.take opening, arguments, behind, ?_, balanced, ?_, by rw [List.length_map]⟩
    · rw [← split, ← GroupSearch.drop_eq_of_isByte opens, List.take_append_drop]
    · have inside := (List.getElem?_eq_some_iff.mp opens).1
      rw [List.length_take, Nat.min_eq_left inside.le]
  · rintro ⟨before, arguments, behind, rfl, balanced, rfl, rfl⟩
    have isClosing : charOf ')'.toUInt8 = ')' := (charOf_eq_iff (by decide)).mpr rfl
    have inside : (before ++ '('.toUInt8 :: (arguments ++ ')'.toUInt8 :: behind)).drop (before.length + 1) =
        arguments ++ ')'.toUInt8 :: behind := by
      rw [List.append_cons, ← List.length_concat, List.concat_eq_append]
      exact List.drop_left
    rw [closingOffset?, inside, List.map_append, List.map_cons, isClosing, groupLength?_of_balanced balanced,
      List.length_map]
    rfl

/-- In a text the closing parenthesis is the one that is found by characters. -/
theorem closingOffset?_toByteArray {text : String} {before behind : List Char}
    (shape : text.toList = before ++ '(' :: behind) :
    closingOffset? text.toByteArray.toList (byteCount before) =
      (groupLength? behind).map fun length => byteCount before + 1 + byteCount (behind.take length) := by
  have inside : (text.toByteArray.toList.drop (byteCount before + 1)).map charOf = behind.flatMap codeChars := by
    have shape : text.toList = (before ++ ['(']) ++ behind := by rw [shape, List.append_cons]
    have parted := (byteChars_append shape).2
    rw [byteCount_append] at parted
    rw [List.map_drop]
    exact parted
  rw [closingOffset?, inside, groupLength?_flatMap_codeChars, Option.map_map]
  rfl

namespace GroupSearch

theorem round_startAt (opening : Nat) :
    (startAt opening).round '('.toUInt8 = .onward ⟨opening + 1, 1, none⟩ := rfl

/-- The search ends with the closing parenthesis. -/
theorem ends_startAt (opens : bytes[opening]? = some '('.toUInt8) :
    Ends bytes (startAt opening) (closingOffset? bytes opening) :=
  .onward opens (round_startAt opening) (ends_answer? bytes ⟨opening + 1, 1, none⟩ Nat.one_pos)

/-- A state that is reached in a number of rounds from an opening parenthesis. -/
structure Advanced (bytes : List UInt8) (opening count : Nat) (search : GroupSearch) : Prop where
  /-- Each round takes a byte at least. -/
  ahead : opening + count ≤ search.offset
  inside : count ≤ bytes.length - opening
  /-- From the first round on a group is open. -/
  isOpen : search = startAt opening ∨ 0 < search.depth

/-- **What each round keeps**, and so all rounds from an opening parenthesis on. -/
theorem Reaches.advanced (opens : bytes[opening]? = some '('.toUInt8)
    (reaches : Reaches bytes (startAt opening) count search) : Advanced bytes opening count search := by
  induction reaches with
  | start => exact ⟨Nat.le_refl _, Nat.zero_le _, .inl rfl⟩
  | @round count search next byte earlier isByte isOnward ih =>
    have behind := ih.ahead
    have left := (List.getElem?_eq_some_iff.mp isByte).1
    rcases ih.isOpen with rfl | isOpen
    · obtain rfl := Option.some.inj (opens.symm.trans isByte)
      obtain rfl := GroupRound.onward.inj ((round_startAt opening).symm.trans isOnward)
      have behind : opening + count ≤ opening := behind
      have left : opening < bytes.length := left
      exact ⟨by show _ ≤ opening + 1; omega, by omega, .inr Nat.one_pos⟩
    · have fits := fits_round isOpen isByte
      rw [isOnward] at fits
      cases fits with
      | onward isOpen ahead same => exact ⟨by omega, by omega, .inr isOpen⟩

/-- **No round counts below zero.** -/
theorem Reaches.round_ne_underflow (opens : bytes[opening]? = some '('.toUInt8)
    (reaches : Reaches bytes (startAt opening) count search) {byte : UInt8}
    (isByte : bytes[search.offset]? = some byte) : search.round byte ≠ .underflow := by
  intro isUnderflow
  rcases (reaches.advanced opens).isOpen with rfl | isOpen
  · obtain rfl := Option.some.inj (opens.symm.trans isByte)
    cases (round_startAt opening).symm.trans isUnderflow
  · have fits := fits_round isOpen isByte
    rw [isUnderflow] at fits
    cases fits

end GroupSearch

end Opening

/-- **The search from an opening parenthesis on is exact.** -/
structure FindsGroup (bytes : List UInt8) (opening : Nat) : Prop where
  /-- The search ends, and in one way. -/
  ends : ∀ answer, GroupSearch.Ends bytes (.startAt opening) answer ↔ answer = closingOffset? bytes opening
  /-- It takes no more rounds than there are bytes from the parenthesis on. -/
  bounded : ∀ count search, GroupSearch.Reaches bytes (.startAt opening) count search →
    count ≤ bytes.length - opening
  /-- The groups that are open are never counted below zero. -/
  counts : ∀ count search byte, GroupSearch.Reaches bytes (.startAt opening) count search →
    bytes[search.offset]? = some byte → search.round byte ≠ .underflow
  /-- It answers an offset exactly when a balanced group ends there, and nothing when there is none. -/
  accepts : ∀ closing, closingOffset? bytes opening = some closing ↔ IsGroup bytes opening closing
  refuses : closingOffset? bytes opening = none ↔ ∀ closing, ¬IsGroup bytes opening closing
  /-- In the bytes of a text it finds what is found by characters. -/
  inTexts : ∀ (text : String) (before behind : List Char), text.toByteArray.toList = bytes →
    text.toList = before ++ '(' :: behind → byteCount before = opening →
    closingOffset? bytes opening =
      (groupLength? behind).map fun length => opening + 1 + byteCount (behind.take length)

/-- **The search accepts exactly the balanced groups**, for all bytes and each opening parenthesis in them. It
ends, and never counts below zero. -/
theorem findsGroup_of_opening (bytes : List UInt8) (opening : Nat)
    (opens : bytes[opening]? = some '('.toUInt8) : FindsGroup bytes opening where
  ends answer := by
    constructor
    · intro ends
      exact ends.unique (GroupSearch.ends_startAt opens)
    · rintro rfl
      exact GroupSearch.ends_startAt opens
  bounded count search reaches := (reaches.advanced opens).inside
  counts count search byte reaches isByte := reaches.round_ne_underflow opens isByte
  accepts closing := closingOffset?_eq_some_iff opens
  refuses := by
    rw [Option.eq_none_iff_forall_ne_some]
    exact forall_congr' fun closing => not_congr (closingOffset?_eq_some_iff opens)
  inTexts := by
    rintro text before behind rfl shape rfl
    exact closingOffset?_toByteArray shape

/-- In `f(a(')'), "\"(")` the group closes at the last parenthesis, although others stand in strings; in
`f('a)` the string does not end, and nothing closes the group. -/
theorem findsGroup_of_opening_quoted :
    IsGroup ("f(a(')'), \"\\\"(\")".toList.map Char.toUInt8) 1 15 ∧
      ∀ closing, ¬IsGroup ("f('a)".toList.map Char.toUInt8) 1 closing :=
  ⟨((findsGroup_of_opening _ 1 (by decide +kernel)).accepts 15).mp (by decide +kernel),
    (findsGroup_of_opening _ 1 (by decide +kernel)).refuses.mp (by decide +kernel)⟩

end Template

end ArtifactIndex
