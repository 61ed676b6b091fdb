/-
**Where the members of an object stand.**

Each reader of JSON text goes forward: what it takes are the next characters, and it counts their bytes. So the
members of an object can be read together with the ranges of their names, and these are ranges of the text.

* `Cursor.Reaches`: a place in a text, and one behind it;
* `reaches_of_readValue`: the readers go forward;
* `readPlaced`, `map_entry_readPlaced`: the members of an object with the ranges of their names;
* `writtenIn_of_readPlaced`: in its range a name stands in quotes, and a colon behind it;
* `placedMembers?_of_parse`: the members of the object that a whole text is.
-/

import ArtifactIndex.Proofs.Json.Members
import ArtifactIndex.Proofs.Text.ByteChars
import Mathlib.Data.List.TakeWhile

namespace ArtifactIndex

namespace Json

/-! ### Going forward -/

/-- **The second place is reached from the first** over the next characters. -/
def Cursor.Reaches (cursor behind : Cursor) : Prop :=
  ∃ taken, cursor.rest = taken ++ behind.rest ∧ behind.index = cursor.index + byteCount taken

namespace Cursor

variable {cursor between behind : Cursor}

theorem Reaches.refl (cursor : Cursor) : cursor.Reaches cursor := ⟨[], rfl, rfl⟩

theorem Reaches.trans (first : cursor.Reaches between) (second : between.Reaches behind) :
    cursor.Reaches behind := by
  obtain ⟨left, isLeft, leftIndex⟩ := first
  obtain ⟨right, isRight, rightIndex⟩ := second
  refine ⟨left ++ right, by rw [isLeft, isRight, List.append_assoc], ?_⟩
  rw [rightIndex, leftIndex, byteCount_append, Nat.add_assoc]

theorem reaches_next (cursor : Cursor) : cursor.Reaches cursor.next := by
  unfold next
  split
  · exact .refl cursor
  · next c rest shape => exact ⟨[c], shape, rfl⟩

/-- Over ASCII characters the index grows by their number. -/
theorem reaches_dropWhile {test : Char → Bool} (isAscii : IsAsciiTest test) (cursor : Cursor) :
    cursor.Reaches ⟨cursor.rest.dropWhile test, cursor.index + (cursor.rest.takeWhile test).length⟩ :=
  ⟨cursor.rest.takeWhile test, List.takeWhile_append_dropWhile.symm,
    congrArg (cursor.index + ·) (isAscii.takeWhile_flatMap cursor.rest).2.symm⟩

theorem isAsciiTest_isGap : IsAsciiTest Cursor.isGap := by
  have blank : IsAsciiTest (· == ' ') := .beq (by decide)
  have line : IsAsciiTest (· == '\n') := .beq (by decide)
  have tab : IsAsciiTest (· == '\t') := .beq (by decide)
  have turn : IsAsciiTest (· == '\r') := .beq (by decide)
  exact ((blank.or line).or tab).or turn

theorem reaches_skipGaps (cursor : Cursor) : cursor.Reaches cursor.skipGaps :=
  reaches_dropWhile isAsciiTest_isGap cursor

end Cursor

section Readers

variable {cursor behind : Cursor}

/-! ### Words and strings -/

theorem reaches_of_expectWord {word : List Char}
    (isRead : expectWord word cursor = .ok ((), behind)) : cursor.Reaches behind := by
  induction word generalizing cursor with
  | nil =>
    cases isRead
    exact .refl _
  | cons c word ih =>
    rw [expectWord] at isRead
    split at isRead
    · cases isRead
    · split at isRead
      · exact cursor.reaches_next.trans (ih isRead)
      · cases isRead

theorem hexDigit?_of_high {c : Char} (high : 128 ≤ c.toNat) : hexDigit? c = none := by
  have noDecimal : c.isDigit = false := IsAsciiTest.isDigit c high
  have noSmall : ¬c ≤ 'f' := IsAsciiTest.not_le_of_high high (by decide)
  have noLarge : ¬c ≤ 'F' := IsAsciiTest.not_le_of_high high (by decide)
  simp [hexDigit?, noDecimal, noSmall, noLarge]

/-- Hexadecimal digits are bytes. -/
theorem byteCount_of_hexDigits {chars : List Char} {digits : List Nat}
    (isHex : chars.mapM hexDigit? = some digits) : byteCount chars = chars.length := by
  induction chars generalizing digits with
  | nil => rfl
  | cons c chars ih =>
    rw [List.mapM_cons] at isHex
    obtain ⟨digit, isDigit, more⟩ := Option.bind_eq_some_iff.mp isHex
    obtain ⟨others, areDigits, -⟩ := Option.bind_eq_some_iff.mp more
    have ascii : c.toNat < 128 := by
      by_contra high
      rw [hexDigit?_of_high (Nat.not_lt.mp high)] at isDigit
      cases isDigit
    rw [byteCount_cons, utf8Size_of_ascii ascii, ih areDigits, List.length_cons, Nat.add_comm]

theorem reaches_of_readHex {code : Nat} (isRead : readHex cursor = .ok (code, behind)) :
    cursor.Reaches behind := by
  unfold readHex at isRead
  dsimp only at isRead
  split at isRead
  · cases isRead
  · next enough =>
    split at isRead
    · next digits isHex =>
      cases isRead
      have counted := byteCount_of_hexDigits isHex
      have atMost := List.length_take_le 4 cursor.rest
      exact ⟨cursor.rest.take 4, (List.take_append_drop 4 cursor.rest).symm,
        congrArg (cursor.index + ·) (by omega)⟩
    · cases isRead

theorem reaches_of_readUnicode {found : Char} (isRead : readUnicode cursor = .ok (found, behind)) :
    cursor.Reaches behind := by
  unfold readUnicode at isRead
  cases first : readHex cursor with
  | error fault =>
    rw [first] at isRead
    cases isRead
  | ok read =>
    obtain ⟨code, between⟩ := read
    rw [first] at isRead
    have toFirst := reaches_of_readHex first
    simp only [bind, Except.bind] at isRead
    split at isRead
    · cases isRead
    · split at isRead
      · cases isRead
        exact toFirst
      · split at isRead
        · cases isRead
        · cases second : readHex between.next.next with
          | error fault =>
            rw [second] at isRead
            cases isRead
          | ok read =>
            obtain ⟨low, last⟩ := read
            rw [second] at isRead
            dsimp only at isRead
            split at isRead
            · obtain ⟨-, rfl⟩ := Prod.mk.inj (Except.ok.inj isRead)
              exact (toFirst.trans between.reaches_next).trans
                (between.next.reaches_next.trans (reaches_of_readHex second))
            · cases isRead
        · cases isRead
        · cases isRead
        · cases isRead

/-- The text in quotes. -/
def inQuotes (chars : List Char) : List Char := '"' :: chars ++ ['"']

theorem byteCount_inQuotes (chars : List Char) : byteCount (inQuotes chars) = byteCount chars + 2 := by
  rw [inQuotes, byteCount_append, byteCount_cons, byteCount_cons, byteCount_nil]
  show 1 + byteCount chars + (1 + 0) = byteCount chars + 2
  omega

/-- **What is taken of a string**: the characters up to its closing quote. Without a backslash among them they
are what is read. -/
theorem taken_of_readCharacters {fuel : Nat} {read : List Char} {text : String}
    (isRead : readCharacters fuel read cursor = .ok (text, behind)) :
    ∃ taken, cursor.rest = taken ++ '"' :: behind.rest ∧
      behind.index = cursor.index + byteCount taken + 1 ∧
      ('\\' ∉ taken → text = String.ofList (read.reverse ++ taken)) := by
  induction fuel generalizing read cursor with
  | zero => cases isRead
  | succ fuel ih =>
    rw [readCharacters] at isRead
    split at isRead
    · cases isRead
    · next c rest shape =>
      have behindFirst : cursor.next = ⟨rest, cursor.index + c.utf8Size⟩ := by rw [Cursor.next, shape]
      split at isRead
      · next isQuote =>
        cases isRead
        rw [isQuote] at shape behindFirst
        rw [behindFirst]
        exact ⟨[], shape, rfl, fun _ => by rw [List.append_nil]⟩
      · split at isRead
        · next isBackslash =>
          -- Whatever is escaped, there is a backslash among what is taken.
          have escaped : ∀ {later : Cursor} {more : List Char}, cursor.next.Reaches later →
              readCharacters fuel more later = .ok (text, behind) →
              ∃ taken, cursor.rest = taken ++ '"' :: behind.rest ∧
                behind.index = cursor.index + byteCount taken + 1 ∧
                ('\\' ∉ taken → text = String.ofList (read.reverse ++ taken)) := by
            intro later more reached isRead
            obtain ⟨taken, left, index, -⟩ := ih isRead
            obtain ⟨between, isBetween, isLater⟩ := reached
            rw [behindFirst] at isBetween isLater
            dsimp only at isBetween isLater
            refine ⟨c :: (between ++ taken), ?_, ?_, fun outside => absurd ?_ outside⟩
            · rw [shape, isBetween, left, List.cons_append, List.append_assoc]
            · rw [index, isLater, byteCount_cons, byteCount_append]
              omega
            · rw [isBackslash]
              exact List.mem_cons_self
          split at isRead
          · cases isRead
          · dsimp only at isRead
            split at isRead
            · split at isRead
              · next isFound =>
                exact escaped (cursor.next.reaches_next.trans (reaches_of_readUnicode isFound)) isRead
              · cases isRead
            · split at isRead
              · exact escaped cursor.next.reaches_next isRead
              · cases isRead
        · split at isRead
          · cases isRead
          · obtain ⟨taken, left, index, plain⟩ := ih isRead
            rw [behindFirst] at left index
            dsimp only at left index
            refine ⟨c :: taken, ?_, ?_, fun outside => ?_⟩
            · rw [shape, left, List.cons_append]
            · rw [index, byteCount_cons]
              omega
            · rw [plain fun inside => outside (List.mem_cons_of_mem c inside), List.reverse_cons,
                List.append_assoc, List.singleton_append]

/-- **A string** is what stands between its quotes, when there is no backslash among it. -/
theorem taken_of_readString {text : String} {rest : List Char} (shape : cursor.rest = '"' :: rest)
    (isRead : readString cursor = .ok (text, behind)) :
    ∃ taken, cursor.rest = '"' :: taken ++ '"' :: behind.rest ∧
      behind.index = cursor.index + byteCount taken + 2 ∧ ('\\' ∉ taken → text = String.ofList taken) := by
  have behindQuote : cursor.next = ⟨rest, cursor.index + 1⟩ := by rw [Cursor.next, shape]; rfl
  obtain ⟨taken, left, index, plain⟩ := taken_of_readCharacters isRead
  rw [behindQuote] at left index
  dsimp only at left index
  exact ⟨taken, by rw [shape, left, List.cons_append], by omega, plain⟩

theorem reaches_of_readString {text : String} {rest : List Char} (shape : cursor.rest = '"' :: rest)
    (isRead : readString cursor = .ok (text, behind)) : cursor.Reaches behind := by
  obtain ⟨taken, left, index, -⟩ := taken_of_readString shape isRead
  refine ⟨inQuotes taken, ?_, ?_⟩
  · rw [left, inQuotes, List.append_assoc, List.singleton_append]
  · rw [index, byteCount_inQuotes, Nat.add_assoc]

/-! ### Numbers -/

section Numbers

variable {negative : Bool} {significand : Nat} {exponent : Int} {value : Json}

theorem reaches_takeDigits (cursor : Cursor) : cursor.Reaches (takeDigits cursor).2 :=
  Cursor.reaches_dropWhile .isDigit cursor

theorem reaches_of_decimalAt
    (isRead : decimalAt negative significand exponent cursor = .ok (value, behind)) :
    cursor.Reaches behind := by
  unfold decimalAt at isRead
  split at isRead
  · cases isRead
    exact .refl _
  · cases isRead

theorem reaches_of_readExponent
    (isRead : readExponent negative significand exponent cursor = .ok (value, behind)) :
    cursor.Reaches behind := by
  unfold readExponent at isRead
  dsimp only at isRead
  split at isRead
  · cases isRead
  · split at isRead
    · -- An optional sign stands before the digits.
      refine .trans ?_ ((reaches_takeDigits _).trans (reaches_of_decimalAt isRead))
      split
      · exact cursor.reaches_next
      · exact cursor.reaches_next
      · exact .refl cursor
    · cases isRead

theorem reaches_of_readScale
    (isRead : readScale negative significand exponent cursor = .ok (value, behind)) :
    cursor.Reaches behind := by
  unfold readScale at isRead
  split at isRead
  · exact cursor.reaches_next.trans (reaches_of_readExponent isRead)
  · exact cursor.reaches_next.trans (reaches_of_readExponent isRead)
  · exact reaches_of_decimalAt isRead

theorem reaches_of_readFraction
    (isRead : readFraction negative significand exponent cursor = .ok (value, behind)) :
    cursor.Reaches behind := by
  unfold readFraction at isRead
  dsimp only at isRead
  split at isRead
  · cases isRead
  · exact (reaches_takeDigits cursor).trans (reaches_of_readScale isRead)

theorem reaches_of_readNumberTail {left : Nat}
    (isRead : readNumberTail negative significand left cursor = .ok (value, behind)) :
    cursor.Reaches behind := by
  unfold readNumberTail at isRead
  split at isRead
  · exact cursor.reaches_next.trans (reaches_of_readFraction isRead)
  · exact cursor.reaches_next.trans (reaches_of_readExponent isRead)
  · exact cursor.reaches_next.trans (reaches_of_readExponent isRead)
  · split at isRead
    · exact reaches_of_decimalAt isRead
    · split at isRead
      · split at isRead
        · exact reaches_of_decimalAt isRead
        · cases isRead
          exact .refl _
      · cases isRead
        exact .refl _

theorem reaches_of_readNumber (isRead : readNumber negative cursor = .ok (value, behind)) :
    cursor.Reaches behind := by
  unfold readNumber at isRead
  split at isRead
  · cases isRead
  · split at isRead
    · split at isRead
      · split at isRead
        · cases isRead
        · exact cursor.reaches_next.trans (reaches_of_readNumberTail isRead)
      · exact cursor.reaches_next.trans (reaches_of_readNumberTail isRead)
    · split at isRead
      · exact (reaches_takeDigits cursor).trans (reaches_of_readNumberTail isRead)
      · cases isRead

end Numbers

/-! ### Values -/

theorem reaches_of_readScalar {value : Json} (isRead : readScalar cursor = .ok (value, behind)) :
    cursor.Reaches behind := by
  have word : ∀ {given : List Char} {meant : Json},
      (expectWord given cursor.next).map (fun found => (meant, found.2)) = .ok (value, behind) →
      cursor.Reaches behind := by
    intro given meant isMapped
    obtain ⟨⟨⟨⟩, later⟩, isWord, ⟨⟩⟩ := exists_of_map_eq_ok isMapped
    exact cursor.reaches_next.trans (reaches_of_expectWord isWord)
  unfold readScalar at isRead
  split at isRead
  · cases isRead
  · next c rest shape =>
    split at isRead
    · exact word isRead
    · split at isRead
      · exact word isRead
      · split at isRead
        · exact word isRead
        · split at isRead
          · exact cursor.reaches_next.trans (reaches_of_readNumber isRead)
          · split at isRead
            · exact reaches_of_readNumber isRead
            · split at isRead
              · next isQuote =>
                obtain ⟨⟨text, later⟩, isString, ⟨⟩⟩ := exists_of_map_eq_ok isRead
                exact reaches_of_readString (isQuote ▸ shape) isString
              · cases isRead

theorem reaches_of_nextElement {first found : Bool}
    (isRead : nextElement first cursor = .ok (found, behind)) : cursor.Reaches behind := by
  unfold nextElement at isRead
  dsimp only at isRead
  split at isRead
  · cases isRead
  · split at isRead
    · cases isRead
      exact cursor.reaches_skipGaps
    · split at isRead
      · cases isRead
        exact cursor.reaches_skipGaps
      · split at isRead
        · split at isRead
          · cases isRead
          · split at isRead
            · cases isRead
            · cases isRead
              exact cursor.reaches_skipGaps.trans
                (cursor.skipGaps.reaches_next.trans cursor.skipGaps.next.reaches_skipGaps)
        · cases isRead

/-- The search for a member ends at the quote of its name, or at the closing brace. -/
theorem reaches_of_nextMember {first found : Bool}
    (isRead : nextMember first cursor = .ok (found, behind)) :
    cursor.Reaches behind ∧ (found = true → ∃ rest, behind.rest = '"' :: rest) := by
  unfold nextMember at isRead
  dsimp only at isRead
  split at isRead
  · cases isRead
  · next c rest shape =>
    split at isRead
    · cases isRead
      exact ⟨cursor.reaches_skipGaps, fun isFound => absurd isFound Bool.false_ne_true⟩
    · split at isRead
      · split at isRead
        · next isQuote =>
          cases isRead
          exact ⟨cursor.reaches_skipGaps, fun _ => ⟨rest, isQuote ▸ shape⟩⟩
        · cases isRead
      · split at isRead
        · split at isRead
          · cases isRead
          · next following more shape =>
            split at isRead
            · next isQuote =>
              cases isRead
              exact ⟨cursor.reaches_skipGaps.trans
                (cursor.skipGaps.reaches_next.trans cursor.skipGaps.next.reaches_skipGaps),
                fun _ => ⟨more, isQuote ▸ shape⟩⟩
            · split at isRead
              · cases isRead
              · cases isRead
        · cases isRead

/-- A colon may stand behind blanks. -/
theorem taken_of_readColon (isRead : readColon cursor = .ok ((), behind)) :
    ∃ gap, (∀ c ∈ gap, Cursor.isGap c = true) ∧ cursor.rest = gap ++ ':' :: behind.rest := by
  unfold readColon at isRead
  dsimp only at isRead
  split at isRead
  · cases isRead
  · next c rest shape =>
    split at isRead
    · next isColon =>
      cases isRead
      refine ⟨cursor.rest.takeWhile Cursor.isGap, fun c inside => List.mem_takeWhile_imp inside, ?_⟩
      rw [Cursor.next, shape]
      dsimp only
      rw [← isColon, ← shape]
      exact List.takeWhile_append_dropWhile.symm
    · cases isRead

theorem reaches_of_readColon (isRead : readColon cursor = .ok ((), behind)) : cursor.Reaches behind := by
  unfold readColon at isRead
  dsimp only at isRead
  split at isRead
  · cases isRead
  · split at isRead
    · cases isRead
      exact cursor.reaches_skipGaps.trans cursor.skipGaps.reaches_next
    · cases isRead

/-- **The readers go forward.** By induction on the fuel, over the three readers that call one another. -/
theorem reaches_of_read (fuel : Nat) :
    (∀ {depth : Nat} {cursor behind : Cursor} {value : Json},
      readValue fuel depth cursor = .ok (value, behind) → cursor.Reaches behind) ∧
    (∀ {depth : Nat} {first : Bool} {cursor behind : Cursor} {elements : List Json},
      readElements fuel depth first cursor = .ok (elements, behind) → cursor.Reaches behind) ∧
    (∀ {depth : Nat} {first : Bool} {cursor behind : Cursor} {members : List (String × Json)},
      readMembers fuel depth first cursor = .ok (members, behind) → cursor.Reaches behind) := by
  induction fuel with
  | zero => exact ⟨nofun, nofun, nofun⟩
  | succ fuel ih =>
    obtain ⟨ofValue, ofElements, ofMembers⟩ := ih
    refine ⟨?_, ?_, ?_⟩
    · intro depth cursor behind value isRead
      rw [readValue] at isRead
      refine cursor.reaches_skipGaps.trans ?_
      split at isRead
      · cases isRead
      · split at isRead
        · split at isRead
          · cases isRead
          · split at isRead
            · next isList =>
              cases isRead
              exact (Cursor.reaches_next _).trans ((ofElements isList).trans (Cursor.reaches_next _))
            · cases isRead
        · split at isRead
          · split at isRead
            · cases isRead
            · split at isRead
              · next isObject =>
                cases isRead
                exact (Cursor.reaches_next _).trans ((ofMembers isObject).trans (Cursor.reaches_next _))
              · cases isRead
          · exact reaches_of_readScalar isRead
    · intro depth first cursor behind elements isRead
      rw [readElements] at isRead
      split at isRead
      · cases isRead
      · next isLast =>
        cases isRead
        exact reaches_of_nextElement isLast
      · next isNext =>
        split at isRead
        · cases isRead
        · next isValue =>
          split at isRead
          · cases isRead
          · next areRest =>
            cases isRead
            exact (reaches_of_nextElement isNext).trans ((ofValue isValue).trans (ofElements areRest))
    · intro depth first cursor behind members isRead
      rw [readMembers] at isRead
      split at isRead
      · cases isRead
      · next isLast =>
        cases isRead
        exact (reaches_of_nextMember isLast).1
      · next isNext =>
        obtain ⟨toName, isName⟩ := reaches_of_nextMember isNext
        obtain ⟨rest, shape⟩ := isName rfl
        split at isRead
        · cases isRead
        · next isString =>
          split at isRead
          · cases isRead
          · next isColon =>
            split at isRead
            · cases isRead
            · next isValue =>
              split at isRead
              · cases isRead
              · next areRest =>
                cases isRead
                exact toName.trans ((reaches_of_readString shape isString).trans
                  ((reaches_of_readColon isColon).trans ((ofValue isValue).trans (ofMembers areRest))))

theorem reaches_of_readValue {fuel depth : Nat} {value : Json}
    (isRead : readValue fuel depth cursor = .ok (value, behind)) : cursor.Reaches behind :=
  (reaches_of_read fuel).1 isRead

end Readers

/-! ### Placed members -/

/-- A member of an object, with the range of its name in quotes. -/
structure PlacedMember where
  name : String
  span : Span
  value : Json

/-- The member without its place. -/
def PlacedMember.entry (member : PlacedMember) : String × Json := (member.name, member.value)

/-- The members of an object up to its closing brace, with the ranges of their names. -/
def readPlaced : Nat → Nat → Bool → Cursor → Outcome (List PlacedMember)
  | 0, _, _, cursor => .error (cursor.fault .endInObject)
  | fuel + 1, depth, first, cursor =>
    match nextMember first cursor with
    | .error fault => .error fault
    | .ok (false, cursor) => .ok ([], cursor)
    | .ok (true, atName) =>
      match readString atName with
      | .error fault => .error fault
      | .ok (name, behindName) =>
        match readColon behindName with
        | .error fault => .error fault
        | .ok (_, cursor) =>
          match readValue fuel depth cursor with
          | .error fault => .error fault
          | .ok (value, cursor) =>
            match readPlaced fuel depth false cursor with
            | .error fault => .error fault
            | .ok (rest, cursor) =>
              .ok ({ name, span := ⟨atName.index, behindName.index⟩, value } :: rest, cursor)

/-- **The placed members are the members.** -/
theorem map_entry_readPlaced (fuel depth : Nat) (first : Bool) (cursor : Cursor) :
    (readPlaced fuel depth first cursor).map (fun read => (read.1.map PlacedMember.entry, read.2)) =
      readMembers fuel depth first cursor := by
  induction fuel generalizing first cursor with
  | zero => rfl
  | succ fuel ih =>
    rw [readPlaced, readMembers]
    cases nextMember first cursor with
    | error fault => rfl
    | ok found =>
      obtain ⟨isNext, atName⟩ := found
      cases isNext with
      | false => rfl
      | true =>
        dsimp only
        cases readString atName with
        | error fault => rfl
        | ok read =>
          obtain ⟨name, behindName⟩ := read
          dsimp only
          cases readColon behindName with
          | error fault => rfl
          | ok read =>
            obtain ⟨_, atValue⟩ := read
            dsimp only
            cases readValue fuel depth atValue with
            | error fault => rfl
            | ok read =>
              obtain ⟨value, behindValue⟩ := read
              dsimp only
              rw [← ih false behindValue]
              cases readPlaced fuel depth false behindValue <;> rfl

/-- The name of the member stands in its range in quotes, and a colon behind it. Without a backslash between
the quotes it stands there as it is. -/
def PlacedMember.WrittenIn (text : String) (member : PlacedMember) : Prop :=
  ∃ before written gap behind, text.toList = before ++ inQuotes written ++ (gap ++ ':' :: behind) ∧
    member.span = ⟨byteCount before, byteCount before + byteCount (inQuotes written)⟩ ∧
    (∀ c ∈ gap, Cursor.isGap c = true) ∧ ('\\' ∉ written → written = member.name.toList)

/-- **Where the names of members stand.** -/
theorem writtenIn_of_readPlaced {text : String} {fuel depth : Nat} {first : Bool} {cursor behind : Cursor}
    {members : List PlacedMember} (reached : (Cursor.ofText text).Reaches cursor)
    (isRead : readPlaced fuel depth first cursor = .ok (members, behind)) :
    ∀ member ∈ members, member.WrittenIn text := by
  induction fuel generalizing first cursor members with
  | zero => cases isRead
  | succ fuel ih =>
    rw [readPlaced] at isRead
    split at isRead
    · cases isRead
    · cases isRead
      nofun
    · next atName isNext =>
      obtain ⟨toName, isName⟩ := reaches_of_nextMember isNext
      obtain ⟨rest, shape⟩ := isName rfl
      split at isRead
      · cases isRead
      · next name behindName isString =>
        split at isRead
        · cases isRead
        · next atValue isColon =>
          split at isRead
          · cases isRead
          · next isValue =>
            split at isRead
            · cases isRead
            · next areRest =>
              cases isRead
              have atMember := reached.trans toName
              have toRest := (reaches_of_readString shape isString).trans
                ((reaches_of_readColon isColon).trans (reaches_of_readValue isValue))
              intro member listed
              rcases List.mem_cons.mp listed with rfl | later
              · obtain ⟨before, isBefore, index⟩ := atMember
                obtain ⟨written, left, stop, plain⟩ := taken_of_readString shape isString
                obtain ⟨gap, isGap, behindGap⟩ := taken_of_readColon isColon
                refine ⟨before, written, gap, atValue.rest, ?_, ?_, isGap, fun outside => ?_⟩
                · have whole : text.toList = before ++ atName.rest := isBefore
                  rw [whole, left, behindGap]
                  simp only [inQuotes, List.append_assoc, List.cons_append, List.nil_append]
                · have start : atName.index = byteCount before := by
                    rw [index]
                    exact Nat.zero_add _
                  rw [Span.mk.injEq, byteCount_inQuotes]
                  omega
                · rw [plain outside, String.toList_ofList]
              · exact ih (atMember.trans toRest) areRest member later

/-! ### Whole texts -/

/-- The members of the object that a text is, with the ranges of their names. -/
def placedMembers? (text : String) : Option (List PlacedMember) :=
  let opening := (Cursor.ofText text).skipGaps
  match readPlaced (fuelFor (Cursor.ofText text) - 1) (depthLimit - 1) true opening.next with
  | .ok (members, _) => some members
  | .error _ => none

/-- **The members of a text that is an object**: the object has for each name the last value, and in the text
each name stands in its range. -/
theorem placedMembers?_of_parse {text : String} {entries : List (String × Json)}
    (isRead : parse text = .ok (.object entries)) :
    ∃ members, placedMembers? text = some members ∧
      entries = (Dict.ofList (members.map PlacedMember.entry)).entries ∧
      ∀ member ∈ members, member.WrittenIn text := by
  obtain ⟨read, inner, areMembers, rfl⟩ := exists_readMembers_of_parse isRead
  rw [← map_entry_readPlaced] at areMembers
  obtain ⟨⟨members, behind⟩, arePlaced, same⟩ := exists_of_map_eq_ok areMembers
  obtain ⟨rfl, -⟩ := Prod.mk.inj same
  have reached : (Cursor.ofText text).Reaches (Cursor.ofText text).skipGaps.next :=
    (Cursor.reaches_skipGaps _).trans (Cursor.reaches_next _)
  refine ⟨members, ?_, rfl, writtenIn_of_readPlaced reached arePlaced⟩
  simp only [placedMembers?, arePlaced]

end Json

end ArtifactIndex
