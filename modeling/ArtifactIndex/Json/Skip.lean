/-
**Passing over JSON values.**

A member whose name has no meaning is passed over: its value has to be well-formed in outline, and
nothing is kept of it. Numbers of any size and any depth of nesting are passed over.

* `Json.skipValue`: the place behind a value.
-/

import ArtifactIndex.Json.Reader

namespace ArtifactIndex

namespace Json

/-- The rest of a string behind its opening quote. One unit of fuel is spent for each character or
escape. -/
def skipCharacters : Nat → Cursor → Except Fault Cursor
  | 0, cursor => .error (cursor.fault .endInString)
  | fuel + 1, cursor =>
    match cursor.rest with
    | [] => .error (cursor.fault .endInString)
    | c :: _ =>
      if c = '"' then .ok cursor.next
      else if c = '\\' then
        match cursor.next.rest with
        | [] => .error (cursor.next.fault .endInString)
        | mark :: _ =>
          let inside := cursor.next.next
          if mark = 'u' then
            match readHex inside with
            | .ok (_, behind) => skipCharacters fuel behind
            | .error fault => .error fault
          else if (plainEscape? mark).isSome then skipCharacters fuel inside
          else .error (cursor.next.peekFault .badEscape)
      else if c.toNat < 32 then .error (cursor.fault .controlCharacter)
      else skipCharacters fuel cursor.next

/-- A string, from its opening quote on. -/
def skipString (cursor : Cursor) : Except Fault Cursor :=
  skipCharacters (cursor.rest.length + 1) cursor.next

/-- The exponent of a number, from its letter on. -/
def skipExponent (cursor : Cursor) : Except Fault Cursor :=
  let behind := cursor.next
  let behind :=
    match behind.rest with
    | '+' :: _ => behind.next
    | '-' :: _ => behind.next
    | _ => behind
  match behind.rest with
  | [] => .error (behind.fault .badNumber)
  | c :: _ => if c.isDigit then .ok (takeDigits behind).2 else .error (behind.peekFault .badNumber)

/-- What follows the digits of a number. -/
def skipScale (cursor : Cursor) : Except Fault Cursor :=
  match cursor.rest with
  | 'e' :: _ => skipExponent cursor
  | 'E' :: _ => skipExponent cursor
  | _ => .ok cursor

/-- A number without its sign. -/
def skipNumber (cursor : Cursor) : Except Fault Cursor :=
  match cursor.rest with
  | [] => .error (cursor.fault .badNumber)
  | c :: rest =>
    if !c.isDigit then .error (cursor.peekFault .badNumber)
    else if c = '0' ∧ (rest.head?.any Char.isDigit) then .error (cursor.next.peekFault .badNumber)
    else
      let behind := if c = '0' then cursor.next else (takeDigits cursor).2
      match behind.rest with
      | '.' :: _ =>
        let (digits, behind) := takeDigits behind.next
        if digits.isEmpty then .error (behind.peekFault .badNumber) else skipScale behind
      | _ => skipScale behind

mutual

/-- One value with the blanks before it. -/
def skipValue : Nat → Cursor → Except Fault Cursor
  | 0, cursor => .error (cursor.fault .endInValue)
  | fuel + 1, cursor =>
    let cursor := cursor.skipGaps
    match cursor.rest with
    | [] => .error (cursor.peekFault .endInValue)
    | c :: _ =>
      if c = 'n' then (expectWord ['u', 'l', 'l'] cursor.next).map Prod.snd
      else if c = 't' then (expectWord ['r', 'u', 'e'] cursor.next).map Prod.snd
      else if c = 'f' then (expectWord ['a', 'l', 's', 'e'] cursor.next).map Prod.snd
      else if c = '-' then skipNumber cursor.next
      else if c.isDigit then skipNumber cursor
      else if c = '"' then skipString cursor
      else if c = '[' then skipElements fuel true cursor.next
      else if c = '{' then skipMembers fuel true cursor.next
      else .error (cursor.peekFault .valueExpected)

/-- The elements of an array and its closing bracket. -/
def skipElements : Nat → Bool → Cursor → Except Fault Cursor
  | 0, _, cursor => .error (cursor.fault .endInList)
  | fuel + 1, first, cursor =>
    let cursor := cursor.skipGaps
    match cursor.rest with
    | [] => .error (cursor.peekFault .endInList)
    | c :: _ =>
      if c = ']' then .ok cursor.next
      else if !first && c != ',' then .error (cursor.peekFault .listCommaExpected)
      else
        match skipValue fuel (if first then cursor else cursor.next) with
        | .error fault => .error fault
        | .ok cursor => skipElements fuel false cursor

/-- The members of an object and its closing brace. -/
def skipMembers : Nat → Bool → Cursor → Except Fault Cursor
  | 0, _, cursor => .error (cursor.fault .endInObject)
  | fuel + 1, first, cursor =>
    let cursor := cursor.skipGaps
    match cursor.rest with
    | [] => .error (cursor.peekFault .endInObject)
    | c :: _ =>
      if c = '}' then .ok cursor.next
      else if !first && c != ',' then .error (cursor.peekFault .objectCommaExpected)
      else
        let cursor := (if first then cursor else cursor.next).skipGaps
        match cursor.rest with
        | [] => .error (cursor.peekFault .endInObject)
        | mark :: _ =>
          if mark != '"' then .error (cursor.peekFault .keyNotString)
          else
            match skipString cursor with
            | .error fault => .error fault
            | .ok cursor =>
              match readColon cursor with
              | .error fault => .error fault
              | .ok (_, cursor) =>
                match skipValue fuel cursor with
                | .error fault => .error fault
                | .ok cursor => skipMembers fuel false cursor

end

end Json

end ArtifactIndex
