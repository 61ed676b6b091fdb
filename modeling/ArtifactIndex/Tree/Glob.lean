/-
**Globs.**

A glob describes paths: `?` stands for one byte and `*` for any number of bytes, neither for a slash;
`**` as a whole part of a path stands for any number of parts; brackets hold a class of bytes, and
braces hold alternatives. A backslash takes the next character as it is.

A glob is read into rows of tokens, one row for each choice of alternatives.

* `Glob.Token.matchRow`: whether a row of tokens describes a path;
* `Glob.parse?`: reads a glob; `none` when braces do not pair, a range runs backwards or a backslash
  ends the glob.
-/

import ArtifactIndex.Text.Basic

namespace ArtifactIndex

namespace Glob

/-- A class of bytes, by ranges whose ends belong to them. -/
structure ByteClass where
  negated : Bool
  ranges : List (UInt8 × UInt8)
deriving Repr, DecidableEq

/-- The byte belongs to the class. -/
def ByteClass.holds (byteClass : ByteClass) (byte : UInt8) : Bool :=
  byteClass.negated != byteClass.ranges.any fun range => range.1 ≤ byte && byte ≤ range.2

/-- A part of a glob. -/
inductive Token where
  /-- One byte, as it is. -/
  | exact (byte : UInt8)
  /-- One byte that is no slash. -/
  | one
  /-- Any number of bytes that are no slashes. -/
  | many
  /-- Any number of parts of a path with their slashes, at its start. -/
  | leading
  /-- A slash and anything behind it. -/
  | trailing
  /-- A slash, or two slashes with anything between them. -/
  | between
  /-- One byte of a class. -/
  | oneOf (byteClass : ByteClass)
deriving Repr, DecidableEq

/-- The byte that divides the parts of a path. -/
def slash : UInt8 := 47

/-- The test holds at the start of the bytes, or behind some of them that all pass. -/
def anyTail (passes : UInt8 → Bool) (test : List UInt8 → Bool) : List UInt8 → Bool
  | [] => test []
  | byte :: rest => test (byte :: rest) || passes byte && anyTail passes test rest

/-- The test holds behind some slash. -/
def anyBehindSlash (test : List UInt8 → Bool) : List UInt8 → Bool
  | [] => false
  | byte :: rest => byte == slash && test rest || anyBehindSlash test rest

/-- The tokens describe the whole of a path. -/
def matchRow : List Token → List UInt8 → Bool
  | [], bytes => bytes.isEmpty
  | .exact wanted :: row, byte :: rest => byte == wanted && matchRow row rest
  | .one :: row, byte :: rest => byte != slash && matchRow row rest
  | .oneOf byteClass :: row, byte :: rest => byteClass.holds byte && matchRow row rest
  | .many :: row, bytes => anyTail (· != slash) (matchRow row) bytes
  | .leading :: row, bytes => matchRow row bytes || anyBehindSlash (matchRow row) bytes
  | .trailing :: row, byte :: rest => byte == slash && anyTail (fun _ => true) (matchRow row) rest
  | .between :: row, byte :: rest =>
    byte == slash && (matchRow row rest || anyBehindSlash (matchRow row) rest)
  | _ :: _, [] => false

/-! ### Characters of a glob -/

/-- A character of a glob with its meaning. -/
inductive Symbol where
  /-- A character that means itself. -/
  | char (c : Char)
  /-- A character behind a backslash. -/
  | escaped (c : Char)
  | question
  | star
  | openBrace
  | closeBrace
  | comma
  | byteClass (held : ByteClass)
deriving Repr, DecidableEq

/-- The written character that a symbol ends with. -/
def Symbol.lastChar : Symbol → Char
  | .char c => c
  | .escaped c => c
  | .question => '?'
  | .star => '*'
  | .openBrace => '{'
  | .closeBrace => '}'
  | .comma => ','
  | .byteClass _ => ']'

/-- The UTF-8 bytes of a character. -/
def bytesOf (c : Char) : List UInt8 := (String.singleton c).toByteArray.toList

/-- The ranges of bytes for a range of characters: the first character's bytes up to its last one,
the range from there to the second character's first byte, and its further bytes. -/
def byteRanges (range : Char × Char) : List (UInt8 × UInt8) :=
  if range.1 == range.2 then (bytesOf range.1).map fun byte => (byte, byte)
  else
    let low := bytesOf range.1
    let high := bytesOf range.2
    low.dropLast.map (fun byte => (byte, byte)) ++ [(low.getLast?.getD 0, high.headD 0)] ++
      high.tail.map fun byte => (byte, byte)

/-- What is known of a class while it is read: its ranges, last one first, and whether a dash waits for
the end of a range. -/
structure OpenClass where
  ranges : List (Char × Char)
  inRange : Bool

/-- The outcome of reading a class. -/
inductive ClassOutcome where
  /-- The class, and what stands behind its bracket. -/
  | closed (ranges : List (Char × Char)) (rest : List Char)
  /-- No bracket closes the class. -/
  | unclosed
  /-- A range runs backwards. -/
  | backwards

/-- Reads a class up to its closing bracket, which is no closing one in the first place. -/
def readClass (first : Bool) (found : OpenClass) : List Char → ClassOutcome
  | [] => .unclosed
  | c :: rest =>
    if c == ']' && !first then
      .closed (if found.inRange then ('-', '-') :: found.ranges else found.ranges).reverse rest
    else if c == '-' && !first && !found.inRange then
      readClass false { found with inRange := true } rest
    else
      match found.inRange, found.ranges with
      | true, (low, _) :: others =>
        if c < low then .backwards else readClass false ⟨(low, c) :: others, false⟩ rest
      | _, ranges => readClass false ⟨(c, c) :: ranges, false⟩ rest

theorem readClass_length {first : Bool} {found : OpenClass} {chars rest : List Char}
    {ranges : List (Char × Char)} (closed : readClass first found chars = .closed ranges rest) :
    rest.length < chars.length := by
  induction chars generalizing first found with
  | nil => cases closed
  | cons c behind ih =>
    rw [readClass] at closed
    split at closed
    · cases closed
      simp
    · split at closed
      · exact Nat.lt_succ_of_lt (ih closed)
      · split at closed
        · split at closed
          · cases closed
          · exact Nat.lt_succ_of_lt (ih closed)
        · exact Nat.lt_succ_of_lt (ih closed)

/-- Whether a class lists what does not belong to it, and what it lists. -/
def classBody (chars : List Char) : Bool × List Char :=
  match chars with
  | '!' :: inner => (true, inner)
  | '^' :: inner => (true, inner)
  | _ => (false, chars)

theorem classBody_length (chars : List Char) : (classBody chars).2.length ≤ chars.length := by
  unfold classBody
  split <;> simp

/-- The symbols of a glob. A bracket that nothing closes means itself. -/
def symbols? (chars : List Char) : Option (List Symbol) :=
  match chars with
  | [] => some []
  | '?' :: rest => (symbols? rest).map (.question :: ·)
  | '*' :: rest => (symbols? rest).map (.star :: ·)
  | '{' :: rest => (symbols? rest).map (.openBrace :: ·)
  | '}' :: rest => (symbols? rest).map (.closeBrace :: ·)
  | ',' :: rest => (symbols? rest).map (.comma :: ·)
  | ['\\'] => none
  | '\\' :: c :: rest => (symbols? rest).map (.escaped c :: ·)
  | '[' :: rest =>
    match _ : readClass true ⟨[], false⟩ (classBody rest).2 with
    | .closed ranges behind =>
      (symbols? behind).map (.byteClass ⟨(classBody rest).1, ranges.flatMap byteRanges⟩ :: ·)
    | .unclosed => (symbols? rest).map (.char '[' :: ·)
    | .backwards => none
  | c :: rest => (symbols? rest).map (.char c :: ·)
termination_by chars.length
decreasing_by
  all_goals simp only [List.length_cons]
  all_goals try omega
  exact Nat.lt_succ_of_lt (Nat.lt_of_lt_of_le (readClass_length ‹_›) (classBody_length rest))

/-! ### Rows -/

/-- A row of tokens. -/
abbrev Row := List Token

/-- An open brace: the rows before it, and the rows of the alternatives that are complete. -/
structure Group where
  before : List Row
  complete : List (List Row)

/-- What has been read of a glob. -/
structure Draft where
  /-- The rows of the innermost open alternative. -/
  rows : List Row
  /-- That alternative has something in it. -/
  started : Bool
  /-- The open braces, innermost first. -/
  groups : List Group
  /-- The last character read. -/
  previous : Option Char

namespace Draft

/-- Nothing read yet. -/
def empty : Draft := ⟨[[]], false, [], none⟩

/-- The draft with tokens at the end of each row. -/
def push (draft : Draft) (tokens : List Token) : Draft :=
  { draft with rows := draft.rows.map (· ++ tokens), started := true }

/-- The draft with another token in place of the last one of each row; tokens that already stand for
any number of parts at an end stay. -/
def replaceLast (draft : Draft) (token : Token) : Draft :=
  { draft with
    rows := draft.rows.map fun row =>
      match row.getLast? with
      | some .leading => row
      | some .trailing => row
      | _ => row.dropLast ++ [token] }

/-- The draft inside a brace that opens here. -/
def openGroup (draft : Draft) : Draft :=
  { draft with rows := [[]], started := false, groups := ⟨draft.rows, []⟩ :: draft.groups }

/-- The draft in the next alternative of the innermost group; outside groups a comma means itself. -/
def nextAlternative (draft : Draft) : Draft :=
  match draft.groups with
  | [] => draft.push [.exact 44]
  | group :: outer =>
    { draft with
      rows := [[]], started := false
      groups := { group with complete := draft.rows :: group.complete } :: outer }

/-- The draft behind a brace that closes the innermost group. Empty alternatives do not count, and a
group without others counts for nothing. -/
def closeGroup? (draft : Draft) : Option Draft :=
  match draft.groups with
  | [] => none
  | group :: outer =>
    let choices := ((draft.rows :: group.complete).reverse.filter (· != [[]])).flatten
    let rows :=
      if choices.isEmpty then group.before
      else group.before.flatMap fun row => choices.map (row ++ ·)
    some { draft with rows, started := true, groups := outer }

/-- Whether two stars stand for whole parts of a path: at the start of an alternative when a slash or
the end follows, else only behind a slash. -/
def doubleStar (draft : Draft) (next : Option Symbol) : Draft × Bool :=
  let plain := draft.push [.many, .many]
  let atEnd :=
    match next with
    | none => true
    | some .comma => !draft.groups.isEmpty
    | some .closeBrace => !draft.groups.isEmpty
    | _ => false
  let beforeSlash := next == some (.char '/')
  if !draft.started then
    if beforeSlash || next.isNone then (draft.push [.leading], beforeSlash) else (plain, false)
  else
    let divided := draft.previous == some '/' ||
      !draft.groups.isEmpty && (draft.previous == some ',' || draft.previous == some '{')
    if !divided then (plain, false)
    else if atEnd then (draft.replaceLast .trailing, false)
    else if beforeSlash then (draft.replaceLast .between, true)
    else (plain, false)

end Draft

/-- The rows that symbols give. -/
def rowsOf? (draft : Draft) (symbols : List Symbol) : Option (List Row) :=
  match symbols with
  | [] => if draft.groups.isEmpty then some draft.rows else none
  | .star :: .star :: rest =>
    let (behind, tookSlash) := draft.doubleStar rest.head?
    if tookSlash then rowsOf? { behind with previous := some '/' } rest.tail
    else rowsOf? { behind with previous := some '*' } rest
  | symbol :: rest =>
    let behind :=
      match symbol with
      | .char c => some (draft.push ((bytesOf c).map .exact))
      | .escaped c => some (draft.push ((bytesOf c).map .exact))
      | .question => some (draft.push [.one])
      | .star => some (draft.push [.many])
      | .openBrace => some draft.openGroup
      | .closeBrace => draft.closeGroup?
      | .comma => some draft.nextAlternative
      | .byteClass held => some (draft.push [.oneOf held])
    match behind with
    | none => none
    | some behind => rowsOf? { behind with previous := some symbol.lastChar } rest
termination_by symbols.length
decreasing_by
  · simp only [List.length_tail, List.length_cons]
    omega
  · simp only [List.length_cons]
    omega
  · simp

end Glob

/-- A glob: rows of tokens, one of which has to describe a path. -/
structure Glob where
  rows : List Glob.Row
deriving Repr, DecidableEq

namespace Glob

/-- The rows of a glob; two stars alone describe every path. -/
def completed (rows : List Row) : List Row :=
  if rows = [[.leading]] then [[.leading, .many]] else rows

/-- Reads a glob. -/
def parse? (text : String) : Option Glob :=
  ((symbols? text.toList).bind (rowsOf? Draft.empty)).map fun rows => ⟨completed rows⟩

/-- The glob describes the path. -/
def describes (glob : Glob) (path : String) : Bool :=
  glob.rows.any fun row => matchRow row path.toByteArray.toList

end Glob

end ArtifactIndex
