/-
**Objects of texts.**

A flat object is written as a JSON object whose names and values are texts, none of them empty, without any
escape. Its layout is free: blanks may stand between any two tokens, and a name may come twice.

* `FlatObject.text`: every such text, in every layout;
* `Dict.get?_ofList`: of several entries of a key the last one counts;
* `FlatObject.parse_text`: reading the text gives the object, with the last value of each name.
-/

import ArtifactIndex.Proofs.Json.Members
import ArtifactIndex.Proofs.Text.Slices
import Mathlib.Data.List.TakeWhile

namespace ArtifactIndex

/-! ### Dictionaries -/

namespace Dict

variable {α β : Type}

/-- **Of several entries of a key the last one counts.** -/
theorem get?_ofList (entries : List (String × α)) (key : String) :
    (ofList entries).get? key = entries.reverse.lookup key := by
  suffices ∀ dict : Dict α, (entries.foldl (fun dict entry => dict.insert entry.1 entry.2) dict).get? key =
      (entries.reverse.lookup key).or (dict.get? key) by
    rw [ofList, this, get?_empty, Option.or_none]
  induction entries with
  | nil => exact fun _ => rfl
  | cons entry rest ih =>
    intro dict
    obtain ⟨name, value⟩ := entry
    rw [List.foldl_cons, ih, get?_insert, List.reverse_cons, List.lookup_append, Option.or_assoc]
    congr 1
    split
    · next same => simp [same]
    · next differ => simp [List.lookup_cons, beq_false_of_ne differ]

theorem map_insertEntry (change : α → β) (key : String) (value : α) (entries : List (String × α)) :
    (insertEntry key value entries).map (fun entry => (entry.1, change entry.2)) =
      insertEntry key (change value) (entries.map fun entry => (entry.1, change entry.2)) := by
  fun_induction insertEntry key value entries with
  | case1 => rfl
  | case2 => simp [insertEntry]
  | case3 other old rest differ below => simp [insertEntry, differ, below]
  | case4 other old rest differ above ih => simp [insertEntry, differ, above, ih]

/-- Values may be changed before or behind. -/
theorem map_ofList (change : α → β) (entries : List (String × α)) :
    (ofList entries).map change = ofList (entries.map fun entry => (entry.1, change entry.2)) := by
  suffices ∀ dict : Dict α, (entries.foldl (fun dict entry => dict.insert entry.1 entry.2) dict).map change =
      (entries.map fun entry => (entry.1, change entry.2)).foldl
        (fun dict entry => dict.insert entry.1 entry.2) (dict.map change) from this empty
  induction entries with
  | nil => exact fun _ => rfl
  | cons entry rest ih =>
    intro dict
    rw [List.foldl_cons, ih, List.map_cons, List.foldl_cons]
    congr 1
    exact congrArg Dict.mk (map_insertEntry change entry.1 entry.2 dict.entries)

/-- In a dictionary in order a key stands once, so that it is found from either end. -/
theorem InOrder.lookup_reverse {dict : Dict α} (inOrder : dict.InOrder) (key : String) :
    dict.entries.reverse.lookup key = dict.get? key := by
  unfold get?
  cases found : dict.entries.lookup key with
  | none =>
    rw [List.lookup_eq_none_iff] at found ⊢
    exact fun entry listed => found entry (List.mem_reverse.mp listed)
  | some value =>
    obtain ⟨before, behind, shape, -⟩ := List.lookup_eq_some_iff.mp found
    refine List.lookup_eq_some_iff.mpr ⟨behind.reverse, before.reverse, by simp [shape], ?_⟩
    intro entry listed
    have ordered : (before ++ (key, value) :: behind).Pairwise fun left right => left.1 < right.1 :=
      shape ▸ inOrder
    have later := (List.pairwise_cons.mp (List.pairwise_append.mp ordered).2.1).1 entry
      (List.mem_reverse.mp listed)
    exact bne_iff_ne.mpr later.ne

end Dict

namespace Json

/-! ### Layout -/

/-- Blanks between two tokens. -/
structure Gap where
  chars : List Char
  blank : ∀ c ∈ chars, Cursor.isGap c = true

/-- A text that stands between quotes as it is: without quotes, backslashes and control characters. -/
structure PlainText where
  chars : List Char
  given : chars ≠ []
  plain : ∀ c ∈ chars, c ≠ '"' ∧ c ≠ '\\' ∧ 32 ≤ c.toNat

/-- The text between its quotes. -/
def PlainText.quoted (text : PlainText) : List Char := '"' :: (text.chars ++ ['"'])

/-- A member of an object, with the blanks around its tokens. -/
structure FlatMember where
  ahead : Gap
  name : PlainText
  beforeColon : Gap
  behindColon : Gap
  value : PlainText
  behind : Gap

namespace FlatMember

/-- The member as it is written. -/
def written (member : FlatMember) : List Char :=
  member.ahead.chars ++ member.name.quoted ++ member.beforeColon.chars ++ [':'] ++
    member.behindColon.chars ++ member.value.quoted ++ member.behind.chars

/-- The name and the value. -/
def pair (member : FlatMember) : String × String :=
  (String.ofList member.name.chars, String.ofList member.value.chars)

/-- What is left behind the blanks ahead of a member. -/
def fromName (member : FlatMember) (rest : List Char) : List Char :=
  member.name.quoted ++ (member.beforeColon.chars ++ ':' :: (member.behindColon.chars ++
    (member.value.quoted ++ (member.behind.chars ++ rest))))

theorem written_append (member : FlatMember) (rest : List Char) :
    member.written ++ rest = member.ahead.chars ++ member.fromName rest := by
  simp [written, fromName]

theorem length_written_pos (member : FlatMember) : 0 < member.written.length := by
  simp [written, PlainText.quoted]

end FlatMember

/-- **An object of texts**, with the blanks around its braces and behind the first one. -/
structure FlatObject where
  ahead : Gap
  inside : Gap
  members : List FlatMember
  behind : Gap

namespace FlatObject

/-- The members with commas between them. -/
def writtenMembers : List FlatMember → List Char
  | [] => []
  | first :: others => first.written ++ others.flatMap fun member => ',' :: member.written

/-- The object as it is written. -/
def text (object : FlatObject) : String :=
  String.ofList (object.ahead.chars ++ '{' :: (object.inside.chars ++
    (writtenMembers object.members ++ '}' :: object.behind.chars)))

/-- The names and values, in the order in which they are written. -/
def pairs (object : FlatObject) : List (String × String) := object.members.map FlatMember.pair

/-- The last value of a name. -/
def value? (object : FlatObject) (name : String) : Option String := object.pairs.reverse.lookup name

theorem length_le_writtenMembers (members : List FlatMember) :
    members.length ≤ (writtenMembers members).length := by
  have others : ∀ members : List FlatMember,
      members.length ≤ (members.flatMap fun member => ',' :: member.written).length := by
    intro members
    induction members with
    | nil => exact Nat.le_refl 0
    | cons member rest ih =>
      rw [List.flatMap_cons, List.length_append, List.length_cons, List.length_cons]
      omega
  cases members with
  | nil => exact Nat.zero_le _
  | cons first rest =>
    have := first.length_written_pos
    have := others rest
    rw [writtenMembers, List.length_append, List.length_cons]
    omega

end FlatObject

/-! ### Reading tokens -/

/-- The outcome is the value, with the given characters left. -/
def Outcome.Gives {α : Type} (outcome : Outcome α) (value : α) (left : List Char) : Prop :=
  ∃ index, outcome = .ok (value, ⟨left, index⟩)

section Tokens

variable (index : Nat) {c : Char} (rest : List Char)

theorem Gap.skipGaps_append (gap : Gap) (solid : Cursor.isGap c = false) :
    Cursor.skipGaps ⟨gap.chars ++ c :: rest, index⟩ = ⟨c :: rest, index + gap.chars.length⟩ := by
  have stops : ¬Cursor.isGap c = true := by rw [solid]; exact Bool.false_ne_true
  unfold Cursor.skipGaps
  dsimp only
  rw [List.takeWhile_append_of_pos gap.blank, List.takeWhile_cons_of_neg stops, List.append_nil,
    List.dropWhile_append_of_pos gap.blank, List.dropWhile_cons_of_neg stops]

/-- Characters that stand for themselves are read up to the closing quote. -/
theorem readCharacters_plain {chars : List Char} (plain : ∀ c ∈ chars, c ≠ '"' ∧ c ≠ '\\' ∧ 32 ≤ c.toNat)
    {fuel : Nat} (enough : chars.length < fuel) (read : List Char) :
    (readCharacters fuel read ⟨chars ++ '"' :: rest, index⟩).Gives
      (String.ofList (read.reverse ++ chars)) rest := by
  induction chars generalizing fuel read index with
  | nil =>
    obtain ⟨fuel, rfl⟩ := Nat.exists_eq_add_of_lt enough
    refine ⟨index + '"'.utf8Size, ?_⟩
    simp [readCharacters, Cursor.next]
  | cons c chars ih =>
    obtain ⟨fuel, rfl⟩ := Nat.exists_eq_add_of_lt enough
    obtain ⟨noQuote, noEscape, visible⟩ := plain c List.mem_cons_self
    have less : chars.length < (c :: chars).length + fuel := by rw [List.length_cons]; omega
    have later := ih (index + c.utf8Size) (fun d inside => plain d (List.mem_cons_of_mem c inside)) less
      (c :: read)
    rw [List.reverse_cons, List.append_assoc, List.singleton_append] at later
    have step : readCharacters ((c :: chars).length + fuel + 1) read
        ⟨c :: chars ++ '"' :: rest, index⟩ = readCharacters ((c :: chars).length + fuel) (c :: read)
        ⟨chars ++ '"' :: rest, index + c.utf8Size⟩ := by
      simp [readCharacters, noQuote, noEscape, Nat.not_lt.mpr visible, Cursor.next]
    rwa [step]

/-- **A quoted text is read back.** -/
theorem PlainText.readString_quoted (text : PlainText) :
    (readString ⟨text.quoted ++ rest, index⟩).Gives (String.ofList text.chars) rest := by
  have shape : text.quoted ++ rest = '"' :: (text.chars ++ '"' :: rest) := by simp [quoted]
  rw [shape, readString]
  exact readCharacters_plain _ rest text.plain (by simp; omega) []

theorem Gap.readColon_append (gap : Gap) :
    (readColon ⟨gap.chars ++ ':' :: rest, index⟩).Gives () rest := by
  rw [readColon, gap.skipGaps_append index rest (by decide)]
  exact ⟨_, rfl⟩

theorem Gap.readValue_quoted (gap : Gap) (text : PlainText) (fuel depth : Nat) :
    (readValue (fuel + 1) depth ⟨gap.chars ++ (text.quoted ++ rest), index⟩).Gives
      (.string (String.ofList text.chars)) rest := by
  have shape : text.quoted ++ rest = '"' :: (text.chars ++ '"' :: rest) := by simp [PlainText.quoted]
  obtain ⟨behind, isRead⟩ := text.readString_quoted (index + gap.chars.length) rest
  rw [shape] at isRead ⊢
  refine ⟨behind, ?_⟩
  rw [readValue, gap.skipGaps_append index _ (by decide)]
  simp [readScalar, isRead, Except.map]

end Tokens

/-! ### Reading members -/

section Members

variable {fuel depth index : Nat} {first : Bool} {cursor : Cursor} {rest left : List Char}

/-- Two gaps in a row are one. -/
def Gap.append (ahead behind : Gap) : Gap :=
  ⟨ahead.chars ++ behind.chars, fun c inside =>
    (List.mem_append.mp inside).elim (ahead.blank c) (behind.blank c)⟩

namespace FlatMember

theorem fromName_eq_cons (member : FlatMember) (rest : List Char) :
    ∃ tail, member.fromName rest = '"' :: tail := ⟨_, rfl⟩

/-- The first member stands behind blanks. -/
theorem nextMember_first (gap : Gap) (member : FlatMember) :
    (nextMember true ⟨gap.chars ++ member.fromName rest, index⟩).Gives true (member.fromName rest) := by
  obtain ⟨tail, shape⟩ := member.fromName_eq_cons rest
  rw [nextMember, shape, gap.skipGaps_append index tail (by decide)]
  exact ⟨_, rfl⟩

/-- Each other member stands behind a comma, with blanks on both its sides. -/
theorem nextMember_comma (gap : Gap) (member : FlatMember) :
    (nextMember false ⟨gap.chars ++ ',' :: (member.ahead.chars ++ member.fromName rest), index⟩).Gives true
      (member.fromName rest) := by
  obtain ⟨tail, shape⟩ := member.fromName_eq_cons rest
  rw [nextMember, shape, gap.skipGaps_append index _ (by decide)]
  simp only [Cursor.next, member.ahead.skipGaps_append _ tail (by decide : Cursor.isGap '"' = false)]
  exact ⟨_, rfl⟩

/-- The name and the value as a member of the object that is read. -/
def entry (member : FlatMember) : String × Json := (member.pair.1, .string member.pair.2)

/-- **One member.** Where its name is found, the member is read, and then the others. -/
theorem readMembers_of_nextMember (member : FlatMember) {others : List (String × Json)}
    (found : (nextMember first cursor).Gives true (member.fromName rest))
    (later : ∀ index, (readMembers (fuel + 1) depth false ⟨member.behind.chars ++ rest, index⟩).Gives
      others left) :
    (readMembers (fuel + 2) depth first cursor).Gives (member.entry :: others) left := by
  obtain ⟨ahead, isNext⟩ := found
  obtain ⟨behindName, isName⟩ := member.name.readString_quoted ahead (member.beforeColon.chars ++ ':' ::
    (member.behindColon.chars ++ (member.value.quoted ++ (member.behind.chars ++ rest))))
  obtain ⟨behindColon, isColon⟩ := member.beforeColon.readColon_append behindName
    (member.behindColon.chars ++ (member.value.quoted ++ (member.behind.chars ++ rest)))
  obtain ⟨behindValue, isValue⟩ := member.behindColon.readValue_quoted behindColon
    (member.behind.chars ++ rest) member.value fuel depth
  obtain ⟨stop, isRest⟩ := later behindValue
  refine ⟨stop, ?_⟩
  rw [readMembers]
  simp only [isNext, fromName, isName, isColon, isValue, isRest]
  rfl

end FlatMember

/-- The closing brace ends the members. -/
theorem Gap.readMembers_brace (gap : Gap) :
    (readMembers (fuel + 1) depth first ⟨gap.chars ++ '}' :: rest, index⟩).Gives [] ('}' :: rest) := by
  rw [readMembers, nextMember, gap.skipGaps_append index rest (by decide)]
  exact ⟨_, rfl⟩

/-- **The members behind the first one.** -/
theorem readMembers_others (members : List FlatMember) (gap : Gap) (enough : members.length < fuel) :
    (readMembers fuel depth false ⟨gap.chars ++
      (members.flatMap (fun member => ',' :: member.written) ++ '}' :: rest), index⟩).Gives
      (members.map FlatMember.entry) ('}' :: rest) := by
  induction members generalizing gap fuel index with
  | nil =>
    obtain ⟨fuel, rfl⟩ := Nat.exists_eq_add_of_lt enough
    exact gap.readMembers_brace
  | cons member others ih =>
    obtain ⟨fuel, rfl⟩ : ∃ less, fuel = less + 2 := ⟨fuel - 2, by rw [List.length_cons] at enough; omega⟩
    rw [List.flatMap_cons, List.append_assoc, List.cons_append, member.written_append]
    refine member.readMembers_of_nextMember (member.nextMember_comma gap) fun index => ?_
    exact ih member.behind (by rw [List.length_cons] at enough; omega)

theorem readMembers_writtenMembers (gap : Gap) (members : List FlatMember) (enough : members.length < fuel) :
    (readMembers fuel depth true ⟨gap.chars ++
      (FlatObject.writtenMembers members ++ '}' :: rest), index⟩).Gives
      (members.map FlatMember.entry) ('}' :: rest) := by
  cases members with
  | nil =>
    obtain ⟨fuel, rfl⟩ := Nat.exists_eq_add_of_lt enough
    exact gap.readMembers_brace
  | cons member others =>
    obtain ⟨fuel, rfl⟩ : ∃ less, fuel = less + 2 := ⟨fuel - 2, by rw [List.length_cons] at enough; omega⟩
    rw [FlatObject.writtenMembers, List.append_assoc, member.written_append, ← List.append_assoc]
    refine member.readMembers_of_nextMember (member.nextMember_first (gap.append member.ahead))
      fun index => ?_
    exact readMembers_others others member.behind (by rw [List.length_cons] at enough; omega)

end Members

/-- **A flat object is read back**, with the last value of each name. -/
theorem FlatObject.parse_text (object : FlatObject) :
    parse object.text = .ok (.object (Dict.ofList (object.members.map FlatMember.entry)).entries) := by
  have length := length_le_writtenMembers object.members
  obtain ⟨fuel, fuelled, enough⟩ : ∃ fuel, fuelFor (Cursor.ofText object.text) = fuel + 1 ∧
      object.members.length < fuel := by
    refine ⟨2 * (Cursor.ofText object.text).rest.length + 1, rfl, ?_⟩
    simp only [Cursor.ofText, text, String.toList_ofList, List.length_append, List.length_cons]
    omega
  obtain ⟨stop, isRead⟩ : (readMembers fuel (depthLimit - 1) true ⟨object.inside.chars ++
      (writtenMembers object.members ++ '}' :: object.behind.chars),
      0 + object.ahead.chars.length + '{'.utf8Size⟩).Gives _ _ :=
    readMembers_writtenMembers object.inside object.members enough
  have isEnd : readEnd ⟨object.behind.chars, stop + '}'.utf8Size⟩ = .ok () := by
    have noneLeft : object.behind.chars.dropWhile Cursor.isGap = [] :=
      List.dropWhile_eq_nil_iff.mpr object.behind.blank
    simp [readEnd, Cursor.skipGaps, noneLeft]
  rw [parse, fuelled, readValue]
  simp only [Cursor.ofText, text, String.toList_ofList,
    object.ahead.skipGaps_append 0 _ (by decide : Cursor.isGap '{' = false)]
  simp only [Char.reduceEq, if_false, if_true, Cursor.next, isRead, isEnd,
    show ¬depthLimit ≤ 1 by decide]

end Json

end ArtifactIndex
