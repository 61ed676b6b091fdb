/-
**Sites of strictly read translations.**

A flat file that is read as JSON gives its members without their places, so that the place of a name is looked
for in the text: it is the first one at which the name stands in quotes before a colon. A member's own name is
such a place, and so may be another object's name before it.

* `KeyAt`, `keySpan?_of_keyAt`: the search finds the first such place;
* `Json.PlacedMember.keyAt_of_writtenIn`: a name without escapes stands at such a place in its own range;
* `filter_scanLanguageFile_strict`: what a strict scan records for the name of a member;
* `declaration_of_member`: the declaration is the range of the member's name exactly when no such place comes
  before it.
-/

import ArtifactIndex.Proofs.Json.FlatObjects
import ArtifactIndex.Proofs.Json.Placed
import ArtifactIndex.Proofs.Translation.Positions
import ArtifactIndex.Proofs.Translation.Readings
import ArtifactIndex.Proofs.Usage.Programs

namespace ArtifactIndex

open Json (inQuotes byteCount_inQuotes)

/-! ### The search for a key -/

/-- The text starts with the key in quotes, and behind blanks follows a colon. -/
def StartsWithKey (key chars : List Char) : Prop :=
  ∃ gap behind, chars = inQuotes key ++ (gap ++ ':' :: behind) ∧ ∀ c ∈ gap, isBlank c = true

/-- **The key stands at the offset** in quotes, and behind blanks follows a colon. -/
def KeyAt (text key : String) (offset : Nat) : Prop :=
  ∃ before rest, text.toList = before ++ rest ∧ offset = byteCount before ∧ StartsWithKey key.toList rest

/-- The first offset at which the key stands. -/
structure FirstKeyAt (text key : String) (offset : Nat) : Prop where
  here : KeyAt text key offset
  noEarlier : ∀ earlier < offset, ¬KeyAt text key earlier

theorem behindMark?_isSome_iff {mark : Char} (solid : isBlank mark = false) {chars : List Char} :
    (FlatEntry.behindMark? mark chars).isSome = true ↔
      ∃ gap behind, chars = gap ++ mark :: behind ∧ ∀ c ∈ gap, isBlank c = true := by
  constructor
  · intro found
    unfold FlatEntry.behindMark? at found
    split at found
    · next c rest shape =>
      split at found
      · next isMark =>
        refine ⟨chars.takeWhile isBlank, rest, ?_, fun c inside => List.mem_takeWhile_imp inside⟩
        rw [← isMark, ← shape, List.takeWhile_append_dropWhile]
      · cases found
    · cases found
  · rintro ⟨gap, behind, rfl, blank⟩
    have stops : ¬isBlank mark = true := by rw [solid]; exact Bool.false_ne_true
    unfold FlatEntry.behindMark?
    rw [List.dropWhile_append_of_pos blank, List.dropWhile_cons_of_neg stops]
    simp

/-- What the search asks at each place. -/
theorem startsWithKey_iff {key chars : List Char} : StartsWithKey key chars ↔
    ((inQuotes key).isPrefixOf chars &&
      (FlatEntry.behindMark? ':' (chars.drop (inQuotes key).length)).isSome) = true := by
  rw [Bool.and_eq_true, List.isPrefixOf_iff_prefix, behindMark?_isSome_iff (by decide)]
  constructor
  · rintro ⟨gap, behind, rfl, blank⟩
    exact ⟨List.prefix_append _ _, gap, behind, by rw [List.drop_left], blank⟩
  · rintro ⟨⟨rest, rfl⟩, gap, behind, shape, blank⟩
    rw [List.drop_left] at shape
    exact ⟨gap, behind, by rw [shape], blank⟩

/-- **What the search finds** is a place of the key, and no other one comes before it. -/
theorem keyOffset?_eq_some {key chars : List Char} {offset found : Nat}
    (isFound : keyOffset? key offset chars = some found) :
    ∃ before rest, chars = before ++ rest ∧ found = offset + byteCount before ∧ StartsWithKey key rest ∧
      ∀ left right, chars = left ++ right → byteCount left < byteCount before →
        ¬StartsWithKey key right := by
  fun_induction keyOffset? key offset chars with
  | case1 => cases isFound
  | case2 offset c rest quoted hit =>
    cases isFound
    exact ⟨[], c :: rest, rfl, rfl, startsWithKey_iff.mpr hit, fun _ _ _ fewer => absurd fewer (Nat.not_lt_zero _)⟩
  | case3 offset c rest quoted miss ih =>
    obtain ⟨before, behind, rfl, rfl, starts, noEarlier⟩ := ih isFound
    refine ⟨c :: before, behind, rfl, Nat.add_assoc .., starts, fun left right split fewer => ?_⟩
    cases left with
    | nil =>
      rw [← show c :: (before ++ behind) = right from split]
      exact fun here => miss (startsWithKey_iff.mp here)
    | cons d left =>
      obtain ⟨rfl, splitToo⟩ := List.cons.inj split
      rw [byteCount_cons, byteCount_cons] at fewer
      exact noEarlier left right splitToo (by omega)

theorem keyOffset?_ne_none {key before rest : List Char} (starts : StartsWithKey key rest) (offset : Nat) :
    keyOffset? key offset (before ++ rest) ≠ none := by
  induction before generalizing offset with
  | nil =>
    obtain ⟨gap, behind, shape, -⟩ := id starts
    obtain ⟨c, more, rfl⟩ : ∃ c more, rest = c :: more := ⟨_, _, shape⟩
    rw [List.nil_append, keyOffset?]
    split
    · nofun
    · next miss => exact absurd (startsWithKey_iff.mp starts) miss
  | cons c before ih =>
    rw [List.cons_append, keyOffset?]
    split
    · nofun
    · exact ih _

/-- **The search for a key** finds the first place of it. -/
theorem keySpan?_of_keyAt {text key : String} {offset : Nat} (stands : KeyAt text key offset) :
    ∃ first, FirstKeyAt text key first ∧ keySpan? text key = some ⟨first, first + byteLength key + 2⟩ := by
  obtain ⟨before, rest, shape, -, starts⟩ := stands
  have isAny : keyOffset? key.toList 0 (before ++ rest) ≠ none := keyOffset?_ne_none starts 0
  obtain ⟨found, isFound⟩ := Option.ne_none_iff_exists'.mp isAny
  rw [← shape] at isFound
  obtain ⟨ahead, behind, split, isOffset, startsHere, noEarlier⟩ := keyOffset?_eq_some isFound
  rw [Nat.zero_add] at isOffset
  refine ⟨found, ⟨⟨ahead, behind, split, isOffset, startsHere⟩, ?_⟩, by rw [keySpan?, isFound]; rfl⟩
  rintro earlier fewer ⟨left, right, splitToo, rfl, startsThere⟩
  exact noEarlier left right splitToo (isOffset ▸ fewer) startsThere

/-! ### Members in their ranges -/

namespace Json.PlacedMember

variable {text : String} {member : PlacedMember}

/-- **A name without escapes** stands in its range in quotes, and a colon behind it. -/
theorem keyAt_of_writtenIn (writtenIn : member.WrittenIn text)
    (unescaped : '\\' ∉ (textOf text member.span).toList) :
    slice? text member.span.start member.span.stop = some (String.ofList (inQuotes member.name.toList)) ∧
      member.span.stop = member.span.start + byteLength member.name + 2 ∧
      KeyAt text member.name member.span.start := by
  obtain ⟨before, written, gap, behind, shape, isSpan, isGap, plain⟩ := writtenIn
  have slice := slice?_middle shape
  rw [isSpan, textOf, slice, Option.getD_some, String.toList_ofList] at unescaped
  obtain rfl := plain fun inside => unescaped (List.mem_append_left _ (List.mem_cons_of_mem _ inside))
  rw [isSpan]
  refine ⟨slice, ?_, before, _, ?_, rfl, gap, behind, rfl, fun c inside => ?_⟩
  · rw [byteLength_eq, byteCount_inQuotes, Nat.add_assoc]
  · rw [shape, List.append_assoc]
  · exact FlatEntry.isBlank_of_isGap (isGap c inside)

/-- **A name that no other member has** is looked up to the value of its member. -/
theorem get?_of_once {members : List PlacedMember} (listed : member ∈ members)
    (once : (members.map (·.name)).count member.name = 1) :
    (Dict.ofList (members.map entry)).get? member.name = some member.value := by
  obtain ⟨ahead, behind, rfl⟩ := List.append_of_mem listed
  rw [List.map_append, List.map_cons, List.count_append, List.count_cons_self] at once
  have notBehind : member.name ∉ behind.map (·.name) := List.count_eq_zero.mp (by omega)
  rw [Dict.get?_ofList]
  refine List.lookup_eq_some_iff.mpr ⟨(behind.map entry).reverse, (ahead.map entry).reverse, ?_, ?_⟩
  · rw [List.map_append, List.map_cons, List.reverse_append, List.reverse_cons, List.append_assoc,
      List.singleton_append]
    rfl
  · intro other isOther
    obtain ⟨placed, isPlaced, rfl⟩ := List.mem_map.mp (List.mem_reverse.mp isOther)
    exact bne_iff_ne.mpr fun same => notBehind (List.mem_map.mpr ⟨placed, isPlaced, same.symm⟩)

end Json.PlacedMember

/-! ### Strict scans -/

section Strict

variable {tree : Tree} {file : LanguageFile} {text : String} {entries : List (String × Json)}

/-- The record of a member, when it is a text. -/
def strictRecord? (file : LanguageFile) (text : String) (entry : String × Json) : Option TranslationRecord :=
  match entry.2 with
  | .string value =>
    some
      { key := entry.1, locale := file.locale, file := file.path, value
        declaration :=
          ((keySpan? text entry.1).map (Origin.ofText file.path text).site).getD (Site.ofFile file.path) }
  | _ => none

theorem key_of_strictRecord? {entry : String × Json} {record : TranslationRecord}
    (isRecord : strictRecord? file text entry = some record) : record.key = entry.1 := by
  unfold strictRecord? at isRecord
  split at isRecord
  · cases isRecord
    rfl
  · cases isRecord

/-- **A strict scan of a file** records the members of its object that are texts. -/
theorem scanLanguageFile_strict (isFlat : file.format = .flat) (isRead : tree.read file.path = .ok text)
    (parsed : Json.parse text = .ok (.object entries)) :
    (scanLanguageFile tree true file).1 = entries.filterMap (strictRecord? file text) := by
  rw [scanLanguageFile_eq, isRead, isFlat]
  dsimp only
  rw [flatTranslations?, FlatEntry.read?, if_pos rfl, FlatEntry.ofObject?, parsed]
  dsimp only
  rw [Option.map_some, Option.getD_some, List.map_filterMap]
  congr 1
  funext entry
  obtain ⟨name, value⟩ := entry
  cases value <;> rfl

/-- **What a strict scan records** under a name of the object whose value is a text. -/
theorem filter_scanLanguageFile_strict (isFlat : file.format = .flat) (isRead : tree.read file.path = .ok text)
    (parsed : Json.parse text = .ok (.object entries)) {name value : String}
    (held : entries.lookup name = some (.string value)) :
    (scanLanguageFile tree true file).1.filter (·.key == name) =
      (strictRecord? file text (name, .string value)).toList := by
  have none : ∀ others : List (String × Json), (∀ entry ∈ others, entry.1 ≠ name) →
      (others.filterMap (strictRecord? file text)).filter (·.key == name) = [] := by
    intro others differ
    rw [List.filter_eq_nil_iff]
    intro record listed same
    obtain ⟨entry, isEntry, isRecord⟩ := List.mem_filterMap.mp listed
    exact differ entry isEntry ((key_of_strictRecord? isRecord).symm.trans (eq_of_beq same))
  obtain ⟨ahead, behind, shape, differAhead⟩ := List.lookup_eq_some_iff.mp held
  have ascending := Json.pairwise_of_parse parsed
  rw [shape] at ascending
  have above := (List.pairwise_cons.mp (List.pairwise_append.mp ascending).2.1).1
  rw [scanLanguageFile_strict isFlat isRead parsed, shape, List.filterMap_append, List.filter_append,
    none ahead fun entry isAhead => (bne_iff_ne.mp (differAhead entry isAhead)).symm, List.nil_append,
    List.filterMap_cons]
  have isRecord : strictRecord? file text (name, .string value) = some _ := rfl
  rw [isRecord]
  dsimp only
  rw [List.filter_cons, if_pos (beq_self_eq_true name), none behind fun entry isBehind => (above entry isBehind).ne']
  rfl

/-- **Where a strictly read translation is declared.** A flat file is a JSON object. Each of its members has a
range in the text, from the quote before its name to the one behind it. Where the value is a text, the name is
written without escapes and no other member of the object has it, the scan records just one translation of the
name, with this value, and it is declared at the first place of the text at which the name stands in quotes
before a colon. So it is declared in the member's range exactly when no such place comes before that. -/
theorem declaration_of_member (isFlat : file.format = .flat) (isRead : tree.read file.path = .ok text)
    (parsed : Json.parse text = .ok (.object entries)) :
    ∃ members, Json.placedMembers? text = some members ∧
      entries = (Dict.ofList (members.map Json.PlacedMember.entry)).entries ∧
      ∀ member ∈ members, ∀ value, member.value = .string value →
        '\\' ∉ (textOf text member.span).toList → (members.map (·.name)).count member.name = 1 →
        slice? text member.span.start member.span.stop = some (String.ofList (inQuotes member.name.toList)) ∧
        ∃ record, (scanLanguageFile tree true file).1.filter (·.key == member.name) = [record] ∧
          record.value = value ∧
          (∃ first, FirstKeyAt text member.name first ∧ first ≤ member.span.start ∧
            record.declaration =
              (Origin.ofText file.path text).site ⟨first, first + byteLength member.name + 2⟩) ∧
          (record.declaration = (Origin.ofText file.path text).site member.span ↔
            ∀ earlier < member.span.start, ¬KeyAt text member.name earlier) := by
  obtain ⟨members, placed, isObject, writtenIn⟩ := Json.placedMembers?_of_parse parsed
  refine ⟨members, placed, isObject, fun member listed value isText unescaped once => ?_⟩
  obtain ⟨slice, isStop, stands⟩ := Json.PlacedMember.keyAt_of_writtenIn (writtenIn member listed) unescaped
  obtain ⟨first, isFirst, isSpan⟩ := keySpan?_of_keyAt stands
  have notBehind : first ≤ member.span.start := by
    by_contra behind
    exact isFirst.noEarlier _ (Nat.not_le.mp behind) stands
  have held : entries.lookup member.name = some (.string value) := by
    rw [isObject, ← isText]
    exact Json.PlacedMember.get?_of_once listed once
  refine ⟨slice, _, filter_scanLanguageFile_strict isFlat isRead parsed held, rfl,
    ⟨first, isFirst, notBehind, by rw [isSpan]; rfl⟩, ?_⟩
  rw [isSpan]
  show (Origin.ofText file.path text).site ⟨first, first + byteLength member.name + 2⟩ = _ ↔ _
  constructor
  · intro same
    have sameSpan := Origin.span_eq_of_site_eq same
    rw [← sameSpan]
    exact isFirst.noEarlier
  · intro noEarlier
    have isStart : first = member.span.start := by
      by_contra differs
      exact noEarlier first (by omega) isFirst.here
    congr 1
    rw [isStart, ← isStop]

/-- The value is the given text. -/
def Json.isText (text : String) : Json → Bool
  | .string value => value == text
  | _ => false

theorem Json.eq_of_isText {text : String} {value : Json} (isText : value.isText text = true) :
    value = .string text := by
  cases value with
  | string value => rw [eq_of_beq isText]
  | _ => cases isText

/-- A member behind an object with another name in it. -/
theorem declaration_of_member_behind :
    let file : LanguageFile := ⟨"lang/en.json", "en", .flat⟩
    let text := "\x7b\"a\":\x7b\"b\":\"x\"\x7d,\"k\":\"y\"\x7d"
    let tree := (MemoryFiles.mk ⟨[(file.path, text)]⟩).toTree
    ∃ record, (scanLanguageFile tree true file).1.filter (·.key == "k") = [record] ∧ record.value = "y" ∧
      record.declaration = (Origin.ofText file.path text).site ⟨15, 18⟩ ∧
      ∀ earlier < 15, ¬KeyAt text "k" earlier := by
  intro file text tree
  have isRead : tree.read file.path = .ok text := by decide +kernel
  have hasName : ((Json.parse text).toOption.bind (·.member? "k")).isSome = true := by decide +kernel
  obtain ⟨entries, parsed⟩ : ∃ entries, Json.parse text = .ok (.object entries) := by
    cases parsed : Json.parse text with
    | error fault =>
      rw [parsed] at hasName
      cases hasName
    | ok value =>
      rw [parsed] at hasName
      cases value with
      | object entries => exact ⟨entries, rfl⟩
      | _ => cases hasName
  have arePlaced : (Json.placedMembers? text).any (fun members => members.map (·.name) == ["a", "k"] &&
      members.any fun member => member.name == "k" && member.span == ⟨15, 18⟩ &&
        member.value.isText "y") = true := by
    decide +kernel
  have recorded : ((scanLanguageFile tree true file).1.filter (·.key == "k")).map (·.declaration) =
      [(Origin.ofText file.path text).site ⟨15, 18⟩] := by decide +kernel
  obtain ⟨members, placed, -, declared⟩ := declaration_of_member rfl isRead parsed
  rw [placed] at arePlaced
  simp only [Option.any_some, Bool.and_eq_true, List.any_eq_true, beq_iff_eq] at arePlaced
  obtain ⟨names, member, listed, ⟨isName, isSpan⟩, isText⟩ := arePlaced
  have unescaped : '\\' ∉ (textOf text ⟨15, 18⟩).toList := by decide +kernel
  obtain ⟨-, record, isRecord, holds, -, inRange⟩ := declared member listed "y" (Json.eq_of_isText isText)
    (by rw [isSpan]; exact unescaped) (by rw [names, isName]; decide)
  rw [isName] at isRecord inRange
  rw [isRecord, List.map_singleton, List.singleton_inj] at recorded
  rw [isSpan] at inRange
  exact ⟨record, isRecord, holds, recorded, inRange.mp recorded⟩

/-- **A name that an inner object has, too**: the translation of the outer one is declared at the inner one. -/
theorem declared_at_inner_member :
    let file : LanguageFile := ⟨"lang/en.json", "en", .flat⟩
    let text := "\x7b\"a\":\x7b\"k\":\"x\"\x7d,\"k\":\"y\"\x7d"
    let tree := (MemoryFiles.mk ⟨[(file.path, text)]⟩).toTree
    (Json.placedMembers? text).map (·.map fun member => (member.name, member.span)) =
        some [("a", ⟨1, 4⟩), ("k", ⟨15, 18⟩)] ∧
      (scanLanguageFile tree true file).1.map (fun record => (record.key, record.value, record.declaration)) =
        [("k", "y", (Origin.ofText file.path text).site ⟨6, 9⟩)] := by
  decide +kernel

end Strict

end ArtifactIndex
