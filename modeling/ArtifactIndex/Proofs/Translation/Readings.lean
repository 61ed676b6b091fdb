/-
**Two readings of a flat file.**

A file of flat translations is read as JSON, or by its look, as pairs of quoted texts with a colon between
them. On a flat object without escapes both readings find the same translations: a pair is looked for from
left to right, so that the first quote that is met opens a name, and behind each pair the next one does.

* `FlatEntry.pairs_ofPairs`: by its look, the file has the members of the object;
* `FlatEntry.pairs_ofObject?`: as JSON, it has the last member of each name;
* `flatReadings_agree`: both give each key the same text and locale, in a file and in a whole project.
-/

import ArtifactIndex.Proofs.Json.FlatObjects
import ArtifactIndex.Proofs.Text.Cuts
import ArtifactIndex.Translation.Scan
import ArtifactIndex.Tree.Memory

namespace ArtifactIndex

open Json (Gap PlainText FlatMember FlatObject)

/-! ### By their look -/

namespace FlatEntry

/-- The key and the text. -/
def pair (entry : FlatEntry) : String × String := (entry.key, entry.value)

theorem quotedRun?_append (text : PlainText) (rest : List Char) :
    quotedRun? (text.chars ++ '"' :: rest) = some (text.chars, rest) := by
  have free : '"' ∉ text.chars := fun inside => (text.plain '"' inside).1 rfl
  obtain ⟨run, behind⟩ := cut_append free rest
  obtain ⟨c, others, shape⟩ := List.exists_cons_of_ne_nil text.given
  unfold quotedRun?
  rw [run, behind, shape]

/-- The blanks of JSON are blank. -/
theorem isBlank_of_isGap {c : Char} (isGap : Json.Cursor.isGap c = true) : isBlank c = true := by
  simp only [Json.Cursor.isGap, Bool.or_eq_true, beq_iff_eq] at isGap
  rcases isGap with ((rfl | rfl) | rfl) | rfl <;> decide

theorem behindMark?_append {mark : Char} (solid : isBlank mark = false) (gap : Gap) (rest : List Char) :
    behindMark? mark (gap.chars ++ mark :: rest) = some rest := by
  have stops : ¬isBlank mark = true := by rw [solid]; exact Bool.false_ne_true
  unfold behindMark?
  rw [List.dropWhile_append_of_pos fun c inside => isBlank_of_isGap (gap.blank c inside),
    List.dropWhile_cons_of_neg stops]
  exact if_pos rfl

/-- **A member is a pair**, from its first quote on. -/
theorem pairAt?_member (member : FlatMember) (rest : List Char) :
    pairAt? (member.fromName rest) =
      some (member.name.chars, member.value.chars, member.behind.chars ++ rest) := by
  have shape : member.fromName rest = '"' :: (member.name.chars ++ '"' :: (member.beforeColon.chars ++
      ':' :: (member.behindColon.chars ++ '"' :: (member.value.chars ++ '"' ::
        (member.behind.chars ++ rest))))) := by
    simp [FlatMember.fromName, PlainText.quoted]
  rw [shape, pairAt?]
  simp only [quotedRun?_append, behindMark?_append (by decide : isBlank ':' = false),
    behindMark?_append (by decide : isBlank '"' = false), Option.bind_some, Option.map_some]

/-- Characters without a quote are passed over. -/
theorem pairsFrom_append {ahead : List Char} (free : '"' ∉ ahead) (offset : Nat) (chars : List Char) :
    pairsFrom offset (ahead ++ chars) = pairsFrom (offset + byteCount ahead) chars := by
  induction ahead generalizing offset with
  | nil => rfl
  | cons c ahead ih =>
    rw [List.mem_cons, not_or] at free
    have noPair : pairAt? (c :: (ahead ++ chars)) = none := by
      unfold pairAt?
      split
      · next same =>
        cases same
        exact absurd rfl free.1
      · rfl
    rw [List.cons_append, pairsFrom]
    simp only [noPair]
    rw [ih free.2, byteCount_cons, Nat.add_assoc]

theorem quote_not_mem_gap (gap : Gap) : '"' ∉ gap.chars :=
  fun inside => absurd (gap.blank '"' inside) (by decide)

/-- What a pair takes is left out. -/
theorem drop_taken {taken : List Char} (given : taken ≠ []) (rest : List Char) :
    (taken ++ rest).drop (max 1 ((taken ++ rest).length - rest.length)) = rest := by
  have length : max 1 ((taken ++ rest).length - rest.length) = taken.length := by
    have := List.length_pos_of_ne_nil given
    rw [List.length_append]
    omega
  rw [length, List.drop_left]

/-- **One pair.** Behind the blanks ahead of it a member is found, and then what follows it. -/
theorem pairs_member (member : FlatMember) (offset : Nat) (rest : List Char) :
    ∃ behind, (pairsFrom offset (member.written ++ rest)).map pair =
      member.pair :: (pairsFrom behind rest).map pair := by
  rw [member.written_append, pairsFrom_append (quote_not_mem_gap _)]
  obtain ⟨tail, shape⟩ := member.fromName_eq_cons rest
  have found := pairAt?_member member rest
  have dropped : (member.fromName rest).drop
      (max 1 ((member.fromName rest).length - (member.behind.chars ++ rest).length)) =
        member.behind.chars ++ rest := by
    have split : member.fromName rest = (member.name.quoted ++ member.beforeColon.chars ++ [':'] ++
        member.behindColon.chars ++ member.value.quoted) ++ (member.behind.chars ++ rest) := by
      simp [FlatMember.fromName]
    rw [split]
    exact drop_taken (by simp) _
  rw [shape] at found dropped ⊢
  rw [pairsFrom]
  simp only [found, List.map_cons, dropped]
  rw [pairsFrom_append (quote_not_mem_gap _)]
  exact ⟨_, rfl⟩

/-- The members behind the first one. -/
theorem pairs_others (members : List FlatMember) (offset : Nat) {rest : List Char} (free : '"' ∉ rest) :
    (pairsFrom offset ((members.flatMap fun member => ',' :: member.written) ++ rest)).map pair =
      members.map FlatMember.pair := by
  induction members generalizing offset with
  | nil =>
    rw [List.flatMap_nil, List.nil_append, ← List.append_nil rest, pairsFrom_append free, pairsFrom]
    rfl
  | cons member others ih =>
    have comma : '"' ∉ [','] := by decide
    rw [List.flatMap_cons, List.cons_append, List.cons_append, List.append_assoc, ← List.singleton_append,
      pairsFrom_append comma]
    obtain ⟨behind, found⟩ := pairs_member member (offset + byteCount [','])
      ((others.flatMap fun member => ',' :: member.written) ++ rest)
    rw [found, ih, List.map_cons]

theorem pairs_writtenMembers (members : List FlatMember) (offset : Nat) {rest : List Char}
    (free : '"' ∉ rest) :
    (pairsFrom offset (FlatObject.writtenMembers members ++ rest)).map pair =
      members.map FlatMember.pair := by
  cases members with
  | nil => exact pairs_others [] offset free
  | cons first others =>
    obtain ⟨behind, found⟩ := pairs_member first offset
      ((others.flatMap fun member => ',' :: member.written) ++ rest)
    rw [FlatObject.writtenMembers, List.append_assoc, found, pairs_others others behind free,
      List.map_cons]

/-- **By its look**, a flat object has the pairs that it is written with. -/
theorem pairs_ofPairs (object : FlatObject) : (ofPairs object.text).map pair = object.pairs := by
  have opening : '"' ∉ object.ahead.chars ++ ['{'] ++ object.inside.chars := by
    rw [List.mem_append, List.mem_append, not_or, not_or]
    exact ⟨⟨quote_not_mem_gap _, by decide⟩, quote_not_mem_gap _⟩
  have closing : '"' ∉ '}' :: object.behind.chars := by
    rw [List.mem_cons, not_or]
    exact ⟨by decide, quote_not_mem_gap _⟩
  have shape : object.text.toList = object.ahead.chars ++ ['{'] ++ object.inside.chars ++
      (FlatObject.writtenMembers object.members ++ '}' :: object.behind.chars) := by
    simp [FlatObject.text]
  rw [ofPairs, shape, pairsFrom_append opening]
  exact pairs_writtenMembers object.members _ closing

/-! ### As JSON -/

/-- **As JSON**, a flat object has the last pair of each name. -/
theorem pairs_ofObject? (object : FlatObject) :
    ∃ entries, ofObject? object.text = some entries ∧
      entries.map pair = (Dict.ofList object.pairs).entries := by
  have members : (Dict.ofList (object.members.map FlatMember.entry)).entries =
      (Dict.ofList object.pairs).entries.map fun entry => (entry.1, Json.string entry.2) := by
    have listed : object.members.map FlatMember.entry =
        object.pairs.map fun entry => (entry.1, Json.string entry.2) := by
      simp [FlatObject.pairs, FlatMember.entry]
    rw [listed, ← Dict.map_ofList Json.string]
    rfl
  refine ⟨_, by rw [ofObject?, object.parse_text], ?_⟩
  rw [members, List.filterMap_map, List.map_filterMap]
  exact (congrFun List.filterMap_eq_map _).trans (List.map_id _)

/-- **Both readings know the same texts**: of each key the last one that is written. -/
theorem lookup_read? (object : FlatObject) (strict : Bool) :
    ∃ entries, read? strict object.text = some entries ∧
      ∀ key, (entries.map pair).reverse.lookup key = object.value? key := by
  cases strict with
  | false => exact ⟨ofPairs object.text, rfl, fun key => by rw [pairs_ofPairs]; rfl⟩
  | true =>
    obtain ⟨entries, isRead, pairs⟩ := pairs_ofObject? object
    refine ⟨entries, isRead, fun key => ?_⟩
    rw [pairs, (Dict.inOrder_ofList object.pairs).lookup_reverse, Dict.get?_ofList]
    rfl

end FlatEntry

/-! ### Tables -/

namespace TranslationTable

/-- The text of a key and its locale. -/
def text? (table : TranslationTable) (key : String) : Option (String × String) :=
  (table.get? key).map fun record => (record.value, record.locale)

/-- Later records go before earlier ones. -/
theorem text?_append (left right : List TranslationRecord) (key : String) :
    text? ⟨left ++ right⟩ key = (text? ⟨right⟩ key).or (text? ⟨left⟩ key) := by
  simp only [text?, get?, List.reverse_append, List.find?_append, Option.map_or]

/-- The text of a key among records that are made of pairs. -/
theorem text?_map {entries : List FlatEntry} {record : FlatEntry → TranslationRecord} {locale : String}
    (made : ∀ entry, (record entry).key = entry.key ∧ (record entry).value = entry.value ∧
      (record entry).locale = locale) (key : String) :
    text? ⟨entries.map record⟩ key = ((entries.map FlatEntry.pair).reverse.lookup key).map (·, locale) := by
  unfold text? get?
  rw [← List.map_reverse, ← List.map_reverse]
  induction entries.reverse with
  | nil => rfl
  | cons entry rest ih =>
    obtain ⟨isKey, isValue, isLocale⟩ := made entry
    rw [List.map_cons, List.map_cons, List.find?_cons, List.lookup_cons, FlatEntry.pair, isKey,
      Bool.beq_comm]
    cases key == entry.key with
    | true => simp [isValue, isLocale]
    | false => exact ih

end TranslationTable

/-! ### Files and projects -/

section Projects

variable {tree : Tree} {file : LanguageFile}

/-- **A flat object has its translations**, in either way of reading: each key has its last text, in the
locale of the file. -/
theorem text?_flatTranslations? (strict : Bool) (file : LanguageFile) (object : FlatObject) :
    ∃ records, flatTranslations? strict file object.text = some records ∧
      ∀ key, TranslationTable.text? ⟨records⟩ key = (object.value? key).map (·, file.locale) := by
  obtain ⟨entries, isRead, values⟩ := FlatEntry.lookup_read? object strict
  refine ⟨_, by rw [flatTranslations?, isRead, Option.map_some], fun key => ?_⟩
  rw [← values key]
  refine TranslationTable.text?_map ?_ key
  exact fun _ => ⟨rfl, rfl, rfl⟩

/-- A file that holds a flat object is scanned without an error. -/
theorem scanLanguageFile_flat (object : FlatObject) (isFlat : file.format = .flat)
    (isRead : tree.read file.path = .ok object.text) (strict : Bool) :
    (scanLanguageFile tree strict file).2 = { files := 1 } ∧
      ∀ key, TranslationTable.text? ⟨(scanLanguageFile tree strict file).1⟩ key =
        (object.value? key).map (·, file.locale) := by
  obtain ⟨records, known, texts⟩ := text?_flatTranslations? strict file object
  have scanned : scanLanguageFile tree strict file = (records, { files := 1 }) := by
    simp only [scanLanguageFile, Tree.scan, isRead, isFlat, known]
  rw [scanned]
  exact ⟨rfl, texts⟩

/-- The files of flat translations that can be read hold flat objects. -/
def Tree.HoldsFlatObjects (tree : Tree) : Prop :=
  ∀ file ∈ languageFiles tree, file.format = .flat → ∀ text, tree.read file.path = .ok text →
    ∃ object : FlatObject, text = object.text

/-- The way of reading makes no difference to any language file of such a project. -/
theorem scanLanguageFile_agree (flat : tree.HoldsFlatObjects) (listed : file ∈ languageFiles tree) :
    (scanLanguageFile tree true file).2 = (scanLanguageFile tree false file).2 ∧
      ∀ key, TranslationTable.text? ⟨(scanLanguageFile tree true file).1⟩ key =
        TranslationTable.text? ⟨(scanLanguageFile tree false file).1⟩ key := by
  cases format : file.format with
  | program =>
    have same : scanLanguageFile tree true file = scanLanguageFile tree false file := by
      simp only [scanLanguageFile, format]
    rw [same]
    exact ⟨rfl, fun _ => rfl⟩
  | flat =>
    cases isRead : tree.read file.path with
    | error fault =>
      have same : scanLanguageFile tree true file = scanLanguageFile tree false file := by
        simp only [scanLanguageFile, Tree.scan, isRead]
      rw [same]
      exact ⟨rfl, fun _ => rfl⟩
    | ok text =>
      obtain ⟨object, rfl⟩ := flat file listed format text isRead
      obtain ⟨strictCounts, strictTexts⟩ := scanLanguageFile_flat object format isRead true
      obtain ⟨looseCounts, looseTexts⟩ := scanLanguageFile_flat object format isRead false
      exact ⟨strictCounts.trans looseCounts.symm, fun key => (strictTexts key).trans (looseTexts key).symm⟩

/-- Tables of the same files, one record behind the other. -/
theorem text?_flatMap_agree {files : List LanguageFile} {left right : LanguageFile → List TranslationRecord}
    {key : String} (agree : ∀ file ∈ files,
      TranslationTable.text? ⟨left file⟩ key = TranslationTable.text? ⟨right file⟩ key) :
    TranslationTable.text? ⟨files.flatMap left⟩ key = TranslationTable.text? ⟨files.flatMap right⟩ key := by
  induction files with
  | nil => rfl
  | cons file rest ih =>
    rw [List.flatMap_cons, List.flatMap_cons, TranslationTable.text?_append, TranslationTable.text?_append,
      ih fun other listed => agree other (List.mem_cons_of_mem file listed), agree file List.mem_cons_self]

/-- **Both readings of flat objects agree.** A flat file whose text is a flat object is read without an
error, strictly or not, and both tables give each key the text that the object gives it last, in the locale
of the file. So in a project whose flat files are such, the tables of both scans give each key the same text
and locale, and both scans count the same files and errors. -/
theorem flatReadings_agree (tree : Tree) :
    (∀ (file : LanguageFile) (object : FlatObject), file.format = .flat →
      tree.read file.path = .ok object.text → ∀ strict,
        (scanLanguageFile tree strict file).2 = { files := 1 } ∧
          ∀ key, TranslationTable.text? ⟨(scanLanguageFile tree strict file).1⟩ key =
            (object.value? key).map (·, file.locale)) ∧
    (tree.HoldsFlatObjects →
      (scanTranslations tree true).2 = (scanTranslations tree false).2 ∧
        ∀ key, (scanTranslations tree true).1.text? key = (scanTranslations tree false).1.text? key) := by
  refine ⟨fun file object isFlat isRead strict => scanLanguageFile_flat object isFlat isRead strict,
    fun flat => ⟨?_, fun key => ?_⟩⟩
  · refine congrArg ScanCounts.sum ?_
    rw [List.map_map, List.map_map]
    exact List.map_congr_left fun file listed => (scanLanguageFile_agree flat listed).1
  · unfold scanTranslations
    simp only [List.flatMap_map]
    exact text?_flatMap_agree fun file listed => (scanLanguageFile_agree flat listed).2 key

/-- A key that is written twice, with a colon and a comma inside the quotes. -/
theorem flatReadings_agree_twice :
    let nothing : Gap := ⟨[], nofun⟩
    let blank : Gap := ⟨[' '], List.all_eq_true.mp rfl⟩
    let key : PlainText := ⟨['a', ':'], by simp, by simp⟩
    let object : FlatObject := ⟨nothing, nothing,
      [⟨nothing, key, blank, nothing, ⟨['x', ','], by simp, by simp⟩, nothing⟩,
        ⟨blank, key, nothing, blank, ⟨['y'], by simp, by simp⟩, blank⟩], nothing⟩
    let tree := (MemoryFiles.empty.write "lang/de.json" object.text).toTree
    object.text = "\x7b\"a:\" :\"x,\", \"a:\": \"y\" \x7d" ∧ tree.HoldsFlatObjects ∧
      (scanTranslations tree true).1.text? "a:" = (scanTranslations tree false).1.text? "a:" ∧
      ∀ strict,
        TranslationTable.text? ⟨(scanLanguageFile tree strict ⟨"lang/de.json", "de", .flat⟩).1⟩ "a:" =
          some ("y", "de") := by
  intro nothing blank key object tree
  have isRead : tree.read "lang/de.json" = .ok object.text := rfl
  have flat : tree.HoldsFlatObjects := by
    have files : languageFiles tree = [⟨"lang/de.json", "de", .flat⟩] := by decide +kernel
    intro file listed _ text isText
    rw [files, List.mem_singleton] at listed
    rw [listed, isRead] at isText
    cases isText
    exact ⟨object, rfl⟩
  obtain ⟨each, both⟩ := flatReadings_agree tree
  refine ⟨by decide +kernel, flat, (both flat).2 "a:", fun strict => ?_⟩
  exact (each ⟨"lang/de.json", "de", .flat⟩ object rfl isRead strict).2 "a:"

end Projects

end ArtifactIndex
