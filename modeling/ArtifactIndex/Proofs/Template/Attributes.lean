/-
**The attribute around a place in a tag.**

A place inside the value of an attribute is found by looking back from it: to the last angle bracket, which
has to open a tag, and to the last quote, before which the attribute has its name. Values may hold angle
brackets of their own, and those are not told from the brackets of tags.

* `OpenTag`: every tag that is open at the end of a text, with the attribute whose value stands there;
* `OpenTag.StaysOpen`: the last angle bracket in it does not look like its end;
* `IsAttributeName.attributeName?_append`: the name of an attribute behind blanks;
* `OpenTag.head?_dropWhile_lead`: the last angle bracket before the open attribute;
* `OpenTag.attributeAt?_append_text`: the attribute is found exactly when the tag stays open.
-/

import ArtifactIndex.Proofs.Text.CheckedSlices
import ArtifactIndex.Template.Fragment
import Mathlib.Data.Bool.AllAny
import Mathlib.Data.List.TakeWhile
import Mathlib.Tactic.Tauto

namespace ArtifactIndex

namespace Template

/-! ### Characters -/

/-- The character opens or closes a tag. -/
def isAngle (c : Char) : Bool := c == '<' || c == '>'

/-- The character starts or ends a value. -/
def isValueQuote (c : Char) : Bool := c == '"' || c == '\''

theorem not_isAngle_eq : (fun c => !isAngle c) = fun c : Char => c != '<' && c != '>' := by
  funext c
  exact Bool.not_or _ _

theorem not_isValueQuote_eq : (fun c => !isValueQuote c) = fun c : Char => c != '"' && c != '\'' := by
  funext c
  exact Bool.not_or _ _

section Characters

variable {c : Char}

theorem toNat_of_isAlphanum (isAlphanum : c.isAlphanum = true) : 48 ≤ c.toNat ∧ c.toNat ≤ 122 := by
  have isEither : ((c.isUpper || c.isLower) || c.isDigit) = true := isAlphanum
  rw [Bool.or_eq_true, Bool.or_eq_true] at isEither
  rcases isEither with (isUpper | isLower) | isDigit
  · obtain ⟨least, greatest⟩ := of_decide_eq_true isUpper
    exact ⟨Nat.le_trans (by decide) (UInt32.le_iff_toNat_le.mp least),
      Nat.le_trans (UInt32.le_iff_toNat_le.mp greatest) (by decide)⟩
  · obtain ⟨least, greatest⟩ := (Bool.and_eq_true _ _).mp isLower
    exact ⟨Nat.le_trans (by decide) (UInt32.le_iff_toNat_le.mp (of_decide_eq_true least)),
      Nat.le_trans (UInt32.le_iff_toNat_le.mp (of_decide_eq_true greatest)) (by decide)⟩
  · obtain ⟨least, greatest⟩ := (Bool.and_eq_true _ _).mp isDigit
    exact ⟨UInt32.le_iff_toNat_le.mp (of_decide_eq_true least),
      Nat.le_trans (UInt32.le_iff_toNat_le.mp (of_decide_eq_true greatest)) (by decide)⟩

theorem insideAttribute_of_startsAttribute (starts : startsAttribute c = true) : insideAttribute c = true := by
  simp only [startsAttribute, insideAttribute, Char.isAlphanum, Bool.or_eq_true] at starts ⊢
  tauto

theorem isBlank_of_insideAttribute (inside : insideAttribute c = true) : isBlank c = false := by
  simp only [insideAttribute, Bool.or_eq_true, beq_iff_eq] at inside
  rcases inside with (((isAlphanum | rfl) | rfl) | rfl) | rfl
  · have bounds := toNat_of_isAlphanum isAlphanum
    simp only [isBlank, Bool.or_eq_false_iff, Bool.and_eq_false_iff, decide_eq_false_iff_not,
      beq_eq_false_iff_ne]
    omega
  all_goals decide

theorem isAngle_of_isBlank (blank : isBlank c = true) : isAngle c = false := by
  rw [isAngle, Bool.or_eq_false_iff, beq_eq_false_iff_ne, beq_eq_false_iff_ne]
  constructor <;> rintro rfl <;> revert blank <;> decide

theorem isAngle_of_insideAttribute (inside : insideAttribute c = true) : isAngle c = false := by
  rw [isAngle, Bool.or_eq_false_iff, beq_eq_false_iff_ne, beq_eq_false_iff_ne]
  constructor <;> rintro rfl <;> revert inside <;> decide

end Characters

/-! ### Tags -/

/-- **A name in a tag**, of the tag itself or of an attribute that is complete. -/
structure IsMarkupName (name : List Char) : Prop where
  given : name ≠ []
  plain : ∀ c ∈ name, isBlank c = false ∧ c ∉ ['<', '>', '"', '\'', '=']

/-- **The name of the attribute that is looked for**: a letter, `_`, `:` or `@`, then letters, digits and
some marks. -/
structure IsAttributeName (name : List Char) : Prop where
  starts : ∃ first ∈ name.head?, first = '@' ∨ startsAttribute first = true
  inside : ∀ c ∈ name.tail, insideAttribute c = true

/-- Blanks between two parts of a tag. -/
structure Spacing where
  chars : List Char
  given : chars ≠ []
  blank : ∀ c ∈ chars, isBlank c = true

/-- The quote around a value. -/
structure ValueQuote where
  mark : Char
  isQuote : isValueQuote mark = true

/-- What stands between quotes. -/
structure ValueText where
  chars : List Char
  plain : ∀ c ∈ chars, isValueQuote c = false

/-- **An attribute with its value.** -/
structure Attribute where
  spacing : Spacing
  name : List Char
  named : IsMarkupName name
  quote : ValueQuote
  value : ValueText

/-- The attribute as it is written. -/
def Attribute.text (item : Attribute) : List Char :=
  item.spacing.chars ++ item.name ++ '=' :: item.quote.mark :: item.value.chars ++ [item.quote.mark]

/-- **A tag that is open at the end of a text**: its name, attributes with their values, and an attribute
whose value is not complete. -/
structure OpenTag where
  tag : List Char
  tagged : IsMarkupName tag
  complete : List Attribute
  spacing : Spacing
  name : List Char
  named : IsAttributeName name
  quote : ValueQuote
  value : ValueText

namespace OpenTag

/-- What stands before the open attribute. -/
def lead (tag : OpenTag) : List Char := '<' :: tag.tag ++ tag.complete.flatMap Attribute.text

/-- The tag as it is written. -/
def text (tag : OpenTag) : List Char :=
  tag.lead ++ tag.spacing.chars ++ tag.name ++ '=' :: tag.quote.mark :: tag.value.chars

/-- The angle brackets in the values that are complete. -/
def angles (tag : OpenTag) : List Char :=
  tag.complete.flatMap fun item => item.value.chars.filter isAngle

/-- **The tag does not look closed**: the value that is not complete has no angle bracket, and the last one
in the other values is not a closing one. -/
def StaysOpen (tag : OpenTag) : Prop :=
  tag.value.chars.filter isAngle = [] ∧ tag.angles.getLast? ≠ some '>'

instance (tag : OpenTag) : Decidable tag.StaysOpen := inferInstanceAs (Decidable (_ ∧ _))

end OpenTag

/-! ### Names -/

namespace IsAttributeName

variable {name : List Char}

/-- What no character of a name is, except perhaps the first. -/
theorem eq_false_of_mem (named : IsAttributeName name) {test : Char → Bool}
    (outside : ∀ {c}, insideAttribute c = true → test c = false) (sign : test '@' = false) :
    ∀ c ∈ name, test c = false := by
  obtain ⟨first, isFirst, starts⟩ := named.starts
  obtain ⟨rest, rfl⟩ := List.head?_eq_some_iff.mp isFirst
  refine List.forall_mem_cons.mpr ⟨?_, fun c later => outside (named.inside c later)⟩
  rcases starts with rfl | starts
  · exact sign
  · exact outside (insideAttribute_of_startsAttribute starts)

/-- **The name of an attribute is read back** up to the blank before it. -/
theorem attributeName?_append (named : IsAttributeName name) {blank : Char} (isBlank : isBlank blank = true)
    (behind : List Char) : attributeName? (name.reverse ++ blank :: behind) = some name := by
  obtain ⟨first, isFirst, starts⟩ := named.starts
  obtain ⟨rest, rfl⟩ := List.head?_eq_some_iff.mp isFirst
  have inside : ∀ c ∈ rest.reverse, insideAttribute c = true := by
    intro c isPart
    exact named.inside c (List.mem_reverse.mp isPart)
  have stops : ¬insideAttribute blank = true := by
    intro goesOn
    rw [isBlank_of_insideAttribute goesOn] at isBlank
    cases isBlank
  have shape : (first :: rest).reverse ++ blank :: behind = rest.reverse ++ first :: blank :: behind := by
    simp
  unfold attributeName?
  rw [shape, List.takeWhile_append_of_pos inside, List.dropWhile_append_of_pos inside]
  rcases starts with rfl | starts
  · rw [List.takeWhile_cons_of_neg (by decide), List.dropWhile_cons_of_neg (by decide)]
    simp
  · have startsInside := insideAttribute_of_startsAttribute starts
    have noSign : blank ≠ '@' := by
      rintro rfl
      revert isBlank
      decide
    rw [List.takeWhile_cons_of_pos startsInside, List.dropWhile_cons_of_pos startsInside,
      List.takeWhile_cons_of_neg stops, List.dropWhile_cons_of_neg stops]
    simp [noSign, starts]

end IsAttributeName

/-! ### Angle brackets -/

theorem ValueQuote.isAngle_eq_false (quote : ValueQuote) : isAngle quote.mark = false := by
  have isQuote := quote.isQuote
  rw [isAngle, Bool.or_eq_false_iff, beq_eq_false_iff_ne, beq_eq_false_iff_ne]
  constructor <;> intro same <;> rw [same] at isQuote <;> revert isQuote <;> decide

theorem ValueText.not_isValueQuote (value : ValueText) {c : Char} (inside : c ∈ value.chars) :
    (!isValueQuote c) = true := by
  rw [value.plain c inside]
  rfl

theorem Spacing.filter_isAngle (spacing : Spacing) : spacing.chars.filter isAngle = [] := by
  rw [List.filter_eq_nil_iff]
  intro c inside
  rw [isAngle_of_isBlank (spacing.blank c inside)]
  exact Bool.false_ne_true

theorem IsMarkupName.filter_isAngle {name : List Char} (named : IsMarkupName name) :
    name.filter isAngle = [] := by
  rw [List.filter_eq_nil_iff]
  intro c inside
  have plain := (named.plain c inside).2
  simp only [List.mem_cons, not_or] at plain
  simp [isAngle, plain]

/-- The angle brackets of an attribute stand in its value. -/
theorem Attribute.filter_isAngle (item : Attribute) :
    item.text.filter isAngle = item.value.chars.filter isAngle := by
  have sign : isAngle '=' = false := rfl
  simp [text, List.filter_append, item.spacing.filter_isAngle, item.named.filter_isAngle,
    item.quote.isAngle_eq_false, sign]

namespace OpenTag

variable (tag : OpenTag)

/-- The angle brackets before the open attribute: the one of the tag, then those in values. -/
theorem filter_isAngle_lead : tag.lead.filter isAngle = '<' :: tag.angles := by
  have opens : isAngle '<' = true := rfl
  have items : (tag.complete.flatMap Attribute.text).filter isAngle = tag.angles := by
    rw [List.filter_flatMap, angles]
    congr 1
    funext item
    exact item.filter_isAngle
  rw [lead, List.cons_append, List.filter_cons_of_pos opens, List.filter_append, items,
    tag.tagged.filter_isAngle, List.nil_append]

/-- **The last angle bracket before the open attribute** opens the tag, or stands in the last value that has
one. -/
theorem head?_dropWhile_lead (before : List Char) :
    ((before ++ tag.lead).reverse.dropWhile fun c => c != '<' && c != '>').head? =
      some (tag.angles.getLast?.getD '<') := by
  rw [← not_isAngle_eq, ← List.find?_eq_head?_dropWhile_not, ← List.head?_filter, List.filter_reverse,
    List.head?_reverse, List.filter_append, filter_isAngle_lead]
  cases last : tag.angles.getLast? with
  | none =>
    rw [List.getLast?_eq_none_iff.mp last]
    simp
  | some c =>
    obtain ⟨others, shape⟩ := List.getLast?_eq_some_iff.mp last
    rw [shape, ← List.cons_append, ← List.append_assoc, List.getLast?_concat]
    rfl

/-! ### Looking back -/

/-- The text before a place in a tag, read backwards. -/
theorem reverse_text (before : List Char) :
    (before ++ tag.text).reverse =
      tag.value.chars.reverse ++ tag.quote.mark :: '=' ::
        (tag.name.reverse ++ tag.spacing.chars.reverse ++ (before ++ tag.lead).reverse) := by
  simp [text]

/-- An angle bracket in the value that is not complete hides the attribute. -/
theorem openAttribute?_of_angle (angle : tag.value.chars.filter isAngle ≠ []) (before : List Char) :
    openAttribute? (before ++ tag.text).reverse = none := by
  obtain ⟨c, isPart⟩ := List.exists_mem_of_ne_nil _ angle
  obtain ⟨inValue, isBracket⟩ := List.mem_filter.mp isPart
  obtain ⟨last, isLast⟩ := Option.isSome_iff_exists.mp
    (List.find?_isSome.mpr ⟨c, List.mem_reverse.mpr inValue, isBracket⟩)
  obtain ⟨lastBracket, run, others, shape, free⟩ := List.find?_eq_some_iff_append.mp isLast
  have taken : (before ++ tag.text).reverse.takeWhile (fun c => !isAngle c) = run := by
    rw [reverse_text, shape, List.append_assoc, List.takeWhile_append_of_pos free, List.cons_append,
      List.takeWhile_cons_of_neg (by simp [lastBracket]), List.append_nil]
  have noQuote : run.dropWhile (fun c => !isValueQuote c) = [] := by
    rw [List.dropWhile_eq_nil_iff]
    intro d inRun
    have inValue : d ∈ tag.value.chars := by
      rw [← List.mem_reverse, shape]
      exact List.mem_append_left _ inRun
    exact tag.value.not_isValueQuote inValue
  unfold openAttribute?
  dsimp only
  rw [← not_isAngle_eq, ← not_isValueQuote_eq, taken, noQuote]
  split <;> rfl

/-- The name of the attribute stands before the last quote. -/
theorem attributeName?_behindSign (behind : List Char) :
    attributeName? ((tag.name.reverse ++ tag.spacing.chars.reverse ++ behind).dropWhile isBlank) =
      some tag.name := by
  obtain ⟨blank, spaces, blanks⟩ :=
    List.exists_cons_of_ne_nil (List.reverse_ne_nil_iff.mpr tag.spacing.given)
  have isSpace : isBlank blank = true :=
    tag.spacing.blank blank (List.mem_reverse.mp (blanks ▸ List.mem_cons_self))
  obtain ⟨first, isFirst, -⟩ := tag.named.starts
  have given : tag.name ≠ [] := by
    intro empty
    rw [empty] at isFirst
    cases isFirst
  obtain ⟨last, others, name⟩ := List.exists_cons_of_ne_nil (List.reverse_ne_nil_iff.mpr given)
  have noBlank : isBlank last = false :=
    tag.named.eq_false_of_mem isBlank_of_insideAttribute rfl last
      (List.mem_reverse.mp (name ▸ List.mem_cons_self))
  have kept : (tag.name.reverse ++ tag.spacing.chars.reverse ++ behind).dropWhile isBlank =
      tag.name.reverse ++ blank :: (spaces ++ behind) := by
    rw [blanks, name, List.cons_append, List.cons_append, List.dropWhile_cons_of_neg (by simp [noBlank]),
      List.cons_append, List.append_assoc, List.cons_append]
  rw [kept, tag.named.attributeName?_append isSpace]

/-- No angle bracket stands behind what comes before the open attribute, when its value has none. -/
theorem not_isAngle_behind_lead (plain : tag.value.chars.filter isAngle = []) :
    ∀ c ∈ tag.value.chars.reverse ++ tag.quote.mark :: '=' :: (tag.name.reverse ++ tag.spacing.chars.reverse),
      (!isAngle c) = true := by
  intro c inside
  rw [Bool.not_eq_true']
  simp only [List.mem_append, List.mem_cons, List.mem_reverse] at inside
  rcases inside with inValue | rfl | rfl | inName | isSpace
  · exact Bool.eq_false_iff.mpr (List.filter_eq_nil_iff.mp plain c inValue)
  · exact tag.quote.isAngle_eq_false
  · rfl
  · exact tag.named.eq_false_of_mem isAngle_of_insideAttribute rfl c inName
  · exact isAngle_of_isBlank (tag.spacing.blank c isSpace)

/-- **What stands before the open attribute** decides, when its value has no angle bracket. -/
theorem openAttribute?_of_plain (plain : tag.value.chars.filter isAngle = []) (before : List Char) :
    openAttribute? (before ++ tag.text).reverse =
      if tag.angles.getLast?.getD '<' = '<' then some (lowered (String.ofList tag.name)) else none := by
  have noQuote : ∀ c ∈ tag.value.chars.reverse, (!isValueQuote c) = true := by
    intro c inside
    exact tag.value.not_isValueQuote (List.mem_reverse.mp inside)
  have shape : (before ++ tag.text).reverse = tag.value.chars.reverse ++ tag.quote.mark :: '=' ::
      (tag.name.reverse ++ tag.spacing.chars.reverse) ++ (before ++ tag.lead).reverse := by
    rw [reverse_text]
    simp
  have last := tag.head?_dropWhile_lead before
  obtain ⟨others, opened⟩ := List.head?_eq_some_iff.mp last
  unfold openAttribute?
  dsimp only
  rw [shape, ← not_isAngle_eq, List.takeWhile_append_of_pos (tag.not_isAngle_behind_lead plain),
    List.dropWhile_append_of_pos (tag.not_isAngle_behind_lead plain),
    not_isAngle_eq, opened, List.append_assoc, ← not_isValueQuote_eq, List.dropWhile_append_of_pos noQuote,
    List.cons_append, List.dropWhile_cons_of_neg (by simp [tag.quote.isQuote])]
  have noBlank : ¬isBlank '=' = true := by decide
  by_cases opens : tag.angles.getLast?.getD '<' = '<'
  · rw [opens, if_pos rfl]
    simp only [List.cons_append, List.dropWhile_cons_of_neg noBlank, attributeName?_behindSign, Option.map_some]
  · rw [if_neg opens]
    simp [opens]

/-- The last angle bracket before the open attribute opens a tag unless it is a closing one in a value. -/
theorem getLast?_angles_getD_eq_iff : tag.angles.getLast?.getD '<' = '<' ↔ tag.angles.getLast? ≠ some '>' := by
  cases last : tag.angles.getLast? with
  | none => simp
  | some c =>
    obtain ⟨item, -, inValue⟩ := List.mem_flatMap.mp (List.mem_of_getLast? last)
    have bracket : isAngle c = true := (List.mem_filter.mp inValue).2
    rw [isAngle, Bool.or_eq_true, beq_iff_eq, beq_iff_eq] at bracket
    rcases bracket with rfl | rfl <;> decide

/-- **The attribute is found exactly when the tag stays open.** -/
theorem openAttribute?_eq (before : List Char) :
    openAttribute? (before ++ tag.text).reverse =
      if tag.StaysOpen then some (lowered (String.ofList tag.name)) else none := by
  by_cases plain : tag.value.chars.filter isAngle = []
  · rw [tag.openAttribute?_of_plain plain]
    refine if_congr ?_ rfl rfl
    rw [getLast?_angles_getD_eq_iff, StaysOpen, and_iff_right plain]
  · rw [tag.openAttribute?_of_angle plain, if_neg fun stays => plain stays.1]

/-- **The name of the open attribute is found**, in lower case, at the end of a text that ends in an open
tag, exactly when no value makes the tag look closed. -/
theorem attributeAt?_append_text (before : List Char) :
    attributeAt? (String.ofList (before ++ tag.text)) (byteLength (String.ofList (before ++ tag.text))) =
      if tag.StaysOpen then some (lowered (String.ofList tag.name)) else none := by
  have wholeText : takeBytes? (byteLength (String.ofList (before ++ tag.text)))
      (String.ofList (before ++ tag.text)).toList = some (before ++ tag.text) := by
    rw [takeBytes?_eq_some_iff, byteLength_ofList, String.toList_ofList]
    exact ⟨List.prefix_rfl, rfl⟩
  rw [attributeAt?, wholeText, Option.bind_some, openAttribute?_eq]

/-- The arrow in an expression is taken for the end of its tag. -/
theorem attribute_behind_arrow_not_found :
    ∃ tag : OpenTag, String.ofList tag.text = "<a title=\"\x7b\x7b $user->name \x7d\x7d\" href=\"" ∧
      lowered (String.ofList tag.name) = "href" ∧
      attributeAt? (String.ofList tag.text) (byteLength (String.ofList tag.text)) = none := by
  let space : Spacing := ⟨[' '], by decide, List.all_eq_true.mp (by decide)⟩
  let quote : ValueQuote := ⟨'"', by decide⟩
  let title : Attribute :=
    { spacing := space
      name := "title".toList
      named := ⟨by decide, List.all_iff_forall_prop.mp (by decide)⟩
      quote
      value := ⟨"\x7b\x7b $user->name \x7d\x7d".toList, List.all_iff_forall_prop.mp (by decide)⟩ }
  let tag : OpenTag :=
    { tag := ['a']
      tagged := ⟨by decide, List.all_iff_forall_prop.mp (by decide)⟩
      complete := [title]
      spacing := space
      name := "href".toList
      named := ⟨⟨'h', by decide, by decide⟩, List.all_eq_true.mp (by decide)⟩
      quote
      value := ⟨[], nofun⟩ }
  exact ⟨tag, by decide +kernel⟩

end OpenTag

end Template

end ArtifactIndex
