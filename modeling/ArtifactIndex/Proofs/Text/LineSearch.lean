/-
**Lines by a binary search.**

The starts of the lines of a text are in ascending order, so the line of an offset may be looked for by
halving. Such a search hits a start, which is that of the line, or it misses all of them, and then the line is
the one before the place where the offset would have to stand. Either way it is the number of newlines before
the offset, at each offset inside the text and behind it.

* `pairwise_starts`: the starts are in strictly ascending order;
* `Finds`: what a search may come to, and `Finds.line_eq`: the line is the same;
* `finds_search`: halving comes to one of these;
* `countsNewlines`: lines are counts of newlines.
-/

import ArtifactIndex.Proofs.Text.Lines

namespace ArtifactIndex

namespace LineTable

/-! ### Starts in order -/

/-- The starts in a list of bytes are behind its offset and in strictly ascending order. -/
theorem pairwise_startsFrom (base : Nat) (bytes : List UInt8) :
    (∀ start ∈ startsFrom base bytes, base < start) ∧ (startsFrom base bytes).Pairwise (· < ·) := by
  induction bytes generalizing base with
  | nil => exact ⟨nofun, .nil⟩
  | cons byte rest ih =>
    obtain ⟨behind, ascending⟩ := ih (base + 1)
    have later : ∀ start ∈ startsFrom (base + 1) rest, base < start :=
      fun start isStart => Nat.lt_of_succ_lt (behind start isStart)
    rw [startsFrom]
    split
    · exact ⟨List.forall_mem_cons.mpr ⟨Nat.lt_succ_self base, later⟩, .cons behind ascending⟩
    · exact ⟨later, ascending⟩

/-- **The starts of the lines** are in strictly ascending order. -/
theorem pairwise_starts (text : String) : (ofText text).starts.Pairwise (· < ·) :=
  have ⟨behind, ascending⟩ := pairwise_startsFrom 0 text.toByteArray.toList
  .cons behind ascending

/-- Behind each newline a line starts. -/
theorem length_startsFrom (base : Nat) (bytes : List UInt8) :
    (startsFrom base bytes).length = bytes.count 10 := by
  induction bytes generalizing base with
  | nil => rfl
  | cons byte rest ih =>
    rw [startsFrom, List.count_cons]
    split
    · rw [List.length_cons, ih]
    · exact ih (base + 1)

/-! ### Binary search -/

/-- What a search among the starts comes to: it hits the offset at a place, or misses it and gives the place
where it would have to stand. -/
inductive Searched
  | hit (place : Nat)
  | miss (place : Nat)

/-- The line of an offset that has been searched for. -/
def Searched.line : Searched → Nat
  | .hit place => place
  | .miss place => place - 1

/-- **What a search may come to**: a place of the offset, or the place between smaller and greater starts. -/
inductive Finds (starts : List Nat) (offset : Nat) : Searched → Prop
  | hit {before behind : List Nat} {place : Nat} (split : starts = before ++ offset :: behind)
      (isPlace : before.length = place) : Finds starts offset (.hit place)
  | miss {before behind : List Nat} {place : Nat} (split : starts = before ++ behind)
      (isPlace : before.length = place) (smaller : ∀ start ∈ before, start < offset)
      (greater : ∀ start ∈ behind, offset < start) : Finds starts offset (.miss place)

variable {starts : List Nat} {offset low high : Nat} {found : Searched}

theorem takeWhile_eq_nil_of_greater (greater : ∀ start ∈ starts, offset < start) :
    starts.takeWhile (· ≤ offset) = [] := by
  cases starts with
  | nil => rfl
  | cons start rest =>
    have above := greater start List.mem_cons_self
    exact List.takeWhile_cons_of_neg (by rw [decide_eq_true_eq]; omega)

/-- **A search gives the line**, as the last start up to the offset does. -/
theorem Finds.line_eq (finds : Finds starts offset found) (ascending : starts.Pairwise (· < ·)) :
    found.line = lineOf ⟨starts⟩ offset := by
  cases finds with
  | @hit before behind place split isPlace =>
    subst split isPlace
    obtain ⟨-, later, apart⟩ := List.pairwise_append.mp ascending
    have smaller : ∀ start ∈ before, decide (start ≤ offset) = true :=
      fun start isStart => decide_eq_true (apart start isStart offset List.mem_cons_self).le
    show before.length = ((before ++ offset :: behind).takeWhile (· ≤ offset)).length - 1
    rw [List.takeWhile_append_of_pos smaller, List.takeWhile_cons_of_pos (by rw [decide_eq_true_eq]),
      takeWhile_eq_nil_of_greater (List.pairwise_cons.mp later).1, List.length_append, List.length_singleton,
      Nat.add_sub_cancel]
  | @miss before behind place split isPlace smaller greater =>
    subst split isPlace
    show before.length - 1 = ((before ++ behind).takeWhile (· ≤ offset)).length - 1
    rw [List.takeWhile_append_of_pos fun start isStart => decide_eq_true (smaller start isStart).le,
      takeWhile_eq_nil_of_greater greater, List.append_nil]

/-- The search in a part of the starts, which is halved until the offset is hit or nothing is left. -/
def searchWithin (starts : List Nat) (offset low high : Nat) (inside : high ≤ starts.length) : Searched :=
  if isLeft : low < high then
    let middle := low + (high - low) / 2
    have isPlace : middle < starts.length := by omega
    if starts[middle] = offset then .hit middle
    else if starts[middle] < offset then searchWithin starts offset (middle + 1) high inside
    else searchWithin starts offset low middle isPlace.le
  else .miss low
termination_by high - low

/-- **The binary search** for an offset among all starts. -/
def search (starts : List Nat) (offset : Nat) : Searched :=
  searchWithin starts offset 0 starts.length (Nat.le_refl _)

/-- A start is apart from those before it and those behind it. -/
theorem apart_of_pairwise (ascending : starts.Pairwise (· < ·)) {place : Nat} (isPlace : place < starts.length) :
    (∀ start ∈ starts.take place, start < starts[place]) ∧
      ∀ start ∈ starts.drop (place + 1), starts[place] < start := by
  have whole : (starts.take place ++ starts[place] :: starts.drop (place + 1)).Pairwise (· < ·) := by
    rwa [← List.drop_eq_getElem_cons isPlace, List.take_append_drop]
  obtain ⟨-, later, apart⟩ := List.pairwise_append.mp whole
  exact ⟨fun start isStart => apart start isStart _ List.mem_cons_self, (List.pairwise_cons.mp later).1⟩

/-- **Halving keeps what it looks for between its two ends**: all starts before the lower end are smaller than
the offset, and all from the upper end on are greater. -/
theorem finds_searchWithin (ascending : starts.Pairwise (· < ·)) (inside : high ≤ starts.length)
    (ordered : low ≤ high) (smaller : ∀ start ∈ starts.take low, start < offset)
    (greater : ∀ start ∈ starts.drop high, offset < start) :
    Finds starts offset (searchWithin starts offset low high inside) := by
  fun_induction searchWithin starts offset low high inside with
  | case1 low high inside isLeft middle isPlace isHit =>
    have split : starts = starts.take middle ++ offset :: starts.drop (middle + 1) := by
      rw [← isHit, ← List.drop_eq_getElem_cons isPlace, List.take_append_drop]
    exact .hit split (List.length_take_of_le isPlace.le)
  | case2 low high inside isLeft middle isPlace noHit below ih =>
    refine ih (by omega) (fun start isStart => ?_) greater
    rw [List.take_succ_eq_append_getElem isPlace, List.mem_append, List.mem_singleton] at isStart
    rcases isStart with isBefore | rfl
    · exact ((apart_of_pairwise ascending isPlace).1 start isBefore).trans below
    · exact below
  | case3 low high inside isLeft middle isPlace noHit notBelow ih =>
    have above : offset < starts[middle] := by omega
    refine ih (by omega) smaller fun start isStart => ?_
    rw [List.drop_eq_getElem_cons isPlace, List.mem_cons] at isStart
    rcases isStart with rfl | isBehind
    · exact above
    · exact above.trans ((apart_of_pairwise ascending isPlace).2 start isBehind)
  | case4 low high inside nothingLeft =>
    obtain rfl : low = high := by omega
    exact .miss (List.take_append_drop low starts).symm (List.length_take_of_le inside) smaller greater

/-- **The binary search comes to what a search may come to.** -/
theorem finds_search (ascending : starts.Pairwise (· < ·)) : Finds starts offset (search starts offset) := by
  refine finds_searchWithin ascending (Nat.le_refl _) (Nat.zero_le _) ?_ ?_
  · rw [List.take_zero]
    exact nofun
  · rw [List.drop_length]
    exact nofun

/-! ### Counts of newlines -/

/-- Behind the text no newlines are left to count. -/
theorem newlinesBefore_of_le {text : String} (outside : byteLength text ≤ offset) :
    newlinesBefore text offset = text.toByteArray.toList.count 10 := by
  have length : text.toByteArray.toList.length ≤ offset := by
    rwa [toByteArray_toList, length_flatMap_utf8EncodeChar, ← byteLength_eq]
  rw [newlinesBefore, List.take_of_length_le length]

/-- There are no fewer newlines before a later offset. -/
theorem monotone_newlinesBefore (text : String) : Monotone (newlinesBefore text) := by
  intro first second ordered
  have begins := List.take_prefix_take_left (l := text.toByteArray.toList) ordered
  exact begins.sublist.count_le 10

/-- **The lines of a text are counts of its newlines.** -/
structure CountsNewlines (text : String) : Prop where
  /-- The line of each offset is the number of newlines before it. -/
  line : ∀ offset, (ofText text).lineOf offset = newlinesBefore text offset
  /-- It is found by a binary search among the starts, and by all that may come of such a search. -/
  searched : ∀ offset, (search (ofText text).starts offset).line = newlinesBefore text offset
  found : ∀ offset found, Finds (ofText text).starts offset found → found.line = newlinesBefore text offset
  monotone : Monotone (ofText text).lineOf
  first : (ofText text).lineOf 0 = 0
  last : ∀ offset, (ofText text).lineOf offset ≤ (ofText text).lineCount - 1
  /-- All offsets behind the text are on its last line. -/
  behind : ∀ offset, byteLength text ≤ offset → (ofText text).lineOf offset = (ofText text).lineCount - 1
  /-- There is one line more than newlines. -/
  total : (ofText text).lineCount = text.toByteArray.toList.count 10 + 1

/-- **Lines count newlines**, at every offset inside the text and behind it. -/
theorem countsNewlines (text : String) : CountsNewlines text := by
  have same : (ofText text).lineOf = newlinesBefore text := funext (lineOf_ofText text)
  have found : ∀ offset found, Finds (ofText text).starts offset found →
      found.line = newlinesBefore text offset := by
    intro offset found finds
    rw [finds.line_eq (pairwise_starts text), ← same]
  have total : (ofText text).lineCount = text.toByteArray.toList.count 10 + 1 :=
    congrArg (· + 1) (length_startsFrom 0 text.toByteArray.toList)
  have last : (ofText text).lineCount - 1 = text.toByteArray.toList.count 10 := by
    rw [total, Nat.add_sub_cancel]
  exact
    { line := lineOf_ofText text
      searched := fun offset => found offset _ (finds_search (pairwise_starts text))
      found
      monotone := same ▸ monotone_newlinesBefore text
      first := by rw [same, newlinesBefore, List.take_zero, List.count_nil]
      last := by
        intro offset
        rw [same, last]
        exact (List.take_sublist offset _).count_le 10
      behind := by
        intro offset outside
        rw [same, last, newlinesBefore_of_le outside]
      total }

end LineTable

end ArtifactIndex
