/-
**Balanced groups.**

The search for the parenthesis that closes a group goes through the characters one by one, except that a
backslash inside a quoted string takes the next one with it. It passes over balanced arguments as a whole.

* `closingAfter?_inString`, `closingAfter?_outside`: what the search does at one character;
* `drop_of_closingAfter?`: the search stops at a closing parenthesis;
* `Balanced`: arguments whose parentheses come in pairs outside of quoted strings;
* `groupLength?_of_balanced`: such arguments end at the parenthesis that closes them.
-/

import ArtifactIndex.Template.Group
import Mathlib.Data.List.Basic

namespace ArtifactIndex

namespace Template

/-! ### One character -/

section Steps

variable (depth : Nat) {quote c : Char} (rest : List Char)

theorem closingAfter?_nil (quote : Option Char) : closingAfter? depth quote [] = none :=
  closingAfter?.eq_def depth quote []

/-- The search at a character inside a string. -/
theorem closingAfter?_inString (quote c : Char) :
    closingAfter? depth (some quote) (c :: rest) =
      if c = '\\' then
        match rest with
        | [] => none
        | _ :: behind => (closingAfter? depth (some quote) behind).map (· + 2)
      else if c = quote then (closingAfter? depth none rest).map (· + 1)
      else (closingAfter? depth (some quote) rest).map (· + 1) :=
  closingAfter?.eq_def depth (some quote) (c :: rest)

/-- The search at a character outside of strings. -/
theorem closingAfter?_outside (c : Char) :
    closingAfter? depth none (c :: rest) =
      if c = '\'' ∨ c = '"' then (closingAfter? depth (some c) rest).map (· + 1)
      else if c = '(' then (closingAfter? (depth + 1) none rest).map (· + 1)
      else if c = ')' then
        match depth with
        | 0 => some 0
        | outer + 1 => (closingAfter? outer none rest).map (· + 1)
      else (closingAfter? depth none rest).map (· + 1) :=
  closingAfter?.eq_def depth none (c :: rest)

/-- Inside a string, a backslash takes the next character with it. -/
theorem closingAfter?_escape : closingAfter? depth (some quote) ('\\' :: c :: rest) =
    (closingAfter? depth (some quote) rest).map (· + 2) := by
  rw [closingAfter?_inString, if_pos rfl]

/-- Nothing closes a group behind a backslash at the end. -/
theorem closingAfter?_lastEscape : closingAfter? depth (some quote) ['\\'] = none := by
  rw [closingAfter?_inString, if_pos rfl]

/-- Inside a string, a backslash takes the next character with it, if there is one. -/
theorem closingAfter?_backslash :
    closingAfter? depth (some quote) ('\\' :: rest) =
      (closingAfter? depth (some quote) (rest.drop 1)).map (· + 2) := by
  cases rest with
  | nil => rw [closingAfter?_lastEscape, List.drop_nil, closingAfter?_nil, Option.map_none]
  | cons c behind => exact closingAfter?_escape depth behind

/-- A string ends at its quote. -/
theorem closingAfter?_endQuote (noEscape : quote ≠ '\\') :
    closingAfter? depth (some quote) (quote :: rest) = (closingAfter? depth none rest).map (· + 1) := by
  rw [closingAfter?_inString, if_neg noEscape, if_pos rfl]

theorem closingAfter?_quoted (noEscape : c ≠ '\\') (differs : c ≠ quote) :
    closingAfter? depth (some quote) (c :: rest) =
      (closingAfter? depth (some quote) rest).map (· + 1) := by
  rw [closingAfter?_inString, if_neg noEscape, if_neg differs]

theorem closingAfter?_startQuote (isQuote : c = '\'' ∨ c = '"') :
    closingAfter? depth none (c :: rest) = (closingAfter? depth (some c) rest).map (· + 1) := by
  rw [closingAfter?_outside, if_pos isQuote]

theorem closingAfter?_opening : closingAfter? depth none ('(' :: rest) =
    (closingAfter? (depth + 1) none rest).map (· + 1) := by
  rw [closingAfter?_outside, if_neg (by decide), if_pos rfl]

theorem closingAfter?_inner : closingAfter? (depth + 1) none (')' :: rest) =
    (closingAfter? depth none rest).map (· + 1) := by
  rw [closingAfter?_outside, if_neg (by decide), if_neg (by decide), if_pos rfl]

/-- The parenthesis that closes the group is found. -/
theorem closingAfter?_closing : closingAfter? 0 none (')' :: rest) = some 0 := by
  rw [closingAfter?_outside, if_neg (by decide), if_neg (by decide), if_pos rfl]

theorem closingAfter?_plain (noQuote : ¬(c = '\'' ∨ c = '"')) (noOpening : c ≠ '(') (noClosing : c ≠ ')') :
    closingAfter? depth none (c :: rest) = (closingAfter? depth none rest).map (· + 1) := by
  rw [closingAfter?_outside, if_neg noQuote, if_neg noOpening, if_neg noClosing]

/-- **The search stops at a closing parenthesis.** -/
theorem drop_of_closingAfter? {depth count : Nat} {quote : Option Char} {chars : List Char}
    (found : closingAfter? depth quote chars = some count) : ∃ behind, chars.drop count = ')' :: behind := by
  fun_induction closingAfter? depth quote chars generalizing count with
  | case1 => cases found
  | case2 => cases found
  | case8 rest =>
    cases found
    exact ⟨rest, rfl⟩
  -- Elsewhere the search goes on behind what it passes over.
  | case3 _ _ _ _ ih | case4 _ _ _ _ ih | case5 _ _ _ _ _ _ ih | case6 _ _ _ _ ih | case7 _ _ _ ih
  | case9 _ _ _ _ ih | case10 _ _ _ _ _ _ ih =>
    obtain ⟨later, isLater, rfl⟩ := Option.map_eq_some_iff.mp found
    exact ih isLater

end Steps

/-! ### Balanced arguments -/

/-- What stands between two quotes: a backslash takes the next character with it. -/
inductive QuotedBody (quote : Char) : List Char → Prop
  | nil : QuotedBody quote []
  | plain {c : Char} {rest : List Char} (noEscape : c ≠ '\\') (differs : c ≠ quote)
      (later : QuotedBody quote rest) : QuotedBody quote (c :: rest)
  | escaped {c : Char} {rest : List Char} (later : QuotedBody quote rest) :
      QuotedBody quote ('\\' :: c :: rest)

/-- **Balanced arguments**: parentheses come in pairs, those inside quoted strings aside. -/
inductive Balanced : List Char → Prop
  | nil : Balanced []
  | plain {c : Char} {rest : List Char} (noQuote : ¬(c = '\'' ∨ c = '"')) (noOpening : c ≠ '(')
      (noClosing : c ≠ ')') (later : Balanced rest) : Balanced (c :: rest)
  | quoted {quote : Char} {body rest : List Char} (isQuote : quote = '\'' ∨ quote = '"')
      (inside : QuotedBody quote body) (later : Balanced rest) : Balanced (quote :: (body ++ quote :: rest))
  | group {inner rest : List Char} (inside : Balanced inner) (later : Balanced rest) :
      Balanced ('(' :: (inner ++ ')' :: rest))

variable {quote : Char} {body arguments : List Char}

/-- Counts one behind the other. -/
theorem map_add_map_add (found : Option Nat) (first second : Nat) :
    (found.map (· + first)).map (· + second) = found.map (· + (first + second)) := by
  rw [Option.map_map]
  congr 1
  funext count
  exact Nat.add_assoc count first second

/-- A quoted string is passed over up to its closing quote. -/
theorem QuotedBody.closingAfter?_append (inside : QuotedBody quote body) (noEscape : quote ≠ '\\')
    (depth : Nat) (rest : List Char) :
    closingAfter? depth (some quote) (body ++ quote :: rest) =
      (closingAfter? depth none rest).map (· + (body.length + 1)) := by
  induction inside with
  | nil =>
    rw [List.nil_append, closingAfter?_endQuote depth rest noEscape]
    rfl
  | @plain c behind plain differs later ih =>
    rw [List.cons_append, closingAfter?_quoted depth _ plain differs, ih, map_add_map_add, List.length_cons]
  | @escaped c behind later ih =>
    rw [List.cons_append, List.cons_append, closingAfter?_escape, ih, map_add_map_add, List.length_cons,
      List.length_cons, Nat.add_right_comm]

/-- **Balanced arguments are passed over**, at any depth. -/
theorem Balanced.closingAfter?_append (balanced : Balanced arguments) (depth : Nat) (rest : List Char) :
    closingAfter? depth none (arguments ++ rest) =
      (closingAfter? depth none rest).map (· + arguments.length) := by
  induction balanced generalizing depth rest with
  | nil => simp
  | plain noQuote noOpening noClosing later ih =>
    rw [List.cons_append, closingAfter?_plain depth _ noQuote noOpening noClosing, ih, map_add_map_add,
      List.length_cons]
  | @quoted quote body behind isQuote inside later ih =>
    have noEscape : quote ≠ '\\' := by rcases isQuote with rfl | rfl <;> decide
    have length : behind.length + (body.length + 1 + 1) = (quote :: (body ++ quote :: behind)).length := by
      simp only [List.length_cons, List.length_append]
      omega
    rw [List.cons_append, List.append_assoc, List.cons_append, closingAfter?_startQuote depth _ isQuote,
      inside.closingAfter?_append noEscape, ih, map_add_map_add, map_add_map_add, length]
  | @group inner behind inside later ihInside ihLater =>
    have length : behind.length + (1 + (inner.length + 1)) = ('(' :: (inner ++ ')' :: behind)).length := by
      simp only [List.length_cons, List.length_append]
      omega
    rw [List.cons_append, List.append_assoc, List.cons_append, closingAfter?_opening, ihInside,
      closingAfter?_inner, ihLater, map_add_map_add, map_add_map_add, map_add_map_add, length]

/-- **Balanced arguments end at the parenthesis that closes them.** -/
theorem groupLength?_of_balanced (balanced : Balanced arguments) (rest : List Char) :
    groupLength? (arguments ++ ')' :: rest) = some arguments.length := by
  rw [groupLength?, balanced.closingAfter?_append, closingAfter?_closing, Option.map_some, Nat.zero_add]

end Template

end ArtifactIndex
