/-
**Balanced groups.**

The arguments of a directive end at the parenthesis that closes the one before them. Quoted strings
are passed over: inside one, a backslash takes the next character with it.
-/

namespace ArtifactIndex

namespace Template

/-- The number of characters before the parenthesis that closes a group, from inside the group. The
depth counts the groups that are open around this place, the quote is that of the string around
it. -/
def closingAfter? : Nat → Option Char → List Char → Option Nat
  | _, _, [] => none
  | depth, some quote, c :: rest =>
    if c = '\\' then
      match rest with
      | [] => none
      | _ :: behind => (closingAfter? depth (some quote) behind).map (· + 2)
    else if c = quote then (closingAfter? depth none rest).map (· + 1)
    else (closingAfter? depth (some quote) rest).map (· + 1)
  | depth, none, c :: rest =>
    if c = '\'' ∨ c = '"' then (closingAfter? depth (some c) rest).map (· + 1)
    else if c = '(' then (closingAfter? (depth + 1) none rest).map (· + 1)
    else if c = ')' then
      match depth with
      | 0 => some 0
      | outer + 1 => (closingAfter? outer none rest).map (· + 1)
    else (closingAfter? depth none rest).map (· + 1)

/-- The length of the group behind an opening parenthesis, its closing one not counted; `none` when
nothing closes it. -/
def groupLength? (chars : List Char) : Option Nat := closingAfter? 0 none chars

end Template

end ArtifactIndex
