/-
**What the parser reads is nested.**

Each function of the parser takes a fitting feed and gives nodes that form a nested row over the tokens
it took, and a fitting feed behind them. The functions call each other with less fuel, so one statement
about all of them is carried along the fuel.

* `Reading`: the statement for all functions at one fuel;
* `reading`: it holds at every fuel;
* `row_programStatements`: the statements of a program form a nested row.
-/

import ArtifactIndex.Proofs.Code.Feed

namespace ArtifactIndex

namespace Parser

/-- **Every function reads nested nodes**, at a given fuel. -/
structure Reading (cut : Nat → Prop) (whole : Span → Prop) (fuel : Nat) : Prop where
  expression {feed behind : Feed} {value : Node} :
    Parser.expression fuel feed = (value, behind) → feed.Fits cut whole →
      Reads cut whole feed [value] behind
  operands {feed behind : Feed} {nodes : List Node} {alone : Bool} :
    Parser.operands fuel feed = (nodes, alone, behind) → feed.Fits cut whole →
      Reads cut whole feed nodes behind
  yielded {feed behind : Feed} {nodes : List Node} :
    Parser.yielded fuel feed = (nodes, behind) → feed.Fits cut whole →
      Reads cut whole feed nodes behind
  primary {feed behind : Feed} {first : Node} :
    Parser.primary fuel feed = some (first, behind) → feed.Fits cut whole →
      Reads cut whole feed [first] behind
  chained {origin feed behind : Feed} {first last : Node} :
    Parser.chained fuel first feed = (last, behind) → Reads cut whole origin [first] feed →
      Reads cut whole origin [last] behind
  memberName {feed behind : Feed} {name : Node} :
    Parser.memberName fuel feed = some (name, behind) → feed.Fits cut whole →
      Reads cut whole feed [name] behind
  embeddings {feed behind : Feed} {nodes : List Node} :
    Parser.embeddings fuel feed = (nodes, behind) → feed.Fits cut whole →
      Reads cut whole feed nodes behind
  parenthesised {feed behind : Feed} {head : Node} :
    Parser.parenthesised fuel feed = (head, behind) → feed.Fits cut whole →
      Reads cut whole feed [head] behind
  headItems {feed behind : Feed} {targets : Bool} {nodes : List Node} :
    Parser.headItems fuel targets feed = (nodes, behind) → feed.Fits cut whole →
      Reads cut whole feed nodes behind
  arguments {feed behind : Feed} {given : Node} :
    Parser.arguments fuel feed = (given, behind) → feed.Fits cut whole →
      Reads cut whole feed [given] behind
  argumentList {feed behind : Feed} {nodes : List Node} :
    Parser.argumentList fuel feed = (nodes, behind) → feed.Fits cut whole →
      Reads cut whole feed nodes behind
  spreadOr {feed behind : Feed} {value : Node} :
    Parser.spreadOr fuel feed = (value, behind) → feed.Fits cut whole →
      Reads cut whole feed [value] behind
  elements {feed behind : Feed} {nodes : List Node} :
    Parser.elements fuel feed = (nodes, behind) → feed.Fits cut whole →
      Reads cut whole feed nodes behind
  attributes {feed behind : Feed} {nodes : List Node} :
    Parser.attributes fuel feed = (nodes, behind) → feed.Fits cut whole →
      Reads cut whole feed nodes behind
  matchArms {feed behind : Feed} {nodes : List Node} :
    Parser.matchArms fuel feed = (nodes, behind) → feed.Fits cut whole →
      Reads cut whole feed nodes behind
  parameters {feed behind : Feed} {nodes : List Node} :
    Parser.parameters fuel feed = (nodes, behind) → feed.Fits cut whole →
      Reads cut whole feed nodes behind
  parameterList {feed behind : Feed} {nodes : List Node} :
    Parser.parameterList fuel feed = (nodes, behind) → feed.Fits cut whole →
      Reads cut whole feed nodes behind
  closure {origin feed behind : Feed} {start : Nat} {made : Node} :
    Parser.closure fuel start feed = (made, behind) → Reads cut whole origin [] feed → cut start →
      origin.last ≤ start → Reads cut whole origin [made] behind
  creation {origin feed behind : Feed} {start : Nat} {made : Node} :
    Parser.creation fuel start feed = (made, behind) → Reads cut whole origin [] feed → cut start →
      origin.last ≤ start → Reads cut whole origin [made] behind
  accessed {origin feed behind : Feed} {first last : Node} :
    Parser.accessed fuel first feed = (last, behind) → Reads cut whole origin [first] feed →
      Reads cut whole origin [last] behind
  block {feed behind : Feed} {found : Node} :
    Parser.block fuel feed = (found, behind) → feed.Fits cut whole →
      Reads cut whole feed [found] behind
  statements {feed behind : Feed} {nodes : List Node} :
    Parser.statements fuel feed = (nodes, behind) → feed.Fits cut whole →
      Reads cut whole feed nodes behind
  statement {feed behind : Feed} {nodes : List Node} :
    Parser.statement fuel feed = (nodes, behind) → feed.Fits cut whole →
      Reads cut whole feed nodes behind
  conditional {feed behind : Feed} {nodes : List Node} :
    Parser.conditional fuel feed = (nodes, behind) → feed.Fits cut whole →
      Reads cut whole feed nodes behind
  body {feed behind : Feed} {nodes : List Node} {colon : Bool} :
    Parser.body fuel feed = (nodes, colon, behind) → feed.Fits cut whole →
      Reads cut whole feed nodes behind
  handlers {feed behind : Feed} {nodes : List Node} :
    Parser.handlers fuel feed = (nodes, behind) → feed.Fits cut whole →
      Reads cut whole feed nodes behind
  itemList {feed behind : Feed} {nodes : List Node} :
    Parser.itemList fuel feed = (nodes, behind) → feed.Fits cut whole →
      Reads cut whole feed nodes behind
  members {feed behind : Feed} {nodes : List Node} :
    Parser.members fuel feed = (nodes, behind) → feed.Fits cut whole →
      Reads cut whole feed nodes behind
  method {feed behind : Feed} {nodes : List Node} :
    Parser.method fuel feed = (nodes, behind) → feed.Fits cut whole →
      Reads cut whole feed nodes behind

/-- Every function reads nested nodes, at the fuel below a given one. -/
def ReadingBelow (cut : Nat → Prop) (whole : Span → Prop) (fuel : Nat) : Prop :=
  ∀ less, less + 1 = fuel → Reading cut whole less

variable {cut : Nat → Prop} {whole : Span → Prop} {fuel : Nat} {feed : Feed}

/-! ### Expressions -/

theorem reads_expression (smaller : ReadingBelow cut whole fuel) (fits : feed.Fits cut whole) :
    Reads cut whole feed [(expression fuel feed).1] (expression fuel feed).2 := by
  fun_cases expression fuel feed
  case case1 => exact fits.nothing.node fits (by decide)
  all_goals replace smaller := smaller _ rfl
  case case2 => exact smaller.operands ‹_› fits
  case case3 => exact (smaller.operands ‹_› fits).node fits (by decide)

theorem reads_operands (smaller : ReadingBelow cut whole fuel) (fits : feed.Fits cut whole) :
    Reads cut whole feed (operands fuel feed).1 (operands fuel feed).2.2 := by
  fun_cases operands fuel feed
  case case1 => exact fits.nothing
  all_goals replace smaller := smaller _ rfl
  case case5 => exact fits.nothing
  case case2 => exact fits.next.next.next.after (smaller.operands ‹_›)
  case case3 => exact fits.next.after (smaller.operands ‹_›)
  case case4 => exact fits.next.after (smaller.yielded ‹_›)
  case case6 =>
    have operand := smaller.chained ‹_› (smaller.primary ‹_› fits)
    exact (operand.next.ite operand).target.next.next.cons (smaller.operands ‹_›)
  case case7 =>
    have operand := smaller.chained ‹_› (smaller.primary ‹_› fits)
    exact (operand.next.ite operand).target.next.cons fun fits =>
      ((smaller.expression ‹_› fits).skipMark ":").cons (smaller.operands ‹_›)
  case case8 =>
    have operand := smaller.chained ‹_› (smaller.primary ‹_› fits)
    exact (operand.next.ite operand).target.next.cons (smaller.operands ‹_›)
  case case9 =>
    have operand := smaller.chained ‹_› (smaller.primary ‹_› fits)
    exact (operand.next.ite operand).target

theorem reads_yielded (smaller : ReadingBelow cut whole fuel) (fits : feed.Fits cut whole) :
    Reads cut whole feed (yielded fuel feed).1 (yielded fuel feed).2 := by
  fun_cases yielded fuel feed
  case case1 => exact fits.nothing
  all_goals replace smaller := smaller _ rfl
  case case2 => exact fits.nothing
  case case3 =>
    exact (fits.next.ite fits.nothing).after fun fits =>
      (smaller.expression ‹_› fits).next.cons (smaller.expression ‹_›)
  case case4 => exact (fits.next.ite fits.nothing).after (smaller.expression ‹_›)

theorem reads_embeddings (smaller : ReadingBelow cut whole fuel) (fits : feed.Fits cut whole) :
    Reads cut whole feed (embeddings fuel feed).1 (embeddings fuel feed).2 := by
  fun_cases embeddings fuel feed
  case case1 => exact fits.nothing
  all_goals replace smaller := smaller _ rfl
  case case2 | case3 => exact fits.nothing
  case case4 =>
    have inner := fits.next.after (smaller.expression ‹_›)
    exact ((inner.skipTo ["\x7d"]).skipMark "\x7d").cons (smaller.embeddings ‹_›)
  case case5 => exact fits.next.after (smaller.embeddings rfl)
  case case6 => exact (fits.leaf (by decide)).cons (smaller.embeddings ‹_›)

/-- A text holds no code only if it is closed, or all ends, directly behind its opening. -/
theorem embeddings_eq_nil {behind : Feed} (found : embeddings fuel feed = ([], behind))
    (embedded : ∀ text, feed.peek = some (.mark text) → text = "\x7b" ∨ text = "$\x7b") :
    behind = feed := by
  revert found
  fun_cases embeddings fuel feed
  case case1 | case2 | case3 =>
    rintro ⟨⟩
    rfl
  case case4 | case6 => nofun
  case case5 notCode isMark =>
    rcases embedded _ isMark with rfl | rfl
    · exact absurd rfl notCode
    · exact absurd rfl notCode

/-- A text with embedded code. -/
theorem reads_text {ending : Ending} {children : List Node} {behind : Feed}
    (smaller : Reading cut whole fuel) (fits : feed.Fits cut whole)
    (isNext : feed.peek = some (.opening ending))
    (found : embeddings fuel feed.next = (children, behind)) :
    Reads cut whole feed
      [node (if ending == .quote then .string else .other) feed.start children
        (if behind.peek == some .closing then behind.next else behind)]
      (if behind.peek == some .closing then behind.next else behind) := by
  have inside := fits.next.after (smaller.embeddings found)
  refine (inside.next.ite inside).wrap fits.start.1 fits.start.2 fun isString empty => ?_
  have isQuote : ending = .quote := by
    by_contra other
    rw [if_neg (by simpa using other)] at isString
    cases isString
  subst empty isQuote
  -- No code stands in the text, so its closing token, if there is one, comes next.
  obtain rfl : behind = feed.next := by
    refine embeddings_eq_nil found fun text isMark => ?_
    obtain ⟨token, second, isOpening, isMark, follows, _⟩ := fits.exists_pair isNext isMark
    exact follows.embedded isOpening text isMark
  split
  · next isClosed =>
    obtain ⟨token, second, isOpening, isClosing, follows, inOrder, start, stop⟩ :=
      fits.exists_pair isNext (eq_of_beq isClosed)
    rw [start, stop, Nat.min_eq_left inOrder]
    exact follows.closing isOpening isClosing
  · obtain ⟨token, _, _, isOpening, fitsToken, start, next⟩ := fits.exists_token isNext
    rw [start, next, Nat.min_eq_left fitsToken.ordered]
    exact fitsToken.opening isOpening

theorem reads_primary (smaller : ReadingBelow cut whole fuel) (fits : feed.Fits cut whole) :
    ∀ found ∈ primary fuel feed, Reads cut whole feed [found.1] found.2 := by
  fun_cases primary fuel feed
  case case1 => nofun
  all_goals replace smaller := smaller _ rfl
  case case2 | case8 | case12 | case16 | case17 => nofun
  case case3 | case4 | case6 | case7 | case24 =>
    rintro _ ⟨⟩
    exact fits.leaf (by decide)
  case case5 =>
    rintro _ ⟨⟩
    exact fits.literal ‹_›
  case case9 =>
    rintro _ ⟨⟩
    exact reads_text smaller fits ‹_› ‹_›
  case case10 =>
    rintro _ ⟨⟩
    exact ((fits.next.next.after (smaller.expression ‹_›)).skipMark "\x7d").node fits (by decide)
  case case11 =>
    rintro _ ⟨⟩
    exact (fits.next.after (smaller.primary ‹_›)).node fits (by decide)
  case case13 =>
    rintro _ ⟨⟩
    exact ((fits.next.after (smaller.expression ‹_›)).skipMark ")").node fits (by decide)
  case case14 =>
    rintro _ ⟨⟩
    exact ((fits.next.after (smaller.elements ‹_›)).skipMark "]").node fits (by decide)
  case case15 =>
    rintro _ ⟨⟩
    rename_i isNote _ _ _ _ _ _ _ foundNode _ isMark foundNotes
    rw [eq_of_beq isNote] at isMark
    have notes := smaller.attributes foundNotes fits.next.fits
    exact notes.noted fits isMark (smaller.primary foundNode notes.fits)
  case case18 =>
    rintro _ ⟨⟩
    exact ((fits.next.next.after (smaller.elements ‹_›)).skipMark ")").node fits (by decide)
  case case19 =>
    rintro _ ⟨⟩
    apply Reads.destructured
    exact ((fits.next.next.after (smaller.elements ‹_›)).skipMark ")").node fits (by decide)
  case case20 =>
    rintro _ ⟨⟩
    exact smaller.closure rfl fits.nothing fits.start.1 fits.start.2
  case case21 =>
    rintro _ ⟨⟩
    exact smaller.closure rfl fits.next fits.start.1 fits.start.2
  case case22 =>
    rintro _ ⟨⟩
    exact smaller.creation rfl fits.next fits.start.1 fits.start.2
  case case23 =>
    rintro _ ⟨⟩
    have subject := fits.next.after (smaller.parenthesised ‹_›)
    have arms := (subject.skipMark "\x7b").cons (smaller.matchArms ‹_›)
    exact (arms.skipMark "\x7d").node fits (by decide)

theorem reads_chained {origin : Feed} {first : Node} (smaller : ReadingBelow cut whole fuel)
    (read : Reads cut whole origin [first] feed) :
    Reads cut whole origin [(chained fuel first feed).1] (chained fuel first feed).2 := by
  fun_cases chained fuel first feed
  case case1 => exact read
  all_goals replace smaller := smaller _ rfl
  case case5 | case8 | case11 => exact read
  case case2 => exact smaller.chained rfl ((read.cons (smaller.arguments ‹_›)).extend (by decide))
  case case3 => exact smaller.chained rfl (read.next.next.extend (by decide))
  case case4 =>
    have entry := (read.next.cons (smaller.expression ‹_›)).skipMark "]"
    exact smaller.chained rfl (entry.extend (by decide))
  case case6 | case9 =>
    have call := read.next.cons fun fits =>
      (smaller.memberName ‹_› fits).cons (smaller.arguments ‹_›)
    exact smaller.chained rfl (call.extend (by decide))
  case case7 =>
    have member := read.next.cons (smaller.memberName ‹_›)
    exact smaller.chained rfl (member.extend (by decide))
  case case10 =>
    refine smaller.chained rfl ((read.next.cons (smaller.memberName ‹_›)).extend ?_)
    show (if _ then NodeKind.classConstant else .other) ≠ .string
    split
    · exact nofun
    · exact nofun

theorem reads_memberName (smaller : ReadingBelow cut whole fuel) (fits : feed.Fits cut whole) :
    ∀ found ∈ memberName fuel feed, Reads cut whole feed [found.1] found.2 := by
  fun_cases memberName fuel feed
  case case1 => nofun
  all_goals replace smaller := smaller _ rfl
  case case6 | case7 => nofun
  case case2 | case3 =>
    rintro _ ⟨⟩
    exact fits.leaf (by decide)
  case case4 =>
    rintro _ ⟨⟩
    exact (fits.next.after (smaller.expression ‹_›)).skipMark "\x7d"
  case case5 => exact fun _ found => smaller.primary found fits

/-! ### Lists in brackets -/

theorem reads_parenthesised (smaller : ReadingBelow cut whole fuel) (fits : feed.Fits cut whole) :
    Reads cut whole feed [(parenthesised fuel feed).1] (parenthesised fuel feed).2 := by
  fun_cases parenthesised fuel feed
  case case1 => exact fits.nothing.node fits (by decide)
  all_goals replace smaller := smaller _ rfl
  case case3 => exact fits.nothing.node fits (by decide)
  case case2 =>
    have items := fits.next.after (smaller.headItems ‹_›)
    exact (items.skipMark ")").node fits (by decide)

theorem reads_headItems (targets : Bool) (smaller : ReadingBelow cut whole fuel)
    (fits : feed.Fits cut whole) :
    Reads cut whole feed (headItems fuel targets feed).1 (headItems fuel targets feed).2 := by
  fun_cases headItems fuel targets feed
  case case1 => exact fits.nothing
  all_goals replace smaller := smaller _ rfl
  case case2 => exact fits.nothing
  case case3 | case4 | case6 => exact fits.next.after (smaller.headItems rfl)
  case case5 => exact (smaller.expression ‹_› fits).target.cons (smaller.headItems ‹_›)

theorem reads_arguments (smaller : ReadingBelow cut whole fuel) (fits : feed.Fits cut whole) :
    Reads cut whole feed [(arguments fuel feed).1] (arguments fuel feed).2 := by
  fun_cases arguments fuel feed
  case case1 => exact fits.nothing.node fits (by decide)
  all_goals replace smaller := smaller _ rfl
  case case2 =>
    have given := fits.next.after (smaller.argumentList ‹_›)
    exact (given.skipMark ")").node fits (by decide)

theorem reads_argumentList (smaller : ReadingBelow cut whole fuel) (fits : feed.Fits cut whole) :
    Reads cut whole feed (argumentList fuel feed).1 (argumentList fuel feed).2 := by
  fun_cases argumentList fuel feed
  case case1 => exact fits.nothing
  all_goals replace smaller := smaller _ rfl
  case case2 => exact fits.nothing
  case case3 | case6 => exact fits.next.after (smaller.argumentList rfl)
  case case4 => exact fits.leaf (by decide)
  case case5 =>
    have name : Reads cut whole feed [leaf .name feed] feed.next := fits.leaf (by decide)
    have label := Reads.either ‹_› name.next fits.nothing
    exact (((label.skipMark "&").append (smaller.spreadOr ‹_›)).node fits (by decide)).cons
      (smaller.argumentList ‹_›)

theorem reads_spreadOr (smaller : ReadingBelow cut whole fuel) (fits : feed.Fits cut whole) :
    Reads cut whole feed [(spreadOr fuel feed).1] (spreadOr fuel feed).2 := by
  fun_cases spreadOr fuel feed
  case case1 => exact fits.nothing.node fits (by decide)
  all_goals replace smaller := smaller _ rfl
  case case2 => exact (fits.next.after (smaller.expression ‹_›)).node fits (by decide)
  case case3 => exact smaller.expression rfl fits

theorem reads_elements (smaller : ReadingBelow cut whole fuel) (fits : feed.Fits cut whole) :
    Reads cut whole feed (elements fuel feed).1 (elements fuel feed).2 := by
  fun_cases elements fuel feed
  case case1 => exact fits.nothing
  all_goals replace smaller := smaller _ rfl
  case case2 => exact fits.nothing
  case case3 | case5 => exact fits.next.after (smaller.elements rfl)
  case case4 =>
    have first := smaller.spreadOr ‹_› fits
    have parts := Reads.either ‹_› (first.next.cons (smaller.spreadOr rfl)) first
    exact (parts.node fits (by decide)).cons (smaller.elements ‹_›)

theorem reads_attributes (smaller : ReadingBelow cut whole fuel) (fits : feed.Fits cut whole) :
    Reads cut whole feed (attributes fuel feed).1 (attributes fuel feed).2 := by
  fun_cases attributes fuel feed
  case case1 => exact fits.nothing
  all_goals replace smaller := smaller _ rfl
  case case2 => exact fits.nothing
  case case3 => exact fits.next
  case case4 => exact (smaller.arguments ‹_› fits).cons (smaller.attributes ‹_›)
  case case5 | case6 => exact fits.next.after (smaller.attributes rfl)

theorem reads_matchArms (smaller : ReadingBelow cut whole fuel) (fits : feed.Fits cut whole) :
    Reads cut whole feed (matchArms fuel feed).1 (matchArms fuel feed).2 := by
  fun_cases matchArms fuel feed
  case case1 => exact fits.nothing
  all_goals replace smaller := smaller _ rfl
  case case2 => exact fits.nothing
  case case3 | case5 => exact fits.next.after (smaller.matchArms rfl)
  case case4 => exact (smaller.expression ‹_› fits).cons (smaller.matchArms ‹_›)

/-! ### Functions and objects -/

theorem reads_parameters (smaller : ReadingBelow cut whole fuel) (fits : feed.Fits cut whole) :
    Reads cut whole feed (parameters fuel feed).1 (parameters fuel feed).2 := by
  fun_cases parameters fuel feed
  case case1 => exact fits.nothing
  all_goals replace smaller := smaller _ rfl
  case case3 => exact fits.nothing
  case case2 => exact (fits.next.after (smaller.parameterList ‹_›)).skipMark ")"

theorem reads_parameterList (smaller : ReadingBelow cut whole fuel) (fits : feed.Fits cut whole) :
    Reads cut whole feed (parameterList fuel feed).1 (parameterList fuel feed).2 := by
  fun_cases parameterList fuel feed
  case case1 => exact fits.nothing
  all_goals replace smaller := smaller _ rfl
  case case2 | case3 => exact fits.nothing
  case case4 =>
    exact (fits.next.after (smaller.expression ‹_›)).cons (smaller.parameterList ‹_›)
  case case5 =>
    exact (fits.next.after (smaller.attributes ‹_›)).append (smaller.parameterList ‹_›)
  case case6 => exact (smaller.parameters ‹_› fits).append (smaller.parameterList ‹_›)
  case case7 =>
    have inner := fits.next.after (smaller.members ‹_›)
    exact (inner.skipMark "\x7d").append (smaller.parameterList ‹_›)
  case case8 | case9 => exact fits.next.after (smaller.parameterList rfl)

theorem reads_closure {origin : Feed} {start : Nat} (smaller : ReadingBelow cut whole fuel)
    (read : Reads cut whole origin [] feed) (atCut : cut start) (onward : origin.last ≤ start) :
    Reads cut whole origin [(closure fuel start feed).1] (closure fuel start feed).2 := by
  fun_cases closure fuel start feed
  case case1 => exact read.next.nodeAt atCut onward (by decide)
  all_goals replace smaller := smaller _ rfl
  case case2 =>
    have defaults := (read.next.skipMark "&").after (smaller.parameters ‹_›)
    have captured := Reads.either ‹_› (defaults.fits.next.after (smaller.parameters rfl))
      defaults.fits.nothing
    have head := defaults.append fun _ => captured
    have body := ((head.skipTo ["=>", ";"]).skipMark "=>").append (smaller.expression ‹_›)
    exact body.nodeAt atCut onward (by decide)
  case case3 =>
    have defaults := (read.next.skipMark "&").after (smaller.parameters ‹_›)
    have captured := Reads.either ‹_› (defaults.fits.next.after (smaller.parameters rfl))
      defaults.fits.nothing
    have head := defaults.append fun _ => captured
    have body := (head.skipTo ["\x7b", ";"]).append (smaller.block ‹_›)
    exact body.nodeAt atCut onward (by decide)

theorem reads_creation {origin : Feed} {start : Nat} (smaller : ReadingBelow cut whole fuel)
    (read : Reads cut whole origin [] feed) (atCut : cut start) (onward : origin.last ≤ start) :
    Reads cut whole origin [(creation fuel start feed).1] (creation fuel start feed).2 := by
  fun_cases creation fuel start feed
  case case1 => exact read.nodeAt atCut onward (by decide)
  all_goals replace smaller := smaller _ rfl
  case case2 foundGiven _ _ foundBody _ foundNotes =>
    have notes := Reads.either foundNotes (read.next.after (smaller.attributes rfl)) read
    have named := (notes.next.ite notes).next.append fun fits =>
      Reads.either foundGiven (smaller.arguments rfl fits) fits.nothing
    have body := ((named.skipTo ["\x7b", ";"]).skipMark "\x7b").append (smaller.members foundBody)
    exact (body.skipMark "\x7d").nodeAt atCut onward (by decide)
  case case3 =>
    have notes := Reads.either ‹_› (read.next.after (smaller.attributes rfl)) read
    exact (notes.next.ite notes).nodeAt atCut onward (by decide)
  case case4 =>
    have notes := (Reads.either ‹_› (read.next.after (smaller.attributes rfl)) read).passed
    have made := smaller.accessed ‹_› ((notes.next.ite notes).after (smaller.primary ‹_›))
    exact (made.cons (smaller.arguments ‹_›)).nodeAt atCut onward (by decide)
  case case5 =>
    have notes := (Reads.either ‹_› (read.next.after (smaller.attributes rfl)) read).passed
    have made := smaller.accessed ‹_› ((notes.next.ite notes).after (smaller.primary ‹_›))
    exact made.nodeAt atCut onward (by decide)

theorem reads_accessed {origin : Feed} {first : Node} (smaller : ReadingBelow cut whole fuel)
    (read : Reads cut whole origin [first] feed) :
    Reads cut whole origin [(accessed fuel first feed).1] (accessed fuel first feed).2 := by
  fun_cases accessed fuel first feed
  case case1 => exact read
  all_goals replace smaller := smaller _ rfl
  case case3 | case5 => exact read
  case case2 =>
    have entry := (read.next.cons (smaller.expression ‹_›)).skipMark "]"
    exact smaller.accessed rfl (entry.extend (by decide))
  case case4 =>
    have member := read.next.cons (smaller.memberName ‹_›)
    exact smaller.accessed rfl (member.extend (by decide))

theorem reads_members (smaller : ReadingBelow cut whole fuel) (fits : feed.Fits cut whole) :
    Reads cut whole feed (members fuel feed).1 (members fuel feed).2 := by
  fun_cases members fuel feed
  case case1 => exact fits.nothing
  all_goals replace smaller := smaller _ rfl
  case case2 | case3 => exact fits.nothing
  case case4 => exact (fits.next.after (smaller.expression ‹_›)).cons (smaller.members ‹_›)
  case case5 => exact (fits.next.after (smaller.attributes ‹_›)).append (smaller.members ‹_›)
  case case6 =>
    have inner := fits.next.after (smaller.members ‹_›)
    exact (inner.skipMark "\x7d").append (smaller.members ‹_›)
  case case7 | case9 | case11 | case13 => exact fits.next.after (smaller.members rfl)
  case case8 =>
    exact ((fits.next.after (smaller.method ‹_›)).node fits (by decide)).cons (smaller.members ‹_›)
  case case10 => exact (smaller.primary ‹_› fits).cons (smaller.members ‹_›)
  case case12 => exact (fits.literal ‹_›).cons (smaller.members ‹_›)

theorem reads_method (smaller : ReadingBelow cut whole fuel) (fits : feed.Fits cut whole) :
    Reads cut whole feed (method fuel feed).1 (method fuel feed).2 := by
  fun_cases method fuel feed
  case case1 => exact fits.nothing
  all_goals replace smaller := smaller _ rfl
  case case2 =>
    have defaults := (fits.nothing.skipMark "&").next.after (smaller.parameters ‹_›)
    exact (defaults.skipTo ["\x7b", ";"]).append (smaller.block ‹_›)
  case case3 =>
    have defaults := (fits.nothing.skipMark "&").next.after (smaller.parameters ‹_›)
    exact (defaults.skipTo ["\x7b", ";"]).skipMark ";"

/-! ### Statements -/

theorem reads_block (smaller : ReadingBelow cut whole fuel) (fits : feed.Fits cut whole) :
    Reads cut whole feed [(block fuel feed).1] (block fuel feed).2 := by
  fun_cases block fuel feed
  case case1 => exact fits.nothing.node fits (by decide)
  all_goals replace smaller := smaller _ rfl
  case case3 => exact fits.nothing.node fits (by decide)
  case case2 =>
    have inner := fits.next.after (smaller.statements ‹_›)
    exact (inner.skipMark "\x7d").node fits (by decide)

theorem reads_statements (smaller : ReadingBelow cut whole fuel) (fits : feed.Fits cut whole) :
    Reads cut whole feed (statements fuel feed).1 (statements fuel feed).2 := by
  fun_cases statements fuel feed
  case case1 => exact fits.nothing
  all_goals replace smaller := smaller _ rfl
  case case2 => exact fits.nothing
  case case3 => exact (smaller.statement ‹_› fits).append (smaller.statements ‹_›)
  case case4 => exact fits.next.after (smaller.statements rfl)

theorem reads_statement (smaller : ReadingBelow cut whole fuel) (fits : feed.Fits cut whole) :
    Reads cut whole feed (statement fuel feed).1 (statement fuel feed).2 := by
  fun_cases statement fuel feed
  case case1 => exact fits.nothing
  all_goals replace smaller := smaller _ rfl
  case case2 | case20 => exact fits.next
  case case3 => exact smaller.block ‹_› fits
  case case4 => exact (fits.next.after (smaller.attributes ‹_›)).append (smaller.statement ‹_›)
  case case5 => exact (fits.next.skipMark ";").node fits (by decide)
  case case6 => exact ((fits.next.after (smaller.expression ‹_›)).skipMark ";").node fits (by decide)
  case case7 => exact (fits.next.after (smaller.conditional ‹_›)).node fits (by decide)
  case case8 =>
    have headed := (fits.next.after (smaller.parenthesised ‹_›)).cons (smaller.body ‹_›)
    exact ((headed.next.skipMark ";").ite headed).node fits (by decide)
  case case9 =>
    have inner := fits.next.after (smaller.statement ‹_›)
    have headed := (inner.next.ite inner).append (smaller.parenthesised ‹_›)
    exact (headed.skipMark ";").node fits (by decide)
  case case10 =>
    exact ((fits.next.after (smaller.block ‹_›)).cons (smaller.handlers ‹_›)).node fits (by decide)
  case case11 =>
    have value := fits.next.after (smaller.expression ‹_›)
    exact (value.next.ite (value.skipMark ";")).node fits (by decide)
  case case12 => exact ((fits.skipTo ["\x7b", ";"]).after (smaller.block ‹_›)).node fits (by decide)
  case case13 => exact ((fits.skipTo ["\x7b", ";"]).skipMark ";").node fits (by decide)
  case case14 => exact ((fits.skipTo [";"]).skipMark ";").node fits (by decide)
  case case15 => exact (fits.next.after (smaller.itemList ‹_›)).node fits (by decide)
  case case16 =>
    have opened := (fits.skipTo ["\x7b", ";"]).skipMark "\x7b"
    exact ((opened.after (smaller.members ‹_›)).skipMark "\x7d").node fits (by decide)
  case case17 => exact (fits.next.after (smaller.method ‹_›)).node fits (by decide)
  case case18 => exact fits.next.next
  case case19 => exact ((smaller.expression ‹_› fits).skipMark ";").node fits (by decide)

theorem reads_conditional (smaller : ReadingBelow cut whole fuel) (fits : feed.Fits cut whole) :
    Reads cut whole feed (conditional fuel feed).1 (conditional fuel feed).2 := by
  fun_cases conditional fuel feed
  case case1 => exact fits.nothing
  all_goals replace smaller := smaller _ rfl
  case case2 =>
    exact (smaller.parenthesised ‹_› fits).cons fun fits =>
      (smaller.body ‹_› fits).next.append (smaller.conditional ‹_›)
  case case3 =>
    have both := (smaller.parenthesised ‹_› fits).cons fun fits =>
      (smaller.body ‹_› fits).next.append (smaller.body ‹_›)
    exact (both.next.skipMark ";").ite both
  case case4 =>
    have one := (smaller.parenthesised ‹_› fits).cons (smaller.body ‹_›)
    exact (one.next.skipMark ";").ite one

theorem reads_body (smaller : ReadingBelow cut whole fuel) (fits : feed.Fits cut whole) :
    Reads cut whole feed (body fuel feed).1 (body fuel feed).2.2 := by
  fun_cases body fuel feed
  case case1 => exact fits.nothing
  all_goals replace smaller := smaller _ rfl
  case case2 => exact (fits.next.after (smaller.statements ‹_›)).node fits (by decide)
  case case3 => exact smaller.statement ‹_› fits

theorem reads_handlers (smaller : ReadingBelow cut whole fuel) (fits : feed.Fits cut whole) :
    Reads cut whole feed (handlers fuel feed).1 (handlers fuel feed).2 := by
  fun_cases handlers fuel feed
  case case1 => exact fits.nothing
  all_goals replace smaller := smaller _ rfl
  case case4 => exact fits.nothing
  case case2 =>
    have caught := ((fits.skipTo [")"]).skipMark ")").after (smaller.block ‹_›)
    exact caught.cons (smaller.handlers ‹_›)
  case case3 => exact fits.next.after (smaller.block ‹_›)

theorem reads_itemList (smaller : ReadingBelow cut whole fuel) (fits : feed.Fits cut whole) :
    Reads cut whole feed (itemList fuel feed).1 (itemList fuel feed).2 := by
  fun_cases itemList fuel feed
  case case1 => exact fits.nothing
  all_goals replace smaller := smaller _ rfl
  case case3 => exact fits.nothing
  case case2 => exact fits.next
  case case4 => exact (smaller.expression ‹_› fits).cons (smaller.itemList ‹_›)
  case case5 => exact fits.next.after (smaller.itemList rfl)

/-! ### All functions together -/

/-- What holds at all lower fuels holds at a fuel. -/
theorem reading_of_smaller (smaller : ReadingBelow cut whole fuel) :
    Reading cut whole fuel where
  expression found fits := by simpa only [found] using reads_expression smaller fits
  operands found fits := by simpa only [found] using reads_operands smaller fits
  yielded found fits := by simpa only [found] using reads_yielded smaller fits
  primary found fits := reads_primary smaller fits _ found
  chained found read := by simpa only [found] using reads_chained smaller read
  memberName found fits := reads_memberName smaller fits _ found
  embeddings found fits := by simpa only [found] using reads_embeddings smaller fits
  parenthesised found fits := by simpa only [found] using reads_parenthesised smaller fits
  headItems {_ _ targets _} found fits := by
    simpa only [found] using reads_headItems targets smaller fits
  arguments found fits := by simpa only [found] using reads_arguments smaller fits
  argumentList found fits := by simpa only [found] using reads_argumentList smaller fits
  spreadOr found fits := by simpa only [found] using reads_spreadOr smaller fits
  elements found fits := by simpa only [found] using reads_elements smaller fits
  attributes found fits := by simpa only [found] using reads_attributes smaller fits
  matchArms found fits := by simpa only [found] using reads_matchArms smaller fits
  parameters found fits := by simpa only [found] using reads_parameters smaller fits
  parameterList found fits := by simpa only [found] using reads_parameterList smaller fits
  closure found read atCut onward := by
    simpa only [found] using reads_closure smaller read atCut onward
  creation found read atCut onward := by
    simpa only [found] using reads_creation smaller read atCut onward
  accessed found read := by simpa only [found] using reads_accessed smaller read
  block found fits := by simpa only [found] using reads_block smaller fits
  statements found fits := by simpa only [found] using reads_statements smaller fits
  statement found fits := by simpa only [found] using reads_statement smaller fits
  conditional found fits := by simpa only [found] using reads_conditional smaller fits
  body found fits := by simpa only [found] using reads_body smaller fits
  handlers found fits := by simpa only [found] using reads_handlers smaller fits
  itemList found fits := by simpa only [found] using reads_itemList smaller fits
  members found fits := by simpa only [found] using reads_members smaller fits
  method found fits := by simpa only [found] using reads_method smaller fits

/-- **The parser reads nested nodes**, at every fuel. -/
theorem reading (cut : Nat → Prop) (whole : Span → Prop) (fuel : Nat) : Reading cut whole fuel := by
  induction fuel with
  | zero => exact reading_of_smaller nofun
  | succ fuel ih =>
    refine reading_of_smaller fun less isLess => ?_
    rwa [Nat.succ.inj isLess]

/-- **The statements of a program** form a nested row. -/
theorem row_programStatements {bound : Nat} (within : ∀ offset, cut offset → offset ≤ bound)
    (fuel count : Nat) (fits : feed.Fits cut whole) :
    Node.Row (Sound cut whole) feed.last bound (programStatements fuel count feed) := by
  induction count generalizing feed with
  | zero => exact .nil (within _ fits.last)
  | succ count ih =>
    rw [programStatements]
    split
    · exact .nil (within _ fits.last)
    · split
      · next found behind isFound =>
        have read := (reading cut whole fuel).statements isFound fits
        split
        · exact read.row.append (ih read.fits)
        · exact (ih fits.next.fits).mono fits.next.row.le (Nat.le_refl _)

end Parser

end ArtifactIndex
