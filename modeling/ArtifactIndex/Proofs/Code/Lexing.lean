/-
**Where tokens stand.**

The lexer goes over a text from left to right. What one step can do is said once (`Step.Fits`), and
carried along the whole run: tokens and comments stand in their order, between characters, and no token
starts or stops inside a comment.

* `fits_step`: what one step can do;
* `scanned_run`: what all steps together give;
* `scanned_tokenize`: the same for a whole file.
-/

import ArtifactIndex.Proofs.Code.Feed
import ArtifactIndex.Proofs.Code.Quotation

namespace ArtifactIndex

namespace Lexer

/-! ### One step -/

/-- The characters of a lexeme: literals stand between quotes, a text opens with its quote, and an
attribute with its mark. -/
structure LexemeFits (lexeme : Lexeme) (taken : List Char) (modes : List Mode) : Prop where
  literal : lexeme = .literal →
    taken.head? ∈ [some '\'', some 'b', some 'B'] ∧ taken.getLast? = some '\''
  opening : lexeme = .opening .quote →
    taken ∈ [['"'], ['b', '"'], ['B', '"']] ∧ ∃ outer, modes = .within .quote false :: outer
  note : lexeme = .mark "#[" → taken.head? = some '#'

/-- **What one step can do**: skip characters, keep a comment with tokens around it that take no
characters, or take a token. -/
inductive Step.Fits (rest : List Char) : Step → Prop
  | skip {length : Nat} {modes : List Mode} : Step.Fits rest (.skip length modes)
  | comment {length : Nat} {before behind : Option Lexeme} {modes : List Mode}
      (semicolon : ∀ lexeme ∈ before, lexeme = .mark ";")
      (echo : ∀ lexeme ∈ behind, lexeme = .word "echo") :
      Step.Fits rest ⟨none, true, length, before, behind, modes⟩
  | token {lexeme : Lexeme} {length : Nat} {modes : List Mode}
      (shape : LexemeFits lexeme (rest.take (max 1 length)) modes) :
      Step.Fits rest (.token lexeme length modes)

/-- The characters up to the quote that closes a literal end with it. -/
theorem getLast?_literalLength? {chars : List Char} {length : Nat}
    (found : literalLength? chars = some length) : (chars.take length).getLast? = some '\'' := by
  induction chars using literalLength?.induct generalizing length with
  | case1 => cases found
  | case2 c rest ih =>
    rw [literalLength?] at found
    obtain ⟨inner, isInner, rfl⟩ := Option.map_eq_some_iff.mp found
    rw [List.take_succ_cons, List.take_succ_cons, List.getLast?_cons, List.getLast?_cons, ih isInner]
    rfl
  | case3 =>
    rw [literalLength?] at found
    cases found
    rfl
  | case4 c rest notEscaped notQuote ih =>
    rw [literalLength?] at found
    · obtain ⟨inner, isInner, rfl⟩ := Option.map_eq_some_iff.mp found
      rw [List.take_succ_cons, List.getLast?_cons, ih isInner]
      rfl
    · exact notEscaped
    · exact notQuote

theorem fits_literalStep {modes : List Mode} {opening : Nat} {rest : List Char}
    (opens : (rest.take opening).head? ∈ [some '\'', some 'b', some 'B']) :
    (literalStep modes opening rest).Fits rest := by
  unfold literalStep
  split
  · next length found =>
    refine .token ⟨fun _ => ?_, nofun, nofun⟩
    have last := getLast?_literalLength? found
    have some_opening : 0 < opening := by
      by_contra none
      rw [Nat.eq_zero_of_not_pos none] at opens
      simp at opens
    rw [Nat.max_eq_right (by omega), List.take_add]
    constructor
    · rwa [List.head?_append_of_ne_nil]
      rintro empty
      rw [empty] at opens
      simp at opens
    · rw [List.getLast?_append, last]
      rfl
  · exact .token ⟨nofun, nofun, nofun⟩

theorem fits_textStep {modes : List Mode} {rest : List Char} : (textStep modes rest).Fits rest := by
  unfold textStep
  split
  · next length writes _ =>
    refine .comment (by rintro _ ⟨⟩; rfl) ?_
    split
    · rintro _ ⟨⟩
      rfl
    · nofun
  · exact .comment (by rintro _ ⟨⟩; rfl) nofun

/-- The first of the characters taken, when it is known of those counted. -/
theorem head?_take_max {length : Nat} {c : Char} {chars more : List Char}
    (counted : chars.take length = c :: more) : (chars.take (max 1 length)).head? = some c := by
  cases length with
  | zero => cases counted
  | succ length =>
    rw [Nat.max_eq_right (by omega), counted]
    rfl

theorem fits_plainStep {modes : List Mode} {c : Char} {tail : List Char} :
    (plainStep modes c tail).Fits (c :: tail) := by
  fun_cases plainStep modes c tail
  case case8 =>
    refine .token ⟨nofun, nofun, fun isNote => ?_⟩
    have text := congrArg String.toList (Lexeme.mark.inj isNote)
    rw [String.toList_ofList] at text
    exact head?_take_max text
  all_goals exact .token ⟨nofun, nofun, nofun⟩

theorem fits_quoteStep {modes : List Mode} {c : Char} {tail : List Char} :
    (quoteStep modes c tail).Fits (c :: tail) := by
  fun_cases quoteStep modes c tail
  case case1 opens =>
    rw [opens]
    exact fits_literalStep (.head _)
  case case2 opens =>
    refine fits_literalStep ?_
    rcases opens.1 with rfl | rfl
    · exact .tail _ (.head _)
    · exact .tail _ (.tail _ (.head _))
  case case3 opens =>
    rw [opens]
    exact .token ⟨nofun, fun _ => ⟨.head _, _, rfl⟩, nofun⟩
  case case4 opens =>
    refine .token ⟨nofun, fun _ => ⟨?_, _, rfl⟩, nofun⟩
    obtain ⟨behind, rfl⟩ := List.head?_eq_some_iff.mp opens.2
    rcases opens.1 with rfl | rfl
    · exact .tail _ (.head _)
    · exact .tail _ (.tail _ (.head _))
  case case5 => exact .token ⟨nofun, nofun, nofun⟩
  case case6 => exact fits_plainStep

theorem fits_codeStep {modes : List Mode} {rest : List Char} : (codeStep modes rest).Fits rest := by
  unfold codeStep
  split
  · exact .skip
  · split
    · exact .skip
    · split
      · exact fits_textStep
      · split
        · exact .comment nofun nofun
        · exact fits_quoteStep

theorem fits_withinStep {ending : Ending} {lineStart : Bool} {outer : List Mode} {rest : List Char} :
    (withinStep ending lineStart outer rest).Fits rest := by
  fun_cases withinStep ending lineStart outer rest
  case case1 | case3 | case7 => exact .token ⟨nofun, nofun, nofun⟩
  case case8 | case9 => exact .token ⟨nofun, nofun, fun isNote => absurd isNote (by decide)⟩
  all_goals exact .skip

/-- **What one step does**, in any mode. -/
theorem fits_step {modes : List Mode} {rest : List Char} : (step modes rest).Fits rest := by
  unfold step
  split
  · exact fits_withinStep
  · exact fits_codeStep

/-- A step inside double quotes: the quote that closes them, characters of the text, or embedded
code. -/
theorem withinStep_quote (lineStart : Bool) (outer : List Mode) (c : Char) (tail : List Char) :
    (c = '"' ∧ withinStep .quote lineStart outer (c :: tail) = .token .closing 1 outer) ∨
    (∃ length atStart, withinStep .quote lineStart outer (c :: tail) =
      .skip length (.within .quote atStart :: outer)) ∨
    ∃ lexeme length modes, withinStep .quote lineStart outer (c :: tail) = .token lexeme length modes ∧
      lexeme ∈ [.embedded, .mark "\x7b", .mark "$\x7b"] := by
  unfold withinStep
  dsimp only
  split
  · next isQuote =>
    refine .inl ⟨?_, rfl⟩
    rcases isQuote with ⟨rfl, _⟩ | ⟨_, other⟩
    · rfl
    · cases other
  · split
    · split
      · split
        · exact .inr (.inl ⟨_, _, rfl⟩)
        · exact .inr (.inl ⟨_, _, rfl⟩)
      · exact .inr (.inl ⟨_, _, rfl⟩)
    · split
      · exact .inr (.inr ⟨_, _, _, rfl, .head _⟩)
      · split
        · exact .inr (.inr ⟨_, _, _, rfl, .tail _ (.tail _ (.head _))⟩)
        · split
          · exact .inr (.inr ⟨_, _, _, rfl, .tail _ (.head _)⟩)
          · split
            · exact .inr (.inl ⟨_, _, rfl⟩)
            · exact .inr (.inl ⟨_, _, rfl⟩)

/-! ### Streams -/

/-- The offset stands between two characters of the text, and not inside a comment. -/
def Cut (source : String) (comments : List Span) (offset : Nat) : Prop :=
  Boundary source offset ∧ ∀ comment ∈ comments, offset ≤ comment.start ∨ comment.stop ≤ offset

/-- **Scanned streams.** Tokens and comments stand in their order behind an offset, and none of them
starts or stops inside a comment. -/
structure Scanned (source : String) (offset : Nat) (stream : TokenStream) : Prop where
  boundary : Boundary source offset
  tokens : ∀ token ∈ stream.tokens, offset ≤ token.span.start ∧
    Parser.TokenFits (Cut source stream.comments) (Unpadded source) token
  chain : stream.tokens.IsChain (Parser.Follows (Unpadded source))
  comments : ∀ comment ∈ stream.comments, offset ≤ comment.start ∧ comment.start < comment.stop ∧
    Cut source stream.comments comment.start ∧ Cut source stream.comments comment.stop

namespace Scanned

variable {source : String} {start stop : Nat} {stream : TokenStream}

theorem empty (boundary : Boundary source start) : Scanned source start ⟨[], []⟩ :=
  ⟨boundary, nofun, .nil, nofun⟩

theorem mono (scanned : Scanned source stop stream) (boundary : Boundary source start)
    (ordered : start ≤ stop) : Scanned source start stream := by
  refine ⟨boundary, fun token listed => ?_, scanned.chain, fun comment listed => ?_⟩
  · obtain ⟨behind, fits⟩ := scanned.tokens token listed
    exact ⟨by omega, fits⟩
  · obtain ⟨behind, more⟩ := scanned.comments comment listed
    exact ⟨by omega, more⟩

/-- All offsets up to the start of a stream are cuts of its comments. -/
theorem cut (scanned : Scanned source stop stream) (boundary : Boundary source start)
    (ordered : start ≤ stop) : Cut source stream.comments start := by
  refine ⟨boundary, fun comment listed => .inl ?_⟩
  have := (scanned.comments comment listed).1
  omega

/-- A comment before a stream. -/
theorem cons_comment (scanned : Scanned source stop stream) (boundary : Boundary source start)
    (ordered : start < stop) :
    Scanned source start ⟨stream.tokens, ⟨start, stop⟩ :: stream.comments⟩ := by
  have grown : ∀ offset, stop ≤ offset → Cut source stream.comments offset →
      Cut source (⟨start, stop⟩ :: stream.comments) offset := by
    intro offset behind isCut
    refine ⟨isCut.1, fun comment listed => ?_⟩
    rcases List.mem_cons.mp listed with rfl | later
    · exact .inr behind
    · exact isCut.2 comment later
  have startCut : Cut source (⟨start, stop⟩ :: stream.comments) start := by
    refine ⟨boundary, fun comment listed => .inl ?_⟩
    rcases List.mem_cons.mp listed with rfl | later
    · exact Nat.le_refl _
    · have := (scanned.comments comment later).1
      omega
  refine ⟨boundary, fun token listed => ?_, scanned.chain, fun comment listed => ?_⟩
  · obtain ⟨behind, fits⟩ := scanned.tokens token listed
    refine ⟨by omega, fits.ordered, grown _ behind fits.start, ?_, fits.literal, fits.opening, ?_⟩
    · exact grown _ (Nat.le_trans behind fits.ordered) fits.stop
    · intro isNote offset isCut onward
      exact fits.note isNote offset
        ⟨isCut.1, fun comment later => isCut.2 comment (List.mem_cons_of_mem _ later)⟩ onward
  · rcases List.mem_cons.mp listed with rfl | later
    · refine ⟨Nat.le_refl _, ordered, startCut, ?_⟩
      exact grown _ (Nat.le_refl _) (scanned.cut scanned.boundary (Nat.le_refl _))
    · obtain ⟨behind, nonempty, atStart, atStop⟩ := scanned.comments comment later
      exact ⟨by omega, nonempty, grown _ behind atStart, grown _ (by omega) atStop⟩

/-- A token before a stream. -/
theorem cons_token {lexeme : Lexeme} (scanned : Scanned source stop stream)
    (boundary : Boundary source start) (ordered : start ≤ stop)
    (literal : lexeme = .literal → Unpadded source ⟨start, stop⟩)
    (opening : lexeme = .opening .quote → Unpadded source ⟨start, stop⟩)
    (note : lexeme = .mark "#[" → ∀ offset, Boundary source offset → start ≤ offset →
      Unpadded source ⟨start, offset⟩)
    (closing : lexeme = .opening .quote → ∀ next ∈ stream.tokens.head?,
      (next.lexeme = .closing → Unpadded source ⟨start, next.span.stop⟩) ∧
        ∀ text, next.lexeme = .mark text → text = "\x7b" ∨ text = "$\x7b") :
    Scanned source start ⟨⟨lexeme, ⟨start, stop⟩⟩ :: stream.tokens, stream.comments⟩ := by
  refine ⟨boundary, fun token listed => ?_, scanned.chain.cons ?_, fun comment listed => ?_⟩
  · rcases List.mem_cons.mp listed with rfl | later
    · refine ⟨Nat.le_refl _, ordered, scanned.cut boundary ordered, ?_, literal, opening, ?_⟩
      · exact scanned.cut scanned.boundary (Nat.le_refl _)
      · exact fun isNote offset isCut onward => note isNote offset isCut.1 onward
    · obtain ⟨behind, fits⟩ := scanned.tokens token later
      exact ⟨by omega, fits⟩
  · intro next isNext
    have behind := (scanned.tokens next (List.mem_of_mem_head? isNext)).1
    exact ⟨behind, fun isOpening => (closing isOpening next isNext).1,
      fun isOpening => (closing isOpening next isNext).2⟩
  · obtain ⟨behind, more⟩ := scanned.comments comment listed
    exact ⟨by omega, more⟩

/-- A token of no interest before a stream. -/
theorem cons_plain {lexeme : Lexeme} (scanned : Scanned source stop stream)
    (plain : lexeme ∈ [.mark ";", .word "echo"]) :
    Scanned source stop ⟨⟨lexeme, ⟨stop, stop⟩⟩ :: stream.tokens, stream.comments⟩ := by
  have other : lexeme ≠ .literal ∧ lexeme ≠ .opening .quote ∧ lexeme ≠ .mark "#[" := by
    simp only [List.mem_cons, List.not_mem_nil, or_false] at plain
    rcases plain with rfl | rfl
    · decide
    · decide
  exact scanned.cons_token scanned.boundary (Nat.le_refl _) (absurd · other.1) (absurd · other.2.1)
    (absurd · other.2.2) (absurd · other.2.1)

end Scanned

/-! ### Runs -/

/-- The first token inside double quotes: the quote that closes them, or embedded code. -/
theorem head?_run_within (fuel : Nat) (lineStart : Bool) (outer : List Mode) (offset : Nat)
    (rest : List Char) :
    ∀ token ∈ (run fuel (.within .quote lineStart :: outer) offset rest).tokens.head?,
      (token.lexeme = .closing ∧ ∃ inner post, rest = inner ++ '"' :: post ∧
        token.span.stop = offset + byteCount (inner ++ ['"'])) ∨
      token.lexeme ∈ [.embedded, .mark "\x7b", .mark "$\x7b"] := by
  induction fuel generalizing lineStart offset rest with
  | zero => nofun
  | succ fuel ih =>
    cases rest with
    | nil => nofun
    | cons c tail =>
      intro token isFirst
      rw [run] at isFirst
      · rcases withinStep_quote lineStart outer c tail with
          ⟨rfl, isStep⟩ | ⟨length, atStart, isStep⟩ | ⟨lexeme, length, modes, isStep, code⟩
        · rw [step, isStep] at isFirst
          cases isFirst
          exact .inl ⟨rfl, [], tail, rfl, rfl⟩
        · rw [step, isStep] at isFirst
          rcases ih _ _ _ token isFirst with ⟨isClosing, inner, post, split, stop⟩ | code
          · refine .inl ⟨isClosing, (c :: tail).take (max 1 length) ++ inner, post, ?_, ?_⟩
            · rw [List.append_assoc, ← split, Step.skip, List.take_append_drop]
            · rw [stop, List.append_assoc, byteCount_append _ (inner ++ _), Step.skip, Nat.add_assoc]
          · exact .inr code
        · rw [step, isStep] at isFirst
          cases isFirst
          exact .inr code
      · nofun

/-- A range that starts like a literal and ends with a quote holds no padded literal. -/
theorem unpadded_quotes {source : String} {before middle behind : List Char}
    (shape : source.toList = before ++ middle ++ behind)
    (opens : middle.head? ∈ [some '\'', some '"', some 'b', some 'B'])
    (closes : middle.getLast? ∈ [some '\'', some '"']) :
    Unpadded source ⟨byteCount before, byteCount before + byteCount middle⟩ := by
  refine unpadded_of_ends shape (fun c isFirst => ?_) (fun c isLast => ?_)
  · rw [isFirst] at opens
    simp only [List.mem_cons, Option.some.injEq, List.not_mem_nil, or_false] at opens
    rcases opens with rfl | rfl | rfl | rfl
    all_goals decide
  · rw [isLast] at closes
    simp only [List.mem_cons, Option.some.injEq, List.not_mem_nil, or_false] at closes
    rcases closes with rfl | rfl
    all_goals decide

/-- The characters that open a text with embedded code, and those that it starts with. -/
theorem opening_ends {taken : List Char} (opens : taken ∈ [['"'], ['b', '"'], ['B', '"']]) :
    taken.head? ∈ [some '\'', some '"', some 'b', some 'B'] ∧ taken.getLast? = some '"' ∧
      taken ≠ [] := by
  simp only [List.mem_cons, List.not_mem_nil, or_false] at opens
  rcases opens with rfl | rfl | rfl
  all_goals decide

/-- **One step of a run.** A token before what the rest of the run gives. -/
theorem Scanned.token {source : String} {before taken rest : List Char} {lexeme : Lexeme}
    {modes : List Mode} {fuel : Nat} (shape : source.toList = before ++ (taken ++ rest))
    (fits : LexemeFits lexeme taken modes)
    (later : Scanned source (byteCount before + byteCount taken)
      (run fuel modes (byteCount before + byteCount taken) rest)) :
    Scanned source (byteCount before)
      ⟨⟨lexeme, ⟨byteCount before, byteCount before + byteCount taken⟩⟩ ::
        (run fuel modes (byteCount before + byteCount taken) rest).tokens,
        (run fuel modes (byteCount before + byteCount taken) rest).comments⟩ := by
  have shapeToo : source.toList = before ++ taken ++ rest := by rw [shape, List.append_assoc]
  refine later.cons_token ⟨before, _, shape, rfl⟩ (Nat.le_add_right _ _) ?_ ?_ ?_ ?_
  · intro isLiteral
    obtain ⟨opens, closes⟩ := fits.literal isLiteral
    refine unpadded_quotes shapeToo ?_ (by rw [closes]; exact .head _)
    revert opens
    simp only [List.mem_cons, List.not_mem_nil, or_false]
    rintro (isQuote | isMark)
    · exact .inl isQuote
    · exact .inr (.inr isMark)
  · intro isOpening
    obtain ⟨opens, closes, _⟩ := opening_ends (fits.opening isOpening).1
    exact unpadded_quotes shapeToo opens (by rw [closes]; exact .tail _ (.head _))
  · intro isNote offset boundary onward
    obtain ⟨more, rfl⟩ := List.head?_eq_some_iff.mp (fits.note isNote)
    exact unpadded_of_head shape boundary onward (by decide) (by decide) (by decide)
  · intro isOpening next isNext
    obtain ⟨opens, outer, rfl⟩ := fits.opening isOpening
    obtain ⟨atStart, _, nonempty⟩ := opening_ends opens
    rcases head?_run_within _ _ _ _ _ next isNext with ⟨isClosing, inner, post, rfl, stop⟩ | code
    · refine ⟨fun _ => ?_, fun text isMark => ?_⟩
      · -- The whole literal: what opens it, the characters inside and the closing quote.
        have whole : source.toList = before ++ (taken ++ (inner ++ ['"'])) ++ post := by
          rw [shape]
          simp only [List.append_assoc, List.singleton_append]
        rw [stop, Nat.add_assoc, ← byteCount_append taken]
        refine unpadded_quotes whole ?_ ?_
        · rwa [List.head?_append_of_ne_nil _ nonempty]
        · rw [← List.append_assoc, List.getLast?_concat]
          exact .tail _ (.head _)
      · rw [isClosing] at isMark
        cases isMark
    · refine ⟨fun isClosing => ?_, fun text isMark => ?_⟩
      · rw [isClosing] at code
        simp at code
      · rw [isMark] at code
        simpa using code

/-- **What all steps together give.** -/
theorem scanned_run {source : String} (fuel : Nat) (modes : List Mode) {before rest : List Char}
    (shape : source.toList = before ++ rest) :
    Scanned source (byteCount before) (run fuel modes (byteCount before) rest) := by
  induction fuel generalizing modes before rest with
  | zero => exact .empty ⟨before, rest, shape, rfl⟩
  | succ fuel ih =>
    have boundary : Boundary source (byteCount before) := ⟨before, rest, shape, rfl⟩
    cases rest with
    | nil => exact .empty boundary
    | cons c tail =>
      rw [run]
      · have fits : (step modes (c :: tail)).Fits (c :: tail) := fits_step
        generalize step modes (c :: tail) = found at fits
        dsimp only
        generalize isTaken : (c :: tail).take (max 1 found.length) = taken
        generalize isRest : (c :: tail).drop (max 1 found.length) = rest
        have split : c :: tail = taken ++ rest := by rw [← isTaken, ← isRest, List.take_append_drop]
        have nonempty : taken ≠ [] := by
          rw [← isTaken]
          simp
        rw [split] at shape
        have later : Scanned source (byteCount (before ++ taken))
            (run fuel found.modes (byteCount (before ++ taken)) rest) :=
          ih found.modes (by rw [shape, List.append_assoc])
        rw [byteCount_append] at later
        have onward := byteCount_pos nonempty
        cases fits with
        | skip => exact later.mono boundary (by omega)
        | @comment _ first last _ semicolon echo =>
          cases last with
          | none =>
            have noted := later.cons_comment boundary (by omega)
            cases first with
            | none => exact noted
            | some lexeme =>
              rw [semicolon lexeme rfl]
              exact noted.cons_plain (.head _)
          | some lexeme =>
            rw [echo lexeme rfl]
            have echoed := later.cons_plain (.tail (Lexeme.mark ";") (.head []))
            have noted := echoed.cons_comment boundary (by omega)
            cases first with
            | none => exact noted
            | some lexeme =>
              rw [semicolon lexeme rfl]
              exact noted.cons_plain (.head _)
        | token fitsToken => exact Scanned.token shape (isTaken ▸ fitsToken) later
      · nofun

/-- **The tokens of a file** and its comments. -/
theorem scanned_tokenize (source : String) : Scanned source 0 (tokenize source) := by
  unfold tokenize
  dsimp only
  split
  · exact .empty .zero
  · next length writes found =>
    have shape : source.toList = source.toList.take length ++ source.toList.drop length :=
      (List.take_append_drop ..).symm
    have scanned := scanned_run (source.toList.length + 1) [.code] shape
    split
    · exact (scanned.cons_plain (.tail _ (.head _))).mono .zero (Nat.zero_le _)
    · exact scanned.mono .zero (Nat.zero_le _)

/-- The parser is fed with fitting tokens. -/
theorem fits_tokenize (source : String) :
    Parser.Feed.Fits (Cut source (tokenize source).comments) (Unpadded source)
      ⟨(tokenize source).tokens, 0, 0⟩ := by
  have scanned := scanned_tokenize source
  refine ⟨scanned.cut .zero (Nat.le_refl _), fun token listed => ?_, scanned.chain, ?_⟩
  · exact (scanned.tokens token listed).2
  · exact fun token _ => Nat.zero_le _

end Lexer

end ArtifactIndex
