/-
**Templates made of blocks.**

A well-formed template is a row of blocks: plain text, comments, echoes and directives with arguments. The
scan for fragments takes each block as a whole, whatever stands before and behind it, so that it finds just
the code that the blocks hold.

* `untilMark_append`: what stands before a mark that is not met earlier;
* `Block`, `cuttings`: the blocks, and the code that a row of them holds;
* `fragmentsFrom_block`: the scan at the start of a block;
* `fragments_blocks`: the fragments of a row of blocks are its code, in order.
-/

import ArtifactIndex.Proofs.Template.Fragments
import ArtifactIndex.Proofs.Template.Groups

namespace ArtifactIndex

namespace Template

/-! ### Marks -/

section Marks

variable {mark body : List Char}

/-- What stands before a mark that is not met earlier: neither in the body, nor in what the body and the
beginning of the mark make together. -/
theorem untilMark_append (given : mark ≠ []) (first : ¬mark <:+: body ++ mark.dropLast) (rest : List Char) :
    untilMark mark (body ++ (mark ++ rest)) = body := by
  induction body with
  | nil =>
    obtain ⟨c, others, rfl⟩ := List.exists_cons_of_ne_nil given
    have starts : (c :: others).isPrefixOf (c :: others ++ rest) = true :=
      List.isPrefixOf_iff_prefix.mpr (List.prefix_append _ _)
    rw [List.nil_append, List.cons_append, untilMark]
    exact if_pos starts
  | cons c body ih =>
    have later : ¬mark <:+: body ++ mark.dropLast := fun inside => first (List.infix_cons inside)
    have noStart : ¬mark.isPrefixOf (c :: (body ++ (mark ++ rest))) = true := by
      rw [List.isPrefixOf_iff_prefix]
      intro starts
      have shorter : c :: body ++ mark.dropLast <+: c :: (body ++ (mark ++ rest)) := by
        rw [← List.cons_append, List.prefix_append_right_inj]
        exact (List.dropLast_prefix mark).trans (List.prefix_append mark rest)
      refine first (List.prefix_of_prefix_length_le starts shorter ?_).isInfix
      rw [List.length_append, List.length_cons, List.length_dropLast]
      omega
    rw [List.cons_append, untilMark, if_neg noStart, ih later]

/-- The characters up to and with the mark. -/
theorem pastMark_append (given : mark ≠ []) (first : ¬mark <:+: body ++ mark.dropLast) (rest : List Char) :
    pastMark mark (body ++ (mark ++ rest)) = body.length + mark.length := by
  rw [pastMark, untilMark_append given first]
  simp only [List.length_append]
  omega

/-- A list does not end like one whose last character is another one. -/
theorem not_suffix_concat {c d : Char} (differ : c ≠ d) (before after : List Char) :
    ¬before ++ [c] <:+ after ++ [d] := by
  rintro ⟨ahead, shape⟩
  rw [← List.append_assoc] at shape
  exact differ (List.cons.inj (List.append_inj' shape rfl).2).1

/-- A mark is not met in what comes behind the body, when its last character does not stand there. -/
theorem not_infix_append (before : List Char) {c : Char} {tail : List Char} (absent : c ∉ tail)
    (free : ¬before ++ [c] <:+: body) : ¬before ++ [c] <:+: body ++ tail := by
  induction tail using List.reverseRecOn with
  | nil => rwa [List.append_nil]
  | append_singleton tail d ih =>
    rw [List.mem_append, List.mem_singleton, not_or] at absent
    rw [← List.append_assoc, List.infix_concat_iff, not_or]
    exact ⟨not_suffix_concat absent.2 _ _, ih absent.1⟩

/-- The end of an echo is not met earlier. -/
theorem not_infix_echoEnd (free : ¬['}', '}'] <:+: body) (ends : body.getLast? ≠ some '}') :
    ¬['}', '}'] <:+: body ++ ['}'] := by
  rw [List.infix_concat_iff, not_or]
  refine ⟨?_, free⟩
  rintro ⟨before, shape⟩
  have cut : before ++ ['}'] = body := by
    rw [← List.append_cancel_right_eq _ ['}'], List.append_assoc]
    exact shape
  exact ends (by rw [← cut, List.getLast?_concat])

/-- The end of a raw echo is not met earlier. -/
theorem not_infix_rawEchoEnd (free : ¬['!', '!', '}'] <:+: body) :
    ¬['!', '!', '}'] <:+: body ++ ['!', '!'] :=
  not_infix_append ['!', '!'] (by decide : '}' ∉ ['!', '!']) free

/-- The end of a comment is not met earlier. -/
theorem not_infix_commentEnd (free : ¬['-', '-', '}', '}'] <:+: body) :
    ¬['-', '-', '}', '}'] <:+: body ++ ['-', '-', '}'] := by
  have shape : body ++ ['-', '-', '}'] = body ++ ['-'] ++ ['-'] ++ ['}'] := by simp
  rw [shape, List.infix_concat_iff, not_or]
  constructor
  · rintro ⟨before, shape⟩
    have cut : before ++ ['-', '-', '}'] = body ++ ['-'] ++ ['-'] := by
      rw [← List.append_cancel_right_eq _ ['}'], List.append_assoc]
      exact shape
    exact not_suffix_concat (by decide : '}' ≠ '-') ['-', '-'] _ ⟨before, cut⟩
  · rw [List.append_assoc]
    exact not_infix_append ['-', '-', '}'] (by decide : '}' ∉ ['-', '-']) free

end Marks

/-! ### Blocks -/

/-- The name of a directive: letters, digits and underscores, no digit first. -/
structure IsDirectiveName (name : List Char) : Prop where
  inside : ∀ c ∈ name, insideDirective c = true
  starts : ∃ first others, name = first :: others ∧ first.isDigit = false

/-- **A block of a template.** -/
inductive Block where
  | plain (text : List Char) (free : ∀ c ∈ text, c ≠ '{' ∧ c ≠ '@' ∧ c ≠ '<')
  | comment (body : List Char) (free : ¬['-', '-', '}', '}'] <:+: body)
  | echo (body : List Char) (noComment : ¬['-', '-'] <+: body) (free : ¬['}', '}'] <:+: body)
      (ends : body.getLast? ≠ some '}')
  | rawEcho (body : List Char) (free : ¬['!', '!', '}'] <:+: body)
  | directive (name blanks arguments : List Char) (named : IsDirectiveName name)
      (blank : ∀ c ∈ blanks, c = ' ' ∨ c = '\t') (balanced : Balanced arguments)

/-- A piece of code in a template: its form and place, and the code itself. -/
structure Cutting where
  kind : FragmentKind
  directive : Option String
  start : Nat
  body : String
deriving DecidableEq

namespace Block

/-- The block as it is written. -/
def written : Block → List Char
  | plain text _ => text
  | comment body _ => ['{', '{', '-', '-'] ++ body ++ ['-', '-', '}', '}']
  | echo body _ _ _ => ['{', '{'] ++ body ++ ['}', '}']
  | rawEcho body _ => ['{', '!', '!'] ++ body ++ ['!', '!', '}']
  | directive name blanks arguments _ _ _ => '@' :: (name ++ blanks ++ ['('] ++ arguments ++ [')'])

/-- The code of a block that starts at an offset. -/
def cutting? (offset : Nat) : Block → Option Cutting
  | plain _ _ => none
  | comment _ _ => none
  | echo body _ _ _ => some ⟨.echo, none, offset + 2, String.ofList body⟩
  | rawEcho body _ => some ⟨.rawEcho, none, offset + 3, String.ofList body⟩
  | directive name blanks arguments _ _ _ => some ⟨.directive, some (String.ofList name),
      offset + byteCount ('@' :: (name ++ blanks ++ ['('])), String.ofList arguments⟩

/-- The block is a directive. -/
def IsDirective : Block → Prop
  | directive .. => True
  | _ => False

end Block

/-- The code of a row of blocks that starts at an offset. -/
def cuttings (offset : Nat) : List Block → List Cutting
  | [] => []
  | block :: rest => (block.cutting? offset).toList ++ cuttings (offset + byteCount block.written) rest

end Template

/-- The code of a fragment and its place; `none` when the fragment's range is no slice of its program. -/
def Fragment.cutting? (fragment : Fragment) : Option Template.Cutting :=
  (slice? fragment.code fragment.lead (fragment.lead + fragment.length)).map fun body =>
    ⟨fragment.kind, fragment.directive, fragment.start, body⟩

namespace Template

/-! ### The scan at one block -/

section Scan

variable {before chars rest : List Char} {offset : Nat}

/-- The code of a piece is found in its fragment. -/
theorem CodePiece.cutting?_toFragment (code : CodePiece) :
    (code.toFragment before offset chars).cutting? = some ⟨code.kind, code.directive,
      offset + byteCount (chars.take code.skipped), String.ofList code.content⟩ := by
  have shape : (code.toFragment before offset chars).code.toList =
      code.opening.toList ++ code.content ++ code.closing.toList := by
    simp [toFragment]
  have sliced := slice?_middle shape
  rw [← byteLength_eq] at sliced
  exact congrArg (Option.map _) sliced

/-- **A piece is taken as a whole.** -/
theorem fragmentsFrom_append (given : chars ≠ []) {code : Option CodePiece}
    (isPiece : pieceAt before.head? (chars ++ rest) = ⟨chars.length, code⟩) :
    fragmentsFrom before offset (chars ++ rest) =
      (code.map fun code => code.toFragment before offset (chars ++ rest)).toList ++
        fragmentsFrom (chars.reverse ++ before) (offset + byteCount chars) rest := by
  obtain ⟨c, others, rfl⟩ := List.exists_cons_of_ne_nil given
  have whole : max 1 (c :: others).length = (c :: others).length := by
    rw [List.length_cons]
    omega
  rw [List.cons_append] at isPiece ⊢
  rw [fragmentsFrom]
  simp only [isPiece, whole]
  rw [← List.cons_append, List.take_left, List.drop_left]

/-- Code between two marks. -/
theorem between_append {kind : FragmentKind} {opens mark body : List Char} {opening closing : String}
    {directive : Option String} {inMarkup : Bool} (given : mark ≠ [])
    (first : ¬mark <:+: body ++ mark.dropLast) :
    Piece.between kind opens.length mark opening closing directive inMarkup
        (opens ++ (body ++ (mark ++ rest))) =
      ⟨(opens ++ body ++ mark).length,
        some ⟨kind, opens.length, body, opening, closing, directive, inMarkup⟩⟩ := by
  simp only [Piece.between, List.drop_left, untilMark_append given first, pastMark_append given first,
    List.length_append, Nat.add_assoc]

theorem pieceAt_comment {body : List Char} (free : ¬['-', '-', '}', '}'] <:+: body)
    (previous : Option Char) :
    pieceAt previous (['{', '{', '-', '-'] ++ (body ++ (['-', '-', '}', '}'] ++ rest))) =
      ⟨(['{', '{', '-', '-'] ++ body ++ ['-', '-', '}', '}']).length, none⟩ := by
  have past := pastMark_append (by decide) (not_infix_commentEnd free) rest
  have isComment : pieceAt previous (['{', '{', '-', '-'] ++ (body ++ (['-', '-', '}', '}'] ++ rest))) =
      .plain (4 + pastMark ['-', '-', '}', '}'] (body ++ (['-', '-', '}', '}'] ++ rest))) := by
    simp [pieceAt]
  rw [isComment, past, List.length_append, List.length_append, Nat.add_assoc]
  rfl

theorem pieceAt_rawEcho {body : List Char} (free : ¬['!', '!', '}'] <:+: body) (previous : Option Char) :
    pieceAt previous (['{', '!', '!'] ++ (body ++ (['!', '!', '}'] ++ rest))) =
      ⟨(['{', '!', '!'] ++ body ++ ['!', '!', '}']).length,
        some ⟨.rawEcho, 3, body, programOpening, ";", none, true⟩⟩ := by
  have isEcho : pieceAt previous (['{', '!', '!'] ++ (body ++ (['!', '!', '}'] ++ rest))) =
      .between .rawEcho ['{', '!', '!'].length ['!', '!', '}'] programOpening ";" none true
        (['{', '!', '!'] ++ (body ++ (['!', '!', '}'] ++ rest))) := by
    simp [pieceAt]
  exact isEcho.trans (between_append (by decide) (not_infix_rawEchoEnd free))

theorem pieceAt_echo {body : List Char} (noComment : ¬['-', '-'] <+: body) (free : ¬['}', '}'] <:+: body)
    (ends : body.getLast? ≠ some '}') (previous : Option Char) :
    pieceAt previous (['{', '{'] ++ (body ++ (['}', '}'] ++ rest))) =
      ⟨(['{', '{'] ++ body ++ ['}', '}']).length,
        some ⟨.echo, 2, body, programOpening, ";", none, true⟩⟩ := by
  -- The braces behind a body do not make a comment of it.
  have noMark : ¬['-', '-'] <+: body ++ '}' :: '}' :: rest := by
    intro starts
    match body, noComment, starts with
    | [], _, starts => simp at starts
    | [c], _, starts => simp at starts
    | c :: d :: body, noComment, starts => exact noComment (by simpa using starts)
  have isEcho : pieceAt previous (['{', '{'] ++ (body ++ (['}', '}'] ++ rest))) =
      .between .echo ['{', '{'].length ['}', '}'] programOpening ";" none true
        (['{', '{'] ++ (body ++ (['}', '}'] ++ rest))) := by
    simp [pieceAt, noMark]
  exact isEcho.trans (between_append (by decide) (not_infix_echoEnd free ends))

/-- A run of characters that pass a test, before one that does not. -/
theorem takeWhile_run {test : Char → Bool} {run : List Char} {c : Char} (passes : ∀ d ∈ run, test d = true)
    (fails : test c = false) : (run ++ c :: rest).takeWhile test = run := by
  rw [List.takeWhile_append_of_pos passes,
    List.takeWhile_cons_of_neg (by rw [fails]; exact Bool.false_ne_true), List.append_nil]

/-- A directive with balanced arguments is cut out at its sign. -/
theorem directivePiece?_append {name blanks arguments : List Char} (named : IsDirectiveName name)
    (blank : ∀ c ∈ blanks, c = ' ' ∨ c = '\t') (balanced : Balanced arguments) :
    directivePiece? ('@' :: (name ++ (blanks ++ '(' :: (arguments ++ ')' :: rest)))) =
      some ⟨1 + name.length + blanks.length + arguments.length + 2,
        some ⟨.directive, 1 + name.length + blanks.length + 1, arguments,
          programOpening ++ directiveFunction ++ "(", ");", some (String.ofList name), true⟩⟩ := by
  have isName : (name ++ (blanks ++ '(' :: (arguments ++ ')' :: rest))).takeWhile insideDirective = name := by
    cases blanks with
    | nil => exact takeWhile_run named.inside (by decide)
    | cons c others =>
      refine takeWhile_run named.inside ?_
      rcases blank c List.mem_cons_self with rfl | rfl <;> decide
  have areBlanks : (blanks ++ '(' :: (arguments ++ ')' :: rest)).takeWhile
      (fun c => c == ' ' || c == '\t') = blanks := by
    refine takeWhile_run (fun c inside => ?_) (by decide)
    rcases blank c inside with rfl | rfl <;> decide
  have opens : ('@' :: (name ++ (blanks ++ '(' :: (arguments ++ ')' :: rest)))).drop
      (1 + name.length + blanks.length) = '(' :: (arguments ++ ')' :: rest) := by
    rw [Nat.add_assoc, Nat.add_comm 1, List.drop_succ_cons, ← List.append_assoc, ← List.length_append,
      List.drop_left]
  obtain ⟨first, others, shape, noDigit⟩ := named.starts
  unfold directivePiece?
  simp only [List.drop_succ_cons, List.drop_zero, isName, List.drop_left, areBlanks, opens,
    groupLength?_of_balanced balanced, Option.map_some, List.take_left]
  subst shape
  simp only [noDigit, Bool.false_eq_true, if_false]

theorem pieceAt_directive {name blanks arguments : List Char} (named : IsDirectiveName name)
    (blank : ∀ c ∈ blanks, c = ' ' ∨ c = '\t') (balanced : Balanced arguments) {previous : Option Char}
    (apart : previous.any insideDirective = false) :
    pieceAt previous ('@' :: (name ++ (blanks ++ '(' :: (arguments ++ ')' :: rest)))) =
      ⟨1 + name.length + blanks.length + arguments.length + 2,
        some ⟨.directive, 1 + name.length + blanks.length + 1, arguments,
          programOpening ++ directiveFunction ++ "(", ");", some (String.ofList name), true⟩⟩ := by
  have isDirective : directivePiece? ('@' :: (name ++ (blanks ++ '(' :: (arguments ++ ')' :: rest)))) = _ :=
    directivePiece?_append named blank balanced
  obtain ⟨first, others, rfl, -⟩ := named.starts
  have isInside := named.inside first List.mem_cons_self
  have noBrace : '{' ≠ first := by
    rintro rfl
    revert isInside
    decide
  have noSign : '@' ≠ first := by
    rintro rfl
    revert isInside
    decide
  rw [pieceAt, isDirective]
  simp [noBrace, noSign, apart]

/-- Plain text holds no code. -/
theorem pieceAt_plain {c : Char} (free : c ≠ '{' ∧ c ≠ '@' ∧ c ≠ '<') (previous : Option Char) :
    pieceAt previous (c :: rest) = ⟨1, none⟩ := by
  obtain ⟨noBrace, noSign, noTag⟩ := free
  simp [pieceAt, noBrace.symm, noSign.symm, noTag.symm, noSign]
  rfl

theorem fragmentsFrom_plain {text : List Char} (free : ∀ c ∈ text, c ≠ '{' ∧ c ≠ '@' ∧ c ≠ '<') :
    fragmentsFrom before offset (text ++ rest) =
      fragmentsFrom (text.reverse ++ before) (offset + byteCount text) rest := by
  induction text generalizing before offset with
  | nil => rfl
  | cons c text ih =>
    have isPiece : pieceAt before.head? ([c] ++ (text ++ rest)) = ⟨[c].length, none⟩ :=
      pieceAt_plain (free c List.mem_cons_self) _
    rw [List.cons_append, ← List.singleton_append, fragmentsFrom_append (List.cons_ne_nil c []) isPiece,
      Option.map_none, Option.toList_none, List.nil_append,
      ih fun d inside => free d (List.mem_cons_of_mem c inside)]
    simp [Nat.add_assoc]

/-- A piece with code is taken as a whole, and its code is found. -/
theorem exists_found_of_pieceAt {opens : List Char} {code : CodePiece} (given : chars ≠ [])
    (isPiece : pieceAt before.head? (chars ++ rest) = ⟨chars.length, some code⟩)
    (skips : (chars ++ rest).take code.skipped = opens) :
    ∃ found, fragmentsFrom before offset (chars ++ rest) =
        found ++ fragmentsFrom (chars.reverse ++ before) (offset + byteCount chars) rest ∧
      found.map Fragment.cutting? =
        [some ⟨code.kind, code.directive, offset + byteCount opens, String.ofList code.content⟩] := by
  refine ⟨_, fragmentsFrom_append given isPiece, ?_⟩
  rw [Option.map_some, Option.toList_some, List.map_singleton, code.cutting?_toFragment, skips]

/-- **The scan at the start of a block** takes the block as a whole and finds its code, whatever stands
behind it. -/
theorem fragmentsFrom_block (block : Block)
    (apart : block.IsDirective → before.head?.any insideDirective = false) :
    ∃ found, fragmentsFrom before offset (block.written ++ rest) =
        found ++ fragmentsFrom (block.written.reverse ++ before) (offset + byteCount block.written) rest ∧
      found.map Fragment.cutting? = (block.cutting? offset).toList.map some := by
  cases block with
  | plain text free => exact ⟨[], fragmentsFrom_plain free, rfl⟩
  | comment body free =>
    have isPiece : pieceAt before.head? ((Block.comment body free).written ++ rest) =
        ⟨(Block.comment body free).written.length, none⟩ := by
      rw [Block.written, List.append_assoc, List.append_assoc]
      exact pieceAt_comment free _
    exact ⟨[], fragmentsFrom_append (List.cons_ne_nil _ _) isPiece, rfl⟩
  | echo body noComment free ends =>
    have isPiece : pieceAt before.head? ((Block.echo body noComment free ends).written ++ rest) =
        ⟨(Block.echo body noComment free ends).written.length,
          some ⟨.echo, 2, body, programOpening, ";", none, true⟩⟩ := by
      rw [Block.written, List.append_assoc, List.append_assoc]
      exact pieceAt_echo noComment free ends _
    exact exists_found_of_pieceAt (List.cons_ne_nil _ _) isPiece rfl
  | rawEcho body free =>
    have isPiece : pieceAt before.head? ((Block.rawEcho body free).written ++ rest) =
        ⟨(Block.rawEcho body free).written.length,
          some ⟨.rawEcho, 3, body, programOpening, ";", none, true⟩⟩ := by
      rw [Block.written, List.append_assoc, List.append_assoc]
      exact pieceAt_rawEcho free _
    exact exists_found_of_pieceAt (List.cons_ne_nil _ _) isPiece rfl
  | directive name blanks arguments named blank balanced =>
    have isPiece : pieceAt before.head?
        ((Block.directive name blanks arguments named blank balanced).written ++ rest) =
          ⟨(Block.directive name blanks arguments named blank balanced).written.length,
            some ⟨.directive, 1 + name.length + blanks.length + 1, arguments,
              programOpening ++ directiveFunction ++ "(", ");", some (String.ofList name), true⟩⟩ := by
      have shape : (Block.directive name blanks arguments named blank balanced).written ++ rest =
          '@' :: (name ++ (blanks ++ '(' :: (arguments ++ ')' :: rest))) := by
        simp [Block.written]
      rw [shape, pieceAt_directive named blank balanced (apart trivial), Piece.mk.injEq]
      refine ⟨?_, rfl⟩
      simp only [Block.written, List.length_cons, List.length_append, List.length_nil]
      omega
    have skips : ((Block.directive name blanks arguments named blank balanced).written ++ rest).take
        (1 + name.length + blanks.length + 1) = '@' :: (name ++ blanks ++ ['(']) := by
      have shape : (Block.directive name blanks arguments named blank balanced).written ++ rest =
          '@' :: (name ++ blanks ++ ['(']) ++ (arguments ++ ')' :: rest) := by
        simp [Block.written]
      rw [shape]
      refine List.take_left' ?_
      simp only [List.length_cons, List.length_append, List.length_nil]
      omega
    exact exists_found_of_pieceAt (List.cons_ne_nil _ _) isPiece skips

end Scan

/-! ### Rows of blocks -/

/-- A row of blocks as it is written. -/
def writtenRow (blocks : List Block) : List Char := blocks.flatMap Block.written

/-- **No directive stands behind a letter, a digit or an underscore**, in a row behind the given text. -/
def Spaced (before : List Char) : List Block → Prop
  | [] => True
  | block :: rest => (block.IsDirective → ∀ c ∈ before.getLast?, insideDirective c = false) ∧
      Spaced (before ++ block.written) rest

/-- **The scan of a row of blocks**, behind a text that it has taken already. -/
theorem fragmentsFrom_row (before : List Char) (blocks : List Block) (spaced : Spaced before blocks) :
    (fragmentsFrom before.reverse (byteCount before) (writtenRow blocks)).map Fragment.cutting? =
      (cuttings (byteCount before) blocks).map some := by
  induction blocks generalizing before with
  | nil =>
    rw [show writtenRow [] = [] from rfl, fragmentsFrom]
    rfl
  | cons block blocks ih =>
    obtain ⟨known, spaced⟩ := spaced
    have apart : block.IsDirective → before.reverse.head?.any insideDirective = false := by
      intro isDirective
      rw [List.head?_reverse]
      cases last : before.getLast? with
      | none => rfl
      | some c => exact known isDirective c last
    obtain ⟨found, scanned, isFound⟩ := fragmentsFrom_block block apart
    have later := ih (before ++ block.written) spaced
    rw [List.reverse_append, byteCount_append] at later
    rw [show writtenRow (block :: blocks) = block.written ++ writtenRow blocks from List.flatMap_cons,
      scanned, List.map_append, isFound, later, cuttings, List.map_append]

end Template

/-- **A well-formed template is read back.** The fragments of a row of blocks are the code of its echoes and
directives, one for each of them and in their order, with its form, its place and the code itself; plain
text and comments have none. -/
theorem fragments_blocks {blocks : List Template.Block} (spaced : Template.Spaced [] blocks) :
    (fragments (String.ofList (Template.writtenRow blocks))).map Fragment.cutting? =
      (Template.cuttings 0 blocks).map some := by
  rw [fragments, String.toList_ofList]
  exact Template.fragmentsFrom_row [] blocks spaced

/-- All forms of blocks in a row, with marks of one inside another. -/
theorem fragments_blocks_mixed :
    let blocks : List Template.Block :=
      [.comment ['@', 'x', '(', '{', '{'] (by decide),
        .echo ['$', 'a', '}', ';'] (by decide) (by decide) (by decide),
        .plain ['é', ' '] (by simp), .rawEcho ['!'] (by decide),
        .directive ['i', 'f'] [' '] ['f', '(', '\'', ')', '\'', ')'] ⟨List.all_eq_true.mp rfl, 'i', ['f'], rfl, rfl⟩
          (by simp) (.plain (by decide) (by decide) (by decide)
            (.group (.quoted (.inl rfl) (.plain (by decide) (by decide) .nil) .nil) .nil))]
    String.ofList (Template.writtenRow blocks) =
        "\x7b\x7b--@x(\x7b\x7b--\x7d\x7d\x7b\x7b$a\x7d;\x7d\x7dé \x7b!!!!!\x7d@if (f(')'))" ∧
      Template.Spaced [] blocks ∧
      (fragments (String.ofList (Template.writtenRow blocks))).map Fragment.cutting? =
        [some ⟨.echo, none, 15, "$a\x7d;"⟩, some ⟨.rawEcho, none, 27, "!"⟩,
          some ⟨.directive, some "if", 36, "f(')')"⟩] := by
  intro blocks
  have spaced : Template.Spaced [] blocks :=
    ⟨nofun, nofun, nofun, nofun, fun _ c last => by cases last; decide, trivial⟩
  have expected : (Template.cuttings 0 blocks).map some =
      [some ⟨.echo, none, 15, "$a\x7d;"⟩, some ⟨.rawEcho, none, 27, "!"⟩,
        some ⟨.directive, some "if", 36, "f(')')"⟩] := by decide +kernel
  exact ⟨by decide +kernel, spaced, (fragments_blocks spaced).trans expected⟩

end ArtifactIndex
