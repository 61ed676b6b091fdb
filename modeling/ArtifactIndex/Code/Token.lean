/-
**Tokens of program text.**

A PHP file is text with code between tags. `Lexer.tokenize` gives the tokens of the code, each with
its range of bytes, and beside them the ranges of comments and of the text between two pieces of
code.

Quoted texts with `$` in them are code again inside: the lexer keeps a stack of modes, code inside
quotes inside code, so that the tokens of an embedded expression stand between the opening and the
closing token of the text that holds it.
-/

import ArtifactIndex.Text.Basic

namespace ArtifactIndex

/-- What closes a text with embedded code. -/
inductive Ending where
  /-- A double quote. -/
  | quote
  /-- A backtick. -/
  | shell
  /-- A line that starts, blanks aside, with a label. -/
  | label (name : List Char)
deriving Repr, DecidableEq

/-- What a token is. -/
inductive Lexeme where
  /-- A name, possibly qualified by backslashes, or a keyword. -/
  | word (text : String)
  /-- A variable with its dollar sign. -/
  | variable
  /-- A number. -/
  | number
  /-- A whole literal in single quotes. -/
  | literal
  /-- A whole text that is neither literal nor code. -/
  | inert
  /-- The start of a text with embedded code. -/
  | opening (ending : Ending)
  /-- The end of such a text. -/
  | closing
  /-- A variable embedded without braces. -/
  | embedded
  /-- An operator, bracket or separator. -/
  | mark (text : String)
deriving Repr, DecidableEq

/-- A lexeme and the bytes it takes. -/
structure Token where
  lexeme : Lexeme
  span : Span
deriving Repr, DecidableEq

/-- The tokens of a text, and the ranges that are skipped like blanks but belong to the tree. -/
structure TokenStream where
  tokens : List Token
  comments : List Span
deriving Repr

namespace Lexer

/-! ### Characters -/

/-- Characters between tokens. -/
def isGap (c : Char) : Bool :=
  let code := c.toNat
  code == 0x20 || (0x09 ≤ code && code ≤ 0x0D) || code == 0xA0 || code == 0x200B || code == 0x2060 ||
    code == 0xFEFF

/-- Characters that start a name. -/
def startsName (c : Char) : Bool :=
  c.isAlpha || c == '_' || (c.toNat ≥ 0x80 && !isGap c)

/-- Characters inside a name. -/
def insideName (c : Char) : Bool := startsName c || c.isDigit

/-- The grave accent. -/
def graveAccent : Char := Char.ofNat 96

/-- The text begins with a name. -/
def namesNext : List Char → Bool
  | c :: _ => startsName c
  | [] => false

/-! ### Pieces of text

Each function gives the number of characters that a piece at the start of a text takes. -/

/-- A comment up to the end of its line, or to a closing tag before it. -/
def lineCommentLength : List Char → Nat
  | [] => 0
  | c :: rest =>
    if c = '\n' ∨ c = '\r' then 0
    else if c = '?' then
      match rest with
      | '>' :: _ => 0
      | '\n' :: _ => 2
      | '\r' :: '\n' :: _ => 3
      | '\r' :: _ => 0
      | _ :: behind => lineCommentLength behind + 2
      | [] => 0
    else lineCommentLength rest + 1

/-- A comment behind its opening mark, up to and with its closing one. `none` when nothing closes
it: then the mark opens no comment, and its characters are those of two operators. -/
def blockCommentLength? : List Char → Option Nat
  | [] => none
  | '*' :: '/' :: _ => some 2
  | _ :: rest => (blockCommentLength? rest).map (· + 1)

/-- The comment at the start of a text. A number sign before a bracket opens an attribute. -/
def commentLength? : List Char → Option Nat
  | '/' :: '/' :: rest => some (lineCommentLength rest + 2)
  | '/' :: '*' :: rest => (blockCommentLength? rest).map (· + 2)
  | '#' :: '[' :: _ => none
  | '#' :: c :: rest => some (if c = '?' ∨ c = '\n' ∨ c = '\r' then 1 else lineCommentLength rest + 2)
  | ['#'] => some 1
  | _ => none

/-- A literal behind its opening single quote, up to and with the closing one; a backslash takes the
next character with it. `none` when no quote closes it. -/
def literalLength? : List Char → Option Nat
  | [] => none
  | '\\' :: _ :: rest => (literalLength? rest).map (· + 2)
  | '\'' :: _ => some 1
  | _ :: rest => (literalLength? rest).map (· + 1)

/-- The tag that opens code, if the text starts with one: its length and whether the code's value
is written out. -/
def openTag? (text : List Char) : Option (Nat × Bool) :=
  match text with
  | '<' :: '?' :: '=' :: _ => some (3, true)
  | '<' :: '?' :: p :: h :: q :: _ =>
    if p.toLower = 'p' ∧ h.toLower = 'h' ∧ q.toLower = 'p' then some (5, false) else some (2, false)
  | '<' :: '?' :: _ => some (2, false)
  | _ => none

/-- The text up to and with the next opening tag, and whether that tag writes out a value; `none`
when no further tag follows. -/
def toOpenTag? : List Char → Option (Nat × Bool)
  | [] => none
  | c :: rest =>
    match openTag? (c :: rest) with
    | some found => some found
    | none => (toOpenTag? rest).map fun found => (found.1 + 1, found.2)

/-- The digits, letters and inner points of a number. -/
def numberLength : List Char → Nat
  | [] => 0
  | '.' :: c :: rest => if c.isDigit then numberLength rest + 2 else 0
  | 'e' :: '-' :: c :: rest => if c.isDigit then numberLength rest + 3 else 1
  | 'E' :: '-' :: c :: rest => if c.isDigit then numberLength rest + 3 else 1
  | 'e' :: '+' :: c :: rest => if c.isDigit then numberLength rest + 3 else 1
  | 'E' :: '+' :: c :: rest => if c.isDigit then numberLength rest + 3 else 1
  | c :: rest => if c.isAlphanum || c == '_' then numberLength rest + 1 else 0

/-- A name with its qualifying parts, from a name or a backslash on. The flag says that a backslash
may come next. -/
def wordLength (separable : Bool) : List Char → Nat
  | [] => 0
  | '\\' :: c :: rest =>
    if separable && startsName c then wordLength true rest + 2 else 0
  | c :: rest => if insideName c then wordLength true rest + 1 else 0

/-- Blanks within a line. -/
def isIndent (c : Char) : Bool := c == ' ' || c == '\t'

/-- The label that closes a text stands at the start of this line. -/
def labelLength? (label line : List Char) : Option Nat :=
  let indent := line.takeWhile isIndent
  match label.isPrefixOf? (line.dropWhile isIndent) with
  | some behind =>
    match behind with
    | c :: _ => if insideName c then none else some (indent.length + label.length)
    | [] => some (indent.length + label.length)
  | none => none

/-- The length of a text up to and with its closing label, read from the start of a line. -/
def toLabelLength (label : List Char) (lineStart : Bool) : List Char → Nat
  | [] => 0
  | c :: rest =>
    match (if lineStart then labelLength? label (c :: rest) else none) with
    | some length => length
    | none => toLabelLength label (c == '\n') rest + 1

/-- The opening line of a labelled text: its length, its label, and whether it holds no embedded
code. -/
def labelOpening? (text : List Char) : Option (Nat × List Char × Bool) :=
  match text with
  | '<' :: '<' :: '<' :: rest =>
    let indent := (rest.takeWhile isIndent).length
    let body := rest.dropWhile isIndent
    let (quoteLength, plain, body) :=
      match body with
      | '\'' :: inner => (1, true, inner)
      | '"' :: inner => (1, false, inner)
      | _ => (0, false, body)
    let label := body.takeWhile insideName
    let behind := (body.dropWhile insideName).drop quoteLength
    let lineEnd :=
      match behind with
      | '\r' :: '\n' :: _ => some 2
      | '\n' :: _ => some 1
      | '\r' :: _ => some 1
      | _ => none
    match label, lineEnd with
    | _ :: _, some ending =>
      some (3 + indent + 2 * quoteLength + label.length + ending, label, plain)
    | _, _ => none
  | _ => none

/-- What may follow an embedded variable's name: one subscript or one property. -/
def accessLength (text : List Char) : Nat :=
  let isKey := fun c : Char => insideName c || c == '-' || c == '$'
  match text with
  | '[' :: rest =>
    let key := rest.takeWhile isKey
    match rest.dropWhile isKey with
    | ']' :: _ => if key.isEmpty then 0 else key.length + 2
    | _ => 0
  | '-' :: '>' :: rest => if namesNext rest then 2 + (rest.takeWhile insideName).length else 0
  | '?' :: '-' :: '>' :: rest => if namesNext rest then 3 + (rest.takeWhile insideName).length else 0
  | _ => 0

/-- The operators of more than one character, longer ones first. -/
def longMarks : List (List Char) :=
  ["<<=", ">>=", "**=", "...", "<=>", "===", "!==", "??=", "?->", "::", "->", "=>", "++", "--", "==",
    "!=", "<>", "<=", ">=", "&&", "||", "??", "+=", "-=", "*=", "/=", ".=", "%=", "&=", "|=", "^=",
    "<<", ">>", "**", "#["].map String.toList

/-- The operator, bracket or separator at the start of a text. -/
def markLength (text : List Char) : Nat :=
  match longMarks.find? (·.isPrefixOf text) with
  | some mark => mark.length
  | none => 1

/-! ### Steps -/

/-- Where the lexer stands: in code, or in a text with embedded code. The flag of a text says that a
line starts here. -/
inductive Mode where
  | code
  | within (ending : Ending) (lineStart : Bool)
deriving Repr, DecidableEq

/-- One step: what it emits, the characters it takes and the modes it leaves behind. -/
structure Step where
  /-- The lexeme of the characters taken, if they make one. -/
  lexeme : Option Lexeme
  /-- The characters taken are to be kept as a comment. -/
  comment : Bool
  /-- The number of characters taken. -/
  length : Nat
  /-- A lexeme without characters before the step's own. -/
  before : Option Lexeme
  /-- A lexeme without characters behind the step's own. -/
  behind : Option Lexeme
  /-- The modes after the step, innermost first. -/
  modes : List Mode

namespace Step

/-- Takes characters as one token. -/
def token (lexeme : Lexeme) (length : Nat) (modes : List Mode) : Step :=
  ⟨some lexeme, false, length, none, none, modes⟩

/-- Takes characters that are no token. -/
def skip (length : Nat) (modes : List Mode) : Step :=
  ⟨none, false, length, none, none, modes⟩

/-- Takes characters as a comment. -/
def note (length : Nat) (modes : List Mode) : Step :=
  ⟨none, true, length, none, none, modes⟩

end Step

/-- The modes when a text with embedded code goes on behind some of it, not at a line's start. -/
def onLine : List Mode → List Mode
  | .within ending _ :: outer => .within ending false :: outer
  | modes => modes

/-- The modes behind a closing brace: the innermost code ends if there is other around it. -/
def closeBrace : List Mode → List Mode
  | .code :: next :: outer => onLine (next :: outer)
  | modes => modes

/-- The text between two pieces of code, which ends a statement like a semicolon. -/
def textStep (modes : List Mode) (rest : List Char) : Step :=
  match toOpenTag? rest with
  | some (length, writes) =>
    ⟨none, true, length, some (.mark ";"), if writes then some (.word "echo") else none, modes⟩
  | none => ⟨none, true, rest.length, some (.mark ";"), none, modes⟩

/-- A literal in single quotes behind its opening characters; one that nothing closes is no literal
and takes all that is left. -/
def literalStep (modes : List Mode) (opening : Nat) (rest : List Char) : Step :=
  match literalLength? (rest.drop opening) with
  | some length => .token .literal (opening + length) modes
  | none => .token .inert rest.length modes

/-- A step inside code at a labelled text, a name, a number or a mark. -/
def plainStep (modes : List Mode) (c : Char) (tail : List Char) : Step :=
  match labelOpening? (c :: tail) with
  | some (length, label, plain) =>
    if plain then .token .inert (length + toLabelLength label true ((c :: tail).drop length)) modes
    else .token (.opening (.label label)) length (.within (.label label) true :: modes)
  | none =>
    if c = '$' ∧ namesNext tail then
      .token .variable (1 + (tail.takeWhile insideName).length) modes
    else if startsName c ∨ (c = '\\' ∧ namesNext tail) then
      let length := wordLength true (c :: tail)
      .token (.word (String.ofList ((c :: tail).take length))) length modes
    else if c.isDigit ∨ (c = '.' ∧ (tail.head?.map Char.isDigit) = some true) then
      .token .number (max 1 (numberLength (c :: tail))) modes
    else if c = '{' then .token (.mark "\x7b") 1 (.code :: modes)
    else if c = '}' then .token (.mark "\x7d") 1 (closeBrace modes)
    else
      let length := markLength (c :: tail)
      .token (.mark (String.ofList ((c :: tail).take length))) length modes

/-- A step inside code at a quote, or at what else is neither gap nor comment. -/
def quoteStep (modes : List Mode) (c : Char) (tail : List Char) : Step :=
  if c = '\'' then literalStep modes 1 (c :: tail)
  else if (c = 'b' ∨ c = 'B') ∧ tail.head? = some '\'' then literalStep modes 2 (c :: tail)
  else if c = '"' then .token (.opening .quote) 1 (.within .quote false :: modes)
  else if (c = 'b' ∨ c = 'B') ∧ tail.head? = some '"' then
    .token (.opening .quote) 2 (.within .quote false :: modes)
  else if c = graveAccent then .token (.opening .shell) 1 (.within .shell false :: modes)
  else plainStep modes c tail

/-- A step inside code. -/
def codeStep (modes : List Mode) (rest : List Char) : Step :=
  match rest with
  | [] => .skip 0 modes
  | c :: tail =>
    if isGap c then .skip (rest.takeWhile isGap).length modes
    else if c = '?' ∧ tail.head? = some '>' then textStep modes rest
    else
      match commentLength? rest with
      | some length => .note length modes
      | none => quoteStep modes c tail

/-- A step inside a text with embedded code. -/
def withinStep (ending : Ending) (lineStart : Bool) (outer : List Mode) (rest : List Char) : Step :=
  let here := Mode.within ending false :: outer
  let labelled :=
    match ending with
    | .label label => if lineStart then labelLength? label rest else none
    | _ => none
  match labelled with
  | some length => .token .closing length outer
  | none =>
    match rest with
    | [] => .skip 0 here
    | c :: tail =>
      if (c = '"' ∧ ending = .quote) ∨ (c = graveAccent ∧ ending = .shell) then
        .token .closing 1 outer
      else if c = '\\' then
        match tail with
        | d :: _ => if d = '\n' ∨ d = '\r' then .skip 1 here else .skip 2 here
        | [] => .skip 1 here
      else if c = '$' ∧ namesNext tail then
        let name := (tail.takeWhile insideName).length
        .token .embedded (1 + name + accessLength (tail.drop name)) here
      else if c = '$' ∧ tail.head? = some '{' then .token (.mark "$\x7b") 2 (.code :: here)
      else if c = '{' ∧ tail.head? = some '$' then .token (.mark "\x7b") 1 (.code :: here)
      else if c = '\n' then .skip 1 (.within ending true :: outer)
      else .skip 1 here

/-- The step of the innermost mode. -/
def step (modes : List Mode) (rest : List Char) : Step :=
  match modes with
  | .within ending lineStart :: outer => withinStep ending lineStart outer rest
  | _ => codeStep modes rest

/-- The tokens and comments from an offset on. Each step takes at least one character, so the
length of the text is fuel enough. -/
def run : Nat → List Mode → Nat → List Char → TokenStream
  | 0, _, _, _ => ⟨[], []⟩
  | _ + 1, _, _, [] => ⟨[], []⟩
  | fuel + 1, modes, offset, rest =>
    let found := step modes rest
    let taken := rest.take (max 1 found.length)
    let stop := offset + byteCount taken
    let later := run fuel found.modes stop (rest.drop (max 1 found.length))
    let tokenAt := fun (lexeme : Option Lexeme) (span : Span) =>
      match lexeme with
      | some lexeme => [(⟨lexeme, span⟩ : Token)]
      | none => []
    { tokens := tokenAt found.before ⟨offset, offset⟩ ++ tokenAt found.lexeme ⟨offset, stop⟩ ++
        tokenAt found.behind ⟨stop, stop⟩ ++ later.tokens
      comments := if found.comment then ⟨offset, stop⟩ :: later.comments else later.comments }

/-- The tokens of a file: none before its first opening tag. -/
def tokenize (text : String) : TokenStream :=
  let chars := text.toList
  match toOpenTag? chars with
  | none => ⟨[], []⟩
  | some (length, writes) =>
    let start := byteCount (chars.take length)
    let stream := run (chars.length + 1) [.code] start (chars.drop length)
    if writes then { stream with tokens := ⟨.word "echo", ⟨start, start⟩⟩ :: stream.tokens } else stream

end Lexer

end ArtifactIndex
