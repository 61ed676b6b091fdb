/-
**From tokens to trees.**

`Node.ofSource` reads a program as a tree. The tree keeps what the rest of the library asks about:
calls and their arguments, arrays and their entries, literals, class constants, functions without
names and the nesting of statements. Operators only matter in that they make one expression out of
several, so an expression with an operator is one node over its operands.

Every function takes what it can and goes on, so that any text has a tree. The fuel bounds the
nesting of calls; `Node.ofSource` gives enough for the number of tokens.
-/

import ArtifactIndex.Code.Token
import ArtifactIndex.Code.Node

namespace ArtifactIndex

namespace Parser

/-- The tokens that are left, the offset behind the last one taken and the number taken. -/
structure Feed where
  tokens : List Token
  last : Nat
  taken : Nat

namespace Feed

/-- The next lexeme. -/
def peek (feed : Feed) : Option Lexeme :=
  feed.tokens.head?.map Token.lexeme

/-- The lexeme behind the next one. -/
def peekSecond (feed : Feed) : Option Lexeme :=
  (feed.tokens.drop 1).head?.map Token.lexeme

/-- The lexeme behind the next two. -/
def peekThird (feed : Feed) : Option Lexeme :=
  (feed.tokens.drop 2).head?.map Token.lexeme

/-- The offset at which the next token starts. -/
def start (feed : Feed) : Nat :=
  match feed.tokens with
  | token :: _ => token.span.start
  | [] => feed.last

/-- The feed behind the next token. -/
def next (feed : Feed) : Feed :=
  match feed.tokens with
  | token :: rest => ⟨rest, token.span.stop, feed.taken + 1⟩
  | [] => feed

/-- The next token is the given mark. -/
def atMark (feed : Feed) (text : String) : Bool :=
  feed.peek == some (.mark text)

/-- The next token is the given keyword, in any case. -/
def atWord (feed : Feed) (keyword : String) : Bool :=
  match feed.peek with
  | some (.word text) => lowered text == keyword
  | _ => false

/-- The feed behind the given mark, if that comes next. -/
def skipMark (feed : Feed) (text : String) : Feed :=
  if feed.atMark text then feed.next else feed

/-- Nothing is left, or a bracket closes here. -/
def atEnd (feed : Feed) : Bool :=
  match feed.peek with
  | none => true
  | some .closing => true
  | some (.mark text) => text == ")" || text == "]" || text == "\x7d"
  | _ => false

end Feed

/-- A node over the tokens from an offset to the last one taken. Its range holds those of its
children, and a node over no tokens is empty. -/
def node (kind : NodeKind) (start : Nat) (children : List Node) (feed : Feed) : Node :=
  let first := (children.head?.map (·.span.start)).getD feed.last
  .mk kind ⟨min start first, feed.last⟩ "" children

/-- A node over the next token. -/
def leaf (kind : NodeKind) (feed : Feed) : Node :=
  node kind feed.start [] feed.next

mutual

/-- An array read as the left side of an assignment: its entries stand directly in it. -/
def destructured : Node → Node
  | .mk .array span text children => .mk .other span text (destructuredEntries children)
  | other => other

/-- The parts of the entries of an array on the left side of an assignment. -/
def destructuredEntries : List Node → List Node
  | [] => []
  | .mk .element _ _ parts :: rest => destructuredParts parts ++ destructuredEntries rest
  | other :: rest => other :: destructuredEntries rest

/-- The key and the target of an entry on the left side of an assignment. -/
def destructuredParts : List Node → List Node
  | [] => []
  | part :: rest => destructured part :: destructuredParts rest

end

/-! ### Vocabulary -/

/-- Keywords before an operand. -/
def leadingWords : List String :=
  ["clone", "print", "include", "include_once", "require", "require_once", "throw"]

/-- Marks before an operand. -/
def leadingMarks : List String := ["!", "-", "+", "~", "@", "&", "++", "--"]

/-- Keywords between operands. -/
def middleWords : List String := ["instanceof", "and", "or", "xor"]

/-- Marks between operands. -/
def middleMarks : List String :=
  ["+", "-", "*", "/", "%", "**", ".", "<<", ">>", "<", "<=", ">", ">=", "==", "!=", "===", "!==", "<>",
    "<=>", "&&", "||", "&", "|", "^", "??", "=", "+=", "-=", "*=", "/=", ".=", "%=", "**=", "&=", "|=",
    "^=", "<<=", ">>=", "??="]

/-- Type names that make a cast when they stand alone in parentheses. -/
def castWords : List String :=
  ["int", "integer", "bool", "boolean", "float", "double", "real", "string", "array", "object", "unset",
    "binary"]

/-- Keywords of statements that are lists of expressions up to a semicolon. -/
def listWords : List String :=
  ["echo", "exit", "const", "global", "unset", "goto", "break", "continue"]

/-- Keywords of statements with a head in parentheses and a body. -/
def headedWords : List String := ["while", "for", "foreach", "switch", "declare"]

/-- Keywords that close a body opened by a colon. -/
def bodyEnds : List String :=
  ["endif", "endwhile", "endfor", "endforeach", "endswitch", "enddeclare"]

/-- Keywords before a class-like declaration's own keyword. -/
def modifierWords : List String := ["abstract", "final", "readonly"]

/-- The next tokens are a cast. -/
def atCast (feed : Feed) : Bool :=
  feed.atMark "(" && feed.peekThird == some (.mark ")") &&
    match feed.peekSecond with
    | some (.word text) => castWords.contains (lowered text)
    | _ => false

/-- The next lexeme is one of the keywords. -/
def atOneOf (feed : Feed) (keywords : List String) : Bool :=
  match feed.peek with
  | some (.word text) => keywords.contains (lowered text)
  | _ => false

/-- The next lexeme is one of the marks. -/
def atOneMark (feed : Feed) (marks : List String) : Bool :=
  match feed.peek with
  | some (.mark text) => marks.contains text
  | _ => false

/-- The next token is a word and a single colon follows it. -/
def atColonWord (feed : Feed) : Bool :=
  match feed.peek, feed.peekSecond with
  | some (.word _), some (.mark ":") => true
  | _, _ => false

/-- A declaration of a class, interface, trait or enumeration starts here. -/
def atClassLike (feed : Feed) : Bool :=
  let named :=
    match feed.peekSecond with
    | some (.word _) => true
    | _ => false
  (atOneOf feed ["class", "interface", "trait", "enum"] && named) ||
    (atOneOf feed modifierWords && named)

/-- The feed at the first of the marks, or at the end. -/
def Feed.skipTo (feed : Feed) (marks : List String) : Feed :=
  let skipped := feed.tokens.takeWhile fun token =>
    match token.lexeme with
    | .mark text => !marks.contains text
    | _ => true
  match skipped.getLast? with
  | some token => ⟨feed.tokens.drop skipped.length, token.span.stop, feed.taken + skipped.length⟩
  | none => feed

/-- A name follows the keyword of a function. -/
def namedFunction (feed : Feed) : Bool :=
  let behind := feed.next.skipMark "&"
  match behind.peek with
  | some (.word _) => true
  | _ => false

/-! ### Expressions and statements -/

mutual

/-- An expression: the operand alone, or one node over all operands when there is an operator. -/
def expression : Nat → Feed → Node × Feed
  | 0, feed => (node .other feed.start [] feed, feed)
  | fuel + 1, feed =>
    match operands fuel feed with
    | ([single], true, behind) => (single, behind)
    | (children, _, behind) => (node .other feed.start children behind, behind)

/-- The operands of an expression, and whether no operator stands among them. -/
def operands : Nat → Feed → List Node × Bool × Feed
  | 0, feed => ([], false, feed)
  | fuel + 1, feed =>
    if atCast feed then
      let (rest, _, behind) := operands fuel feed.next.next.next
      (rest, false, behind)
    else if atOneMark feed leadingMarks || atOneOf feed leadingWords then
      let (rest, _, behind) := operands fuel feed.next
      (rest, false, behind)
    else if feed.atWord "yield" then
      let (rest, behind) := yielded fuel feed.next
      (rest, false, behind)
    else
      match primary fuel feed with
      | none => ([], false, feed)
      | some (first, behind) =>
        let (first, behind) := chained fuel first behind
        let first := if behind.atMark "=" then destructured first else first
        let bumped := atOneMark behind ["++", "--"]
        let behind := if bumped then behind.next else behind
        if behind.atMark "?" then
          let behind := behind.next
          if behind.atMark ":" then
            let (rest, _, behind) := operands fuel behind.next
            (first :: rest, false, behind)
          else
            let (middle, behind) := expression fuel behind
            let (rest, _, behind) := operands fuel (behind.skipMark ":")
            (first :: middle :: rest, false, behind)
        else if atOneMark behind middleMarks || atOneOf behind middleWords then
          let (rest, _, behind) := operands fuel behind.next
          (first :: rest, false, behind)
        else ([first], !bumped, behind)

/-- What is handed out by a generator: nothing, a value, a key with a value, or another generator. -/
def yielded : Nat → Feed → List Node × Feed
  | 0, feed => ([], feed)
  | fuel + 1, feed =>
    if feed.atEnd || atOneMark feed [";", ","] then ([], feed)
    else
      let feed := if feed.atWord "from" then feed.next else feed
      let (first, behind) := expression fuel feed
      if behind.atMark "=>" then
        let (second, behind) := expression fuel behind.next
        ([first, second], behind)
      else ([first], behind)

/-- An operand before any access or call on it. -/
def primary : Nat → Feed → Option (Node × Feed)
  | 0, _ => none
  | fuel + 1, feed =>
    let start := feed.start
    match feed.peek with
    | none => none
    | some .variable => some (leaf .variable feed, feed.next)
    | some .number => some (leaf .other feed, feed.next)
    | some .literal => some (leaf .string feed, feed.next)
    | some .inert => some (leaf .other feed, feed.next)
    | some .embedded => some (leaf .other feed, feed.next)
    | some .closing => none
    | some (.opening ending) =>
      let (children, behind) := embeddings fuel feed.next
      let behind := if behind.peek == some .closing then behind.next else behind
      some (node (if ending == .quote then .string else .other) start children behind, behind)
    | some (.mark text) =>
      if text == "$" then
        if feed.next.atMark "\x7b" then
          let (inner, behind) := expression fuel feed.next.next
          let behind := behind.skipMark "\x7d"
          some (node .other start [inner] behind, behind)
        else
          match primary fuel feed.next with
          | some (inner, behind) => some (node .other start [inner] behind, behind)
          | none => none
      else if text == "(" then
        let (inner, behind) := expression fuel feed.next
        let behind := behind.skipMark ")"
        some (node .other start [inner] behind, behind)
      else if text == "[" then
        let (entries, behind) := elements fuel feed.next
        let behind := behind.skipMark "]"
        some (node .array start entries behind, behind)
      else if text == "#[" then
        let (notes, behind) := attributes fuel feed.next
        match primary fuel behind with
        | some (.mk kind span label children, behind) =>
          some (.mk kind ⟨start, span.stop⟩ label (notes ++ children), behind)
        | none => none
      else none
    | some (.word text) =>
      let word := lowered text
      if word == "array" && feed.next.atMark "(" then
        let (entries, behind) := elements fuel feed.next.next
        let behind := behind.skipMark ")"
        some (node .array start entries behind, behind)
      else if word == "list" && feed.next.atMark "(" then
        let (entries, behind) := elements fuel feed.next.next
        let behind := behind.skipMark ")"
        some (destructured (node .array start entries behind), behind)
      else if word == "function" || word == "fn" then some (closure fuel start feed)
      else if word == "static" && atOneOf feed.next ["function", "fn"] then
        some (closure fuel start feed.next)
      else if word == "new" then some (creation fuel start feed.next)
      else if word == "match" && feed.next.atMark "(" then
        let (subject, behind) := parenthesised fuel feed.next
        let (arms, behind) := matchArms fuel (behind.skipMark "\x7b")
        let behind := behind.skipMark "\x7d"
        some (node .other start (subject :: arms) behind, behind)
      else some (leaf .name feed, feed.next)

/-- The accesses and calls that follow an operand. -/
def chained : Nat → Node → Feed → Node × Feed
  | 0, first, feed => (first, feed)
  | fuel + 1, first, feed =>
    let start := first.span.start
    if feed.atMark "(" then
      let (given, behind) := arguments fuel feed
      chained fuel (node .functionCall start [first, given] behind) behind
    else if feed.atMark "[" then
      if feed.next.atMark "]" then
        chained fuel (node .other start [first] feed.next.next) feed.next.next
      else
        let (subscript, behind) := expression fuel feed.next
        let behind := behind.skipMark "]"
        chained fuel (node .other start [first, subscript] behind) behind
    else if feed.atMark "->" || feed.atMark "?->" then
      match memberName fuel feed.next with
      | none => (first, feed)
      | some (name, behind) =>
        if behind.atMark "(" then
          let (given, behind) := arguments fuel behind
          chained fuel (node .memberCall start [first, name, given] behind) behind
        else chained fuel (node .other start [first, name] behind) behind
    else if feed.atMark "::" then
      match memberName fuel feed.next with
      | none => (first, feed)
      | some (name, behind) =>
        if behind.atMark "(" then
          let (given, behind) := arguments fuel behind
          chained fuel (node .staticCall start [first, name, given] behind) behind
        else
          let kind := if name.kind == .name then .classConstant else .other
          chained fuel (node kind start [first, name] behind) behind
    else (first, feed)

/-- The name behind an arrow or a double colon: a word, a variable, or an expression in braces. -/
def memberName : Nat → Feed → Option (Node × Feed)
  | 0, _ => none
  | fuel + 1, feed =>
    match feed.peek with
    | some (.word _) => some (leaf .name feed, feed.next)
    | some .variable => some (leaf .variable feed, feed.next)
    | some (.mark text) =>
      if text == "\x7b" then
        let (inner, behind) := expression fuel feed.next
        some (inner, behind.skipMark "\x7d")
      else if text == "$" then primary fuel feed
      else none
    | _ => none

/-- The code embedded in a text, up to its closing token. -/
def embeddings : Nat → Feed → List Node × Feed
  | 0, feed => ([], feed)
  | fuel + 1, feed =>
    match feed.peek with
    | none => ([], feed)
    | some .closing => ([], feed)
    | some (.mark text) =>
      if text == "\x7b" || text == "$\x7b" then
        let (inner, behind) := expression fuel feed.next
        let behind := (behind.skipTo ["\x7d"]).skipMark "\x7d"
        let (rest, behind) := embeddings fuel behind
        (inner :: rest, behind)
      else embeddings fuel feed.next
    | some _ =>
      let (rest, behind) := embeddings fuel feed.next
      (leaf .other feed :: rest, behind)

/-- An expression in parentheses, or nothing where there are none. -/
def parenthesised : Nat → Feed → Node × Feed
  | 0, feed => (node .other feed.start [] feed, feed)
  | fuel + 1, feed =>
    if feed.atMark "(" then
      let (inner, behind) := headItems fuel false feed.next
      let behind := behind.skipMark ")"
      (node .other feed.start inner behind, behind)
    else (node .other feed.start [] feed, feed)

/-- The expressions in the head of a statement; those behind an `as` are targets of assignments. -/
def headItems : Nat → Bool → Feed → List Node × Feed
  | 0, _, feed => ([], feed)
  | fuel + 1, targets, feed =>
    if feed.atEnd then ([], feed)
    else if atOneMark feed [";", ",", "=>"] then headItems fuel targets feed.next
    else if feed.atWord "as" then headItems fuel true feed.next
    else
      let (item, behind) := expression fuel feed
      if feed.taken < behind.taken then
        let (rest, behind) := headItems fuel targets behind
        ((if targets then destructured item else item) :: rest, behind)
      else headItems fuel targets feed.next

/-- The arguments of a call with their parentheses. -/
def arguments : Nat → Feed → Node × Feed
  | 0, feed => (node .arguments feed.start [] feed, feed)
  | fuel + 1, feed =>
    let (given, behind) := argumentList fuel feed.next
    let behind := behind.skipMark ")"
    (node .arguments feed.start given behind, behind)

/-- Arguments up to the closing parenthesis. -/
def argumentList : Nat → Feed → List Node × Feed
  | 0, feed => ([], feed)
  | fuel + 1, feed =>
    if feed.peek == none || feed.atMark ")" then ([], feed)
    else if feed.atMark "," then argumentList fuel feed.next
    else if feed.atMark "..." && feed.peekSecond == some (.mark ")") then
      ([leaf .other feed], feed.next)
    else
      let start := feed.start
      let (label, behind) :=
        if atColonWord feed then ([leaf .name feed], feed.next.next) else ([], feed)
      let behind := behind.skipMark "&"
      let (value, behind) := spreadOr fuel behind
      if feed.taken < behind.taken then
        let (rest, after) := argumentList fuel behind
        (node .argument start (label ++ [value]) behind :: rest, after)
      else argumentList fuel feed.next

/-- An expression, or one whose values are spread out. -/
def spreadOr : Nat → Feed → Node × Feed
  | 0, feed => (node .other feed.start [] feed, feed)
  | fuel + 1, feed =>
    if feed.atMark "..." || feed.atMark "&" then
      let (inner, behind) := expression fuel feed.next
      (node .other feed.start [inner] behind, behind)
    else expression fuel feed

/-- The entries of an array up to its closing bracket. -/
def elements : Nat → Feed → List Node × Feed
  | 0, feed => ([], feed)
  | fuel + 1, feed =>
    if feed.atEnd then ([], feed)
    else if feed.atMark "," then elements fuel feed.next
    else
      let (first, behind) := spreadOr fuel feed
      let (parts, behind) :=
        if behind.atMark "=>" then
          let (second, behind) := spreadOr fuel behind.next
          ([first, second], behind)
        else ([first], behind)
      if feed.taken < behind.taken then
        let (rest, after) := elements fuel behind
        (node .element feed.start parts behind :: rest, after)
      else elements fuel feed.next

/-- The attributes behind their opening mark, up to and with the closing bracket. -/
def attributes : Nat → Feed → List Node × Feed
  | 0, feed => ([], feed)
  | fuel + 1, feed =>
    match feed.peek with
    | none => ([], feed)
    | some (.mark text) =>
      if text == "]" then ([], feed.next)
      else if text == "(" then
        let (given, behind) := arguments fuel feed
        let (rest, behind) := attributes fuel behind
        (given :: rest, behind)
      else attributes fuel feed.next
    | some _ => attributes fuel feed.next

/-- The arms of a match, up to the closing brace. -/
def matchArms : Nat → Feed → List Node × Feed
  | 0, feed => ([], feed)
  | fuel + 1, feed =>
    if feed.atEnd then ([], feed)
    else if atOneMark feed [",", "=>"] || feed.atWord "default" then matchArms fuel feed.next
    else
      let (item, behind) := expression fuel feed
      if feed.taken < behind.taken then
        let (rest, behind) := matchArms fuel behind
        (item :: rest, behind)
      else matchArms fuel feed.next

/-- The parameters of a function with their parentheses: their default values. -/
def parameters : Nat → Feed → List Node × Feed
  | 0, feed => ([], feed)
  | fuel + 1, feed =>
    if feed.atMark "(" then
      let (defaults, behind) := parameterList fuel feed.next
      (defaults, behind.skipMark ")")
    else ([], feed)

/-- Parameters up to the closing parenthesis. -/
def parameterList : Nat → Feed → List Node × Feed
  | 0, feed => ([], feed)
  | fuel + 1, feed =>
    match feed.peek with
    | none => ([], feed)
    | some (.mark text) =>
      if text == ")" then ([], feed)
      else if text == "=" then
        let (value, behind) := expression fuel feed.next
        let (rest, behind) := parameterList fuel behind
        (value :: rest, behind)
      else if text == "#[" then
        let (notes, behind) := attributes fuel feed.next
        let (rest, behind) := parameterList fuel behind
        (notes ++ rest, behind)
      else if text == "(" then
        let (inner, behind) := parameters fuel feed
        let (rest, behind) := parameterList fuel behind
        (inner ++ rest, behind)
      else if text == "\x7b" then
        let (inner, behind) := members fuel feed.next
        let (rest, behind) := parameterList fuel (behind.skipMark "\x7d")
        (inner ++ rest, behind)
      else parameterList fuel feed.next
    | some _ => parameterList fuel feed.next

/-- A function without a name, from its keyword on. -/
def closure : Nat → Nat → Feed → Node × Feed
  | 0, start, feed => (node .closure start [] feed.next, feed.next)
  | fuel + 1, start, feed =>
    let short := feed.atWord "fn"
    let behind := feed.next.skipMark "&"
    let (defaults, behind) := parameters fuel behind
    let (captured, behind) :=
      if behind.atWord "use" then parameters fuel behind.next else ([], behind)
    if short then
      let behind := (behind.skipTo ["=>", ";"]).skipMark "=>"
      let (body, behind) := expression fuel behind
      (node .closure start (defaults ++ captured ++ [body]) behind, behind)
    else
      let (body, behind) := block fuel (behind.skipTo ["\x7b", ";"])
      (node .closure start (defaults ++ captured ++ [body]) behind, behind)

/-- The creation of an object, behind its keyword. -/
def creation : Nat → Nat → Feed → Node × Feed
  | 0, start, feed => (node .other start [] feed, feed)
  | fuel + 1, start, feed =>
    let (notes, feed) :=
      if feed.atMark "#[" then attributes fuel feed.next else ([], feed)
    let feed := if feed.atWord "readonly" then feed.next else feed
    if feed.atWord "class" then
      let (given, behind) :=
        if feed.next.atMark "(" then
          let (given, behind) := arguments fuel feed.next
          ([given], behind)
        else ([], feed.next)
      let (body, behind) := members fuel ((behind.skipTo ["\x7b", ";"]).skipMark "\x7b")
      let behind := behind.skipMark "\x7d"
      (node .other start (notes ++ given ++ body) behind, behind)
    else
      match primary fuel feed with
      | none => (node .other start notes feed, feed)
      | some (first, behind) =>
        let (made, behind) := accessed fuel first behind
        if behind.atMark "(" then
          let (given, behind) := arguments fuel behind
          (node .other start [made, given] behind, behind)
        else (node .other start [made] behind, behind)

/-- The accesses, not calls, that follow the name of a class to create. -/
def accessed : Nat → Node → Feed → Node × Feed
  | 0, first, feed => (first, feed)
  | fuel + 1, first, feed =>
    let start := first.span.start
    if feed.atMark "[" then
      let (subscript, behind) := expression fuel feed.next
      let behind := behind.skipMark "]"
      accessed fuel (node .other start [first, subscript] behind) behind
    else if atOneMark feed ["->", "?->", "::"] then
      match memberName fuel feed.next with
      | none => (first, feed)
      | some (name, behind) => accessed fuel (node .other start [first, name] behind) behind
    else (first, feed)

/-- Statements in braces. -/
def block : Nat → Feed → Node × Feed
  | 0, feed => (node .other feed.start [] feed, feed)
  | fuel + 1, feed =>
    if feed.atMark "\x7b" then
      let (inner, behind) := statements fuel feed.next
      let behind := behind.skipMark "\x7d"
      (node .other feed.start inner behind, behind)
    else (node .other feed.start [] feed, feed)

/-- Statements up to a closing brace, or to a keyword that closes or continues a body opened by a
colon. -/
def statements : Nat → Feed → List Node × Feed
  | 0, feed => ([], feed)
  | fuel + 1, feed =>
    if feed.peek == none || feed.atMark "\x7d" || atOneOf feed bodyEnds ||
        atOneOf feed ["else", "elseif"] then ([], feed)
    else
      let (found, behind) := statement fuel feed
      if feed.taken < behind.taken then
        let (rest, behind) := statements fuel behind
        (found ++ rest, behind)
      else statements fuel feed.next

/-- One statement; an empty one has no node. -/
def statement : Nat → Feed → List Node × Feed
  | 0, feed => ([], feed)
  | fuel + 1, feed =>
    let start := feed.start
    if feed.atMark ";" then ([], feed.next)
    else if feed.atMark "\x7b" then
      let (inner, behind) := block fuel feed
      ([inner], behind)
    else if feed.atMark "#[" then
      let (notes, behind) := attributes fuel feed.next
      let (rest, behind) := statement fuel behind
      (notes ++ rest, behind)
    else if feed.atWord "return" then
      if atOneMark feed.next [";"] || feed.next.atEnd then
        let behind := feed.next.skipMark ";"
        ([node .returnStatement start [] behind], behind)
      else
        let (value, behind) := expression fuel feed.next
        let behind := behind.skipMark ";"
        ([node .returnStatement start [value] behind], behind)
    else if feed.atWord "if" then
      let (inner, behind) := conditional fuel feed.next
      ([node .other start inner behind], behind)
    else if atOneOf feed headedWords && feed.next.atMark "(" then
      let (head, behind) := parenthesised fuel feed.next
      let (inner, _, behind) := body fuel behind
      let behind := if atOneOf behind bodyEnds then behind.next.skipMark ";" else behind
      ([node .other start (head :: inner) behind], behind)
    else if feed.atWord "do" then
      let (inner, behind) := statement fuel feed.next
      let behind := if behind.atWord "while" then behind.next else behind
      let (head, behind) := parenthesised fuel behind
      let behind := behind.skipMark ";"
      ([node .other start (inner ++ [head]) behind], behind)
    else if feed.atWord "try" then
      let (first, behind) := block fuel feed.next
      let (rest, behind) := handlers fuel behind
      ([node .other start (first :: rest) behind], behind)
    else if feed.atWord "case" then
      let (value, behind) := expression fuel feed.next
      let behind := if behind.atMark ":" then behind.next else behind.skipMark ";"
      ([node .other start [value] behind], behind)
    else if feed.atWord "namespace" then
      let behind := feed.skipTo ["\x7b", ";"]
      if behind.atMark "\x7b" then
        let (inner, behind) := block fuel behind
        ([node .other start [inner] behind], behind)
      else
        let behind := behind.skipMark ";"
        ([node .other start [] behind], behind)
    else if feed.atWord "use" then
      let behind := (feed.skipTo [";"]).skipMark ";"
      ([node .other start [] behind], behind)
    else if atOneOf feed listWords ||
        (feed.atWord "static" && feed.peekSecond == some .variable) then
      let (items, behind) := itemList fuel feed.next
      ([node .other start items behind], behind)
    else if atClassLike feed then
      let (inner, behind) := members fuel ((feed.skipTo ["\x7b", ";"]).skipMark "\x7b")
      let behind := behind.skipMark "\x7d"
      ([node .other start inner behind], behind)
    else if feed.atWord "function" && namedFunction feed then
      let (inner, behind) := method fuel feed.next
      ([node .other start inner behind], behind)
    else if atColonWord feed then ([], feed.next.next)
    else
      let (value, behind) := expression fuel feed
      let behind := behind.skipMark ";"
      if feed.taken < behind.taken then ([node .other start [value] behind], behind)
      else ([], feed.next)

/-- A condition, its body and what follows: further conditions, an alternative and the keyword that
closes bodies opened by a colon. -/
def conditional : Nat → Feed → List Node × Feed
  | 0, feed => ([], feed)
  | fuel + 1, feed =>
    let (head, behind) := parenthesised fuel feed
    let (inner, colon, behind) := body fuel behind
    if behind.atWord "elseif" then
      let (rest, behind) := conditional fuel behind.next
      (head :: (inner ++ rest), behind)
    else if behind.atWord "else" && (colon || behind.peekSecond != some (.mark ":")) then
      let (rest, colonToo, behind) := body fuel behind.next
      let behind := if (colon || colonToo) && behind.atWord "endif" then behind.next.skipMark ";" else behind
      (head :: (inner ++ rest), behind)
    else
      let behind := if colon && behind.atWord "endif" then behind.next.skipMark ";" else behind
      (head :: inner, behind)

/-- The body of a statement, and whether a colon opened it. -/
def body : Nat → Feed → List Node × Bool × Feed
  | 0, feed => ([], false, feed)
  | fuel + 1, feed =>
    if feed.atMark ":" then
      let (inner, behind) := statements fuel feed.next
      ([node .other feed.start inner behind], true, behind)
    else
      let (inner, behind) := statement fuel feed
      (inner, false, behind)

/-- The handlers of a guarded block. -/
def handlers : Nat → Feed → List Node × Feed
  | 0, feed => ([], feed)
  | fuel + 1, feed =>
    if feed.atWord "catch" then
      let (inner, behind) := block fuel ((feed.skipTo [")"]).skipMark ")")
      let (rest, behind) := handlers fuel behind
      (inner :: rest, behind)
    else if feed.atWord "finally" then
      let (inner, behind) := block fuel feed.next
      ([inner], behind)
    else ([], feed)

/-- Expressions up to and with a semicolon. -/
def itemList : Nat → Feed → List Node × Feed
  | 0, feed => ([], feed)
  | fuel + 1, feed =>
    if feed.atMark ";" then ([], feed.next)
    else if feed.atMark "\x7d" || feed.peek == none then ([], feed)
    else
      let (item, behind) := expression fuel feed
      if feed.taken < behind.taken then
        let (rest, behind) := itemList fuel behind
        (item :: rest, behind)
      else itemList fuel feed.next

/-- The members of a class-like declaration up to its closing brace. -/
def members : Nat → Feed → List Node × Feed
  | 0, feed => ([], feed)
  | fuel + 1, feed =>
    match feed.peek with
    | none => ([], feed)
    | some (.mark text) =>
      if text == "\x7d" then ([], feed)
      else if text == "=" || text == "=>" then
        let (value, behind) := expression fuel feed.next
        let (rest, behind) := members fuel behind
        (value :: rest, behind)
      else if text == "#[" then
        let (notes, behind) := attributes fuel feed.next
        let (rest, behind) := members fuel behind
        (notes ++ rest, behind)
      else if text == "\x7b" then
        let (inner, behind) := members fuel feed.next
        let (rest, behind) := members fuel (behind.skipMark "\x7d")
        (inner ++ rest, behind)
      else members fuel feed.next
    | some (.word text) =>
      if lowered text == "function" then
        let (inner, behind) := method fuel feed.next
        let (rest, after) := members fuel behind
        (node .other feed.start inner behind :: rest, after)
      else members fuel feed.next
    | some (.opening _) =>
      match primary fuel feed with
      | some (value, behind) =>
        let (rest, behind) := members fuel behind
        (value :: rest, behind)
      | none => members fuel feed.next
    | some .literal =>
      let (rest, behind) := members fuel feed.next
      (leaf .string feed :: rest, behind)
    | some _ => members fuel feed.next

/-- A function with a name, behind its keyword: default values and body. -/
def method : Nat → Feed → List Node × Feed
  | 0, feed => ([], feed)
  | fuel + 1, feed =>
    let behind := (feed.skipMark "&").next
    let (defaults, behind) := parameters fuel behind
    let behind := behind.skipTo ["\x7b", ";"]
    if behind.atMark "\x7b" then
      let (inner, behind) := block fuel behind
      (defaults ++ [inner], behind)
    else (defaults, behind.skipMark ";")

end

/-- Statements of a whole program: what closes nothing is passed over. -/
def programStatements (fuel : Nat) : Nat → Feed → List Node
  | 0, _ => []
  | count + 1, feed =>
    match feed.peek with
    | none => []
    | some _ =>
      let (found, behind) := statements fuel feed
      if feed.taken < behind.taken then found ++ programStatements fuel count behind
      else programStatements fuel count feed.next

end Parser

/-- The tree of a program. -/
def Node.ofSource (source : String) : Node :=
  let stream := Lexer.tokenize source
  let count := stream.tokens.length
  let statements := Parser.programStatements (16 * count + 16) (count + 1) ⟨stream.tokens, 0, 0⟩
  let bare := Node.mk .program ⟨0, byteLength source⟩ "" statements
  let comments := stream.comments.map fun span => Node.mk .comment span "" []
  (comments.foldl (fun tree comment => Node.adopt comment tree) bare).withText source

end ArtifactIndex
