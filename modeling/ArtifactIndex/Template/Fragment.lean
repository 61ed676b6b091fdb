/-
**Code inside templates.**

A template is markup with code in it: echoes `{{ … }}` and `{!! … !!}`, directives `@name(…)` and
blocks of plain code. `fragments` cuts the code out; each `Fragment` is a program of its own, and
`Fragment.toTemplate?` and `Fragment.toCode?` map offsets in that program to offsets in the template
and back.
-/

import ArtifactIndex.Text.Basic
import ArtifactIndex.Template.Group
import ArtifactIndex.Reference.Context

namespace ArtifactIndex

/-- The forms of code in a template. -/
inductive FragmentKind where
  | echo
  | rawEcho
  | directive
  | codeBlock
deriving Repr, DecidableEq

/-- A piece of code cut out of a template. -/
structure Fragment where
  kind : FragmentKind
  /-- A program around the piece. -/
  code : String
  /-- The bytes of the program before the piece. -/
  lead : Nat
  /-- The piece's offset in the template. -/
  start : Nat
  /-- The piece's length in bytes. -/
  length : Nat
  directive : Option String
  /-- The markup attribute whose value holds the piece, in lower case. -/
  markupAttribute : Option String
deriving Repr, DecidableEq

namespace Fragment

/-- The template offset of a program offset; `none` outside the piece. -/
def toTemplate? (fragment : Fragment) (offset : Nat) : Option Nat :=
  if fragment.lead ≤ offset ∧ offset ≤ fragment.lead + fragment.length then
    some (fragment.start + (offset - fragment.lead))
  else none

/-- The program offset of a template offset; `none` outside the piece. -/
def toCode? (fragment : Fragment) (offset : Nat) : Option Nat :=
  if fragment.start ≤ offset ∧ offset ≤ fragment.start + fragment.length then
    some (fragment.lead + (offset - fragment.start))
  else none

end Fragment

namespace Template

/-! ### Attributes -/

/-- Characters that start an attribute's name. -/
def startsAttribute (c : Char) : Bool := c.isAlpha || c == '_' || c == ':'

/-- Characters inside an attribute's name. -/
def insideAttribute (c : Char) : Bool :=
  c.isAlphanum || c == '-' || c == '_' || c == ':' || c == '.'

/-- The attribute's name at the end of a text that is given in reverse. -/
def attributeName? (reversed : List Char) : Option (List Char) :=
  let name := (reversed.takeWhile insideAttribute).reverse
  match reversed.dropWhile insideAttribute with
  | '@' :: _ => some ('@' :: name)
  | _ =>
    match name.dropWhile (!startsAttribute ·) with
    | [] => none
    | found => some found

/-- The attribute in whose quoted value a text ends, when the text, given in reverse, ends inside a
tag. -/
def openAttribute? (reversed : List Char) : Option String :=
  let tag := reversed.takeWhile fun c => c != '<' && c != '>'
  match reversed.dropWhile fun c => c != '<' && c != '>' with
  | '<' :: _ =>
    match tag.dropWhile fun c => c != '"' && c != '\'' with
    | _ :: beforeQuote =>
      match beforeQuote.dropWhile isBlank with
      | '=' :: beforeSign =>
        (attributeName? (beforeSign.dropWhile isBlank)).map fun name => lowered (String.ofList name)
      | _ => none
    | [] => none
  | _ => none

/-- The attribute whose quoted value holds a byte offset. -/
def attributeAt? (text : String) (offset : Nat) : Option String :=
  (takeBytes? offset text.toList).bind fun before => openAttribute? before.reverse

/-! ### Pieces -/

/-- The characters before the first occurrence of a mark, or all of them. -/
def untilMark (mark : List Char) : List Char → List Char
  | [] => []
  | c :: rest => if mark.isPrefixOf (c :: rest) then [] else c :: untilMark mark rest

/-- The number of characters up to and with the first occurrence of a mark, or of all. -/
def pastMark (mark : List Char) (chars : List Char) : Nat :=
  min chars.length ((untilMark mark chars).length + mark.length)

/-- A piece of a template that holds code. -/
structure CodePiece where
  kind : FragmentKind
  /-- The characters before the code. -/
  skipped : Nat
  /-- The code. -/
  content : List Char
  /-- What comes before and behind the code in its program. -/
  opening : String
  closing : String
  directive : Option String
  /-- The piece can stand in an attribute's value. -/
  inMarkup : Bool

/-- A piece of a template: how many characters it takes, and the code it holds. -/
structure Piece where
  length : Nat
  code : Option CodePiece

/-- The tag that opens a program. -/
def programOpening : String := "<?php "

/-- A piece without code. -/
def Piece.plain (length : Nat) : Piece := ⟨length, none⟩

/-- A piece that is code between two marks. -/
def Piece.between (kind : FragmentKind) (skipped : Nat) (mark : List Char) (opening closing : String)
    (directive : Option String) (inMarkup : Bool) (chars : List Char) : Piece :=
  let inner := chars.drop skipped
  { length := skipped + pastMark mark inner
    code := some
      { kind, skipped, content := untilMark mark inner, opening, closing, directive, inMarkup } }

/-- Characters of a directive's name. -/
def insideDirective (c : Char) : Bool := c.isAlphanum || c == '_'

/-- The piece at a directive's sign: a block of code, a directive with its arguments, or a name
alone. `none` when no directive stands here. -/
def directivePiece? (chars : List Char) : Option Piece :=
  let behindSign := chars.drop 1
  let name := behindSign.takeWhile insideDirective
  let blanks := (behindSign.drop name.length).takeWhile fun c => c == ' ' || c == '\t'
  let opensAt := 1 + name.length + blanks.length
  match name with
  | [] => none
  | first :: _ =>
    if first.isDigit then none
    else
      match chars.drop opensAt with
      | '(' :: inner =>
        (groupLength? inner).map fun length =>
          { length := opensAt + length + 2
            code := some
              { kind := .directive
                skipped := opensAt + 1
                content := inner.take length
                opening := programOpening ++ directiveFunction ++ "("
                closing := ");"
                directive := some (String.ofList name)
                inMarkup := true } }
      | _ =>
        if name = "php".toList then
          some (.between .codeBlock 4 "@endphp".toList programOpening "\n;" (some "php") false chars)
        else some (.plain (1 + name.length))

/-- The piece at the start of a text. The character before it decides whether an `@` is a sign of a
directive. -/
def pieceAt (previous : Option Char) (chars : List Char) : Piece :=
  if "\x7b\x7b--".toList.isPrefixOf chars then .plain (4 + pastMark "--\x7d\x7d".toList (chars.drop 4))
  else if "@\x7b\x7b".toList.isPrefixOf chars then .plain (3 + pastMark "\x7d\x7d".toList (chars.drop 3))
  else if "@@".toList.isPrefixOf chars then .plain 2
  else if "\x7b!!".toList.isPrefixOf chars then
    .between .rawEcho 3 "!!\x7d".toList programOpening ";" none true chars
  else if "\x7b\x7b".toList.isPrefixOf chars then
    .between .echo 2 "\x7d\x7d".toList programOpening ";" none true chars
  else if "<?php".toList.isPrefixOf chars then
    .between .codeBlock 5 "?>".toList programOpening "\n;" none false chars
  else if "<?=".toList.isPrefixOf chars then
    .between .codeBlock 3 "?>".toList "<?php echo " "\n;" none false chars
  else if chars.head? = some '@' ∧ !previous.any insideDirective then
    (directivePiece? chars).getD (.plain 1)
  else .plain 1

/-- The fragment of a piece that starts at an offset, behind a text given in reverse. -/
def CodePiece.toFragment (piece : CodePiece) (before : List Char) (offset : Nat) (chars : List Char) :
    Fragment :=
  { kind := piece.kind
    code := piece.opening ++ String.ofList piece.content ++ piece.closing
    lead := byteLength piece.opening
    start := offset + byteCount (chars.take piece.skipped)
    length := byteCount piece.content
    directive := piece.directive
    markupAttribute := if piece.inMarkup then openAttribute? before else none }

/-- The fragments of a text that starts at an offset, behind a text given in reverse. -/
def fragmentsFrom (before : List Char) (offset : Nat) (chars : List Char) : List Fragment :=
  match chars with
  | [] => []
  | c :: rest =>
    let piece := pieceAt before.head? (c :: rest)
    let taken := (c :: rest).take (max 1 piece.length)
    let found := (piece.code.map fun code => code.toFragment before offset (c :: rest)).toList
    found ++ fragmentsFrom (taken.reverse ++ before) (offset + byteCount taken)
      ((c :: rest).drop (max 1 piece.length))
termination_by chars.length
decreasing_by
  simp only [List.length_drop, List.length_cons]
  omega

end Template

/-- The pieces of code of a template, in order. -/
def fragments (template : String) : List Fragment :=
  Template.fragmentsFrom [] 0 template.toList

end ArtifactIndex
