/-
**Literals under a cursor.**

An editor asks about the literal at a position of a file: what it refers to, and which keys could stand
in its place. The literal is found in the same way in which usages are: in programs by the syntax tree,
in templates by the tree of the fragment around the position, in scripts by text patterns.

* `Index.literalAt`: the literal at a position;
* `Index.classifyAt`: what it refers to;
* `Index.completeAt`: the keys that continue what is typed.
-/

import ArtifactIndex.Index

namespace ArtifactIndex

/-- A literal at a position. -/
structure LocatedLiteral where
  value : String
  /-- What the literal refers to. -/
  classified : Option Classified
  /-- The part of the literal before the position. -/
  typed : String
  site : Site
deriving Repr, DecidableEq

/-- The offset behind the first quote at or behind an offset. -/
def bodyStart (source : String) (start : Nat) : Nat :=
  match slice? source start (byteLength source) with
  | none => start
  | some rest =>
    let before := rest.toList.takeWhile (!Pattern.quotes.contains ·)
    if before.length < rest.toList.length then start + byteCount before + 1 else start

/-- The part of a literal between its opening quote and a position. -/
def typedPart (source : String) (start position : Nat) : String :=
  let body := bodyStart source start
  if position ≤ body then "" else (slice? source body position).getD ""

namespace Index

/-- The literal at a position of a program that is, or is cut out of, a file. -/
def literalInCode? (index : Index) (file source : String) (directive markupAttribute : Option String)
    (position : Nat) : Option (LiteralContext × Option Classified) :=
  match (Node.ofSource source).literalAt? position with
  | none => none
  | some place =>
    (LiteralContext.of? place file directive markupAttribute).map fun context =>
      (context, classify? index.artifacts.translations.contains context)

/-- The literal at a position of a program. -/
def literalInProgram? (index : Index) (file text : String) (position : Nat) : Option LocatedLiteral :=
  (index.literalInCode? file text none none position).map fun found =>
    let span := found.1.place.node.span
    { value := found.1.value
      classified := found.2
      typed := typedPart text span.start position
      site := (Origin.ofText file text).site span }

/-- The literal at a position of a template, in one of its fragments. -/
def literalInFragment? (index : Index) (file text : String) (position : Nat) (fragment : Fragment) :
    Option LocatedLiteral :=
  match fragment.toCode? position with
  | none => none
  | some inCode =>
    (index.literalInCode? file fragment.code fragment.directive fragment.markupAttribute inCode).map
      fun found =>
        let span := found.1.place.node.span
        let start := (fragment.toTemplate? span.start).getD position
        let stop := (fragment.toTemplate? span.stop).getD position
        { value := found.1.value
          classified := found.2
          typed := typedPart fragment.code span.start inCode
          site := (Origin.ofText file text).site ⟨start, stop⟩ }

/-- The literal at a position of a template: that of the first fragment with one. -/
def literalInTemplate? (index : Index) (file text : String) (position : Nat) : Option LocatedLiteral :=
  (fragments text).findSome? (index.literalInFragment? file text position)

/-- The key at a position of a script: the first one found there by a text pattern. -/
def literalInScript? (file text : String) (position : Nat) : Option LocatedLiteral :=
  ((Pattern.findAll (Pattern.tableFor file) text).find? fun found =>
    found.span.start ≤ position && position ≤ found.span.stop).map fun found =>
    { value := found.key
      classified := some (.route (.reference found.helper))
      typed := (slice? text found.span.start position).getD ""
      site := (Origin.ofText file text).site found.span }

/-- The literal at a position of a file; files of no category are not read. -/
def literalAt (index : Index) (tree : Tree) (file : String) (position : Nat) :
    Except ReadError (Option LocatedLiteral) :=
  match FileCategory.of? file with
  | none => .ok none
  | some category =>
    match tree.read file with
    | .error error => .error error
    | .ok text =>
      .ok <|
        match category with
        | .php => index.literalInProgram? file text position
        | .blade => index.literalInTemplate? file text position
        | .script => literalInScript? file text position

/-! ### Classification -/

/-- The key that a classified literal means; a part of a route's declaration means its route. -/
def keyFor? (index : Index) (classified : Classified) (value : String) : Option String :=
  match classified with
  | .route .definition => (index.artifacts.routes.resolve? value).map (·.key)
  | _ => (index.artifacts.resolve? classified value).map (·.key)

end Index

/-- What is known of a literal. -/
structure Classification where
  kind : Kind
  literal : String
  key : Option String
  declarations : List Site
  usageCount : Nat
  site : Site
deriving Repr, DecidableEq

namespace Index

/-- What is known of a located literal, when it refers to something. -/
def classification? (index : Index) (tree : Tree) (literal : LocatedLiteral) : Option Classification :=
  literal.classified.map fun classified =>
    let kind := classified.kind
    let key := index.keyFor? classified literal.value
    { kind
      literal := literal.value
      key
      declarations :=
        match key, kind with
        | some key, kind => index.declarations tree kind key
        | none, .view => index.declarations tree .view literal.value
        | none, _ => []
      usageCount := (key.map fun key => (index.usages kind key).length).getD 0
      site := literal.site }

/-- What the literal at a position refers to. -/
def classifyAt (index : Index) (tree : Tree) (file : String) (position : Nat) :
    Except ReadError (Option Classification) :=
  (index.literalAt tree file position).map fun found => found.bind (index.classification? tree)

end Index

/-! ### Completion -/

/-- A key that could stand in a literal's place. -/
structure Completion where
  label : String
  kind : Kind
  detail : String
deriving Repr, DecidableEq

namespace Index

/-- The keys of a kind that can be completed: of routes only the names. -/
def candidates (index : Index) : Kind → List String
  | .route => index.artifacts.routes.names
  | kind => index.keys kind

/-- What is shown beside a key. -/
def detailOf (index : Index) : Kind → String → String
  | .route, key =>
    ((index.artifacts.routes.named? key).map fun route => route.method ++ " " ++ route.path).getD ""
  | .translation, key => ((index.artifacts.translations.get? key).map (·.value)).getD ""
  | .view, key => ((index.artifacts.views.get? key).map (·.file)).getD ""
  | .asset, key => ((index.artifacts.assets.get? key).map (·.assetType.text)).getD ""

/-- The literal is a part of a declaration, in which no key is completed. -/
def declares : Classified → Bool
  | .route .definition => true
  | .translation .languageFileKey => true
  | _ => false

/-- The keys of a located literal's kind that start with what is typed. -/
def completions (index : Index) (literal : LocatedLiteral) : List Completion :=
  match literal.classified with
  | none => []
  | some classified =>
    if declares classified then []
    else
      ((index.candidates classified.kind).filter (startsWith literal.typed)).map fun key =>
        { label := key, kind := classified.kind, detail := index.detailOf classified.kind key }

/-- The keys that could stand in place of the literal at a position. -/
def completeAt (index : Index) (tree : Tree) (file : String) (position : Nat) :
    Except ReadError (List Completion) :=
  (index.literalAt tree file position).map fun found => (found.map index.completions).getD []

end Index

end ArtifactIndex
