/-
**The parser gives trees of programs.**

What is proved of programs asks no more of a tree than `Node.IsTreeOf`, so any parser of which that holds
can stand in for the one here.

* `Node.row_adopt`: comments put into a tree leave it nested;
* `Node.isTreeOf_ofSource`: the tree that the parser gives for a source is one of that source.
-/

import ArtifactIndex.Proofs.Code.Lexing
import ArtifactIndex.Proofs.Code.Literals
import ArtifactIndex.Proofs.Code.Parsing

namespace ArtifactIndex

namespace Node

/-- Comments put into a tree leave it nested. -/
theorem row_adopt {source : String} {comments more : List Span} {children : List Node}
    (kind : NodeKind) (span : Span) (label : String)
    (scanned : ∀ comment ∈ more, comment.start < comment.stop ∧
      Lexer.Cut source comments comment.start ∧ Lexer.Cut source comments comment.stop)
    (listed : ∀ comment ∈ more, comment ∈ comments)
    (row : Row (Parser.Sound (Lexer.Cut source comments) (Unpadded source)) 0 (byteLength source)
      children) :
    ∃ grown, (more.map fun span => Node.mk .comment span "" []).foldl
        (fun tree comment => adopt comment tree) (.mk kind span label children) =
      .mk kind span label grown ∧
      Row (Parser.Sound (Lexer.Cut source comments) (Unpadded source)) 0 (byteLength source) grown := by
  induction more generalizing children with
  | nil => exact ⟨children, rfl, row⟩
  | cons comment more ih =>
    obtain ⟨nonempty, atStart, atStop⟩ := scanned comment List.mem_cons_self
    have isListed := listed comment List.mem_cons_self
    rw [List.map_cons, List.foldl_cons, adopt]
    refine ih (fun other later => scanned other (List.mem_cons_of_mem _ later))
      (fun other later => listed other (List.mem_cons_of_mem _ later)) ?_
    refine row.adoptAmong (Nat.zero_le _) (Nat.le_of_lt nonempty) atStop.1.le
      ⟨atStart, atStop, fun isString => ?_⟩ (fun node sound => ?_) (fun _ _ _ _ sound => ?_)
    · cases isString
    · exact ⟨sound.start.2 comment isListed, sound.stop.2 comment isListed⟩
    · exact ⟨sound.start, sound.stop, fun _ empty => absurd empty (Row.adoptAmong_ne_nil _ _)⟩

/-- **The parser gives a tree of the program.** -/
theorem isTreeOf_ofSource (source : String) : (ofSource source).IsTreeOf source := by
  have scanned := Lexer.scanned_tokenize source
  have statements := Parser.row_programStatements
    (fun offset (isCut : Lexer.Cut source (Lexer.tokenize source).comments offset) => isCut.1.le)
    (16 * (Lexer.tokenize source).tokens.length + 16) ((Lexer.tokenize source).tokens.length + 1)
    (Lexer.fits_tokenize source)
  obtain ⟨grown, isGrown, row⟩ := row_adopt .program ⟨0, byteLength source⟩ ""
    (fun comment listed => (scanned.comments comment listed).2) (fun _ listed => listed) statements
  have shape : ofSource source = .mk .program ⟨0, byteLength source⟩
      (textOf source ⟨0, byteLength source⟩) (withTexts source grown) := by
    unfold ofSource
    dsimp only
    rw [isGrown, withText]
  rw [shape]
  refine ⟨rfl, row.withTexts fun node sound => ?_⟩
  cases node with
  | mk kind span text children =>
    rw [withText]
    refine ⟨sound.start.1, sound.stop.1, rfl, fun isString empty => sound.bare isString ?_⟩
    cases children with
    | nil => rfl
    | cons child rest =>
      rw [children, withTexts] at empty
      cases empty

end Node

end ArtifactIndex
