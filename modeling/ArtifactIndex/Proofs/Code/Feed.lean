/-
**Reading nodes from tokens.**

What the parser needs of its tokens, and what each of its steps keeps. The two parameters stand for the
text: `cut` holds of the offsets at which tokens may start and stop, and `whole` of the ranges that are
literals without embedded code.

* `Feed.Fits`: the tokens stand in their order, behind the last one taken;
* `Reads`: nodes were read between two feeds, nested and with sound ends;
* `Reads.node`, `Reads.append`: rows of nodes put together.
-/

import ArtifactIndex.Proofs.Code.Nesting
import Mathlib.Data.List.Chain

namespace ArtifactIndex

namespace Parser

variable (cut : Nat → Prop) (whole : Span → Prop)

/-- The node starts and stops at cuts, and is whole if it is a literal without embedded code. -/
structure Sound (node : Node) : Prop where
  start : cut node.span.start
  stop : cut node.span.stop
  bare : node.kind = .string → node.children = [] → whole node.span

/-- The token starts and stops at cuts, and gives whole literals: alone, or, as the mark before an
attribute, with all that follows. -/
structure TokenFits (token : Token) : Prop where
  ordered : token.span.start ≤ token.span.stop
  start : cut token.span.start
  stop : cut token.span.stop
  literal : token.lexeme = .literal → whole token.span
  opening : token.lexeme = .opening .quote → whole token.span
  note : token.lexeme = .mark "#[" →
    ∀ stop, cut stop → token.span.start ≤ stop → whole ⟨token.span.start, stop⟩

/-- One token stands behind another. An opening quote is followed by the quote that closes its
literal, or by embedded code. -/
structure Follows (token next : Token) : Prop where
  ordered : token.span.stop ≤ next.span.start
  closing : token.lexeme = .opening .quote → next.lexeme = .closing →
    whole ⟨token.span.start, next.span.stop⟩
  embedded : token.lexeme = .opening .quote → ∀ text, next.lexeme = .mark text →
    text = "\x7b" ∨ text = "$\x7b"

/-- **Fitting feeds.** The tokens that are left stand in their order behind the last one taken. -/
structure Feed.Fits (feed : Feed) : Prop where
  last : cut feed.last
  tokens : ∀ token ∈ feed.tokens, TokenFits cut whole token
  chain : feed.tokens.IsChain (Follows whole)
  first : ∀ token ∈ feed.tokens.head?, feed.last ≤ token.span.start

/-- **Nodes between two feeds.** The nodes form a nested row over the tokens taken. -/
structure Reads (feed : Feed) (nodes : List Node) (behind : Feed) : Prop where
  fits : behind.Fits cut whole
  row : Node.Row (Sound cut whole) feed.last behind.last nodes

variable {cut whole} {feed behind : Feed} {nodes : List Node}

/-! ### Steps over tokens -/

namespace Feed.Fits

theorem nothing (fits : feed.Fits cut whole) : Reads cut whole feed [] feed :=
  ⟨fits, .nil (Nat.le_refl _)⟩

theorem start (fits : feed.Fits cut whole) : cut feed.start ∧ feed.last ≤ feed.start := by
  unfold Feed.start
  split
  · next token _ tokens =>
    have listed : token ∈ feed.tokens := by rw [tokens]; exact List.mem_cons_self
    exact ⟨(fits.tokens token listed).start, fits.first token (by rw [tokens]; rfl)⟩
  · exact ⟨fits.last, Nat.le_refl _⟩

theorem next (fits : feed.Fits cut whole) : Reads cut whole feed [] feed.next := by
  unfold Feed.next
  split
  · next token rest tokens =>
    have fitsToken := fits.tokens token (by rw [tokens]; exact List.mem_cons_self)
    have chain := fits.chain
    rw [tokens] at chain
    refine ⟨⟨fitsToken.stop, ?_, chain.tail, ?_⟩, .nil ?_⟩
    · intro other member
      exact fits.tokens other (by rw [tokens]; exact List.mem_cons_of_mem _ member)
    · intro second isSecond
      exact (chain.rel_head? isSecond).ordered
    · have behind := fits.first token (by rw [tokens]; rfl)
      exact Nat.le_trans behind fitsToken.ordered
  · exact fits.nothing

/-- The feed behind a run of tokens. -/
theorem skip {skipped rest : List Token} {token : Token} {count : Nat} (fits : feed.Fits cut whole)
    (shape : feed.tokens = skipped ++ rest) (isLast : skipped.getLast? = some token) :
    Reads cut whole feed [] ⟨rest, token.span.stop, count⟩ := by
  induction skipped generalizing feed with
  | nil => cases isLast
  | cons first skipped ih =>
    have step := fits.next
    have behind : feed.next = ⟨skipped ++ rest, first.span.stop, feed.taken + 1⟩ := by
      rw [Feed.next, shape]
      rfl
    rw [behind] at step
    cases skipped with
    | nil =>
      cases isLast
      exact ⟨⟨step.fits.last, step.fits.tokens, step.fits.chain, step.fits.first⟩, step.row⟩
    | cons second skipped =>
      rw [List.getLast?_cons_cons] at isLast
      have onward := ih step.fits rfl isLast
      exact ⟨onward.fits, step.row.append onward.row⟩

theorem skipTo (marks : List String) (fits : feed.Fits cut whole) :
    Reads cut whole feed [] (feed.skipTo marks) := by
  fun_cases Feed.skipTo feed marks with
  | case1 skipped token isLast =>
    refine fits.skip ?_ isLast
    exact (List.prefix_iff_eq_append.mp (List.takeWhile_prefix _)).symm
  | case2 => exact fits.nothing

end Feed.Fits

namespace Reads

variable {further : List Node} {finish : Feed}

theorem append (read : Reads cut whole feed nodes behind)
    (more : behind.Fits cut whole → Reads cut whole behind further finish) :
    Reads cut whole feed (nodes ++ further) finish :=
  ⟨(more read.fits).fits, read.row.append (more read.fits).row⟩

/-- One node and what follows it. -/
theorem cons {node : Node} (read : Reads cut whole feed [node] behind)
    (more : behind.Fits cut whole → Reads cut whole behind further finish) :
    Reads cut whole feed (node :: further) finish :=
  read.append more

/-- Nodes behind tokens that make none. -/
theorem after (read : Reads cut whole feed [] behind)
    (more : behind.Fits cut whole → Reads cut whole behind further finish) :
    Reads cut whole feed further finish :=
  read.append more

/-- Nodes before tokens that make none. -/
theorem before (read : Reads cut whole feed nodes behind)
    (more : behind.Fits cut whole → Reads cut whole behind [] finish) :
    Reads cut whole feed nodes finish := by
  have joined := read.append more
  rwa [List.append_nil] at joined

/-- The tokens of nodes that are left out. -/
theorem passed (read : Reads cut whole feed nodes behind) : Reads cut whole feed [] behind :=
  ⟨read.fits, .nil read.row.le⟩

theorem next (read : Reads cut whole feed nodes behind) : Reads cut whole feed nodes behind.next :=
  read.before fun fits => fits.next

theorem ite {condition : Prop} {decided : Decidable condition} (read : Reads cut whole feed nodes behind)
    (other : Reads cut whole feed nodes finish) :
    Reads cut whole feed nodes (if condition then behind else finish) := by
  split
  · exact read
  · exact other

/-- Nodes read in one of two ways. -/
theorem either {condition : Prop} {decided : Decidable condition} {left right : List Node × Feed}
    (found : (if condition then left else right) = (nodes, behind))
    (first : Reads cut whole feed left.1 left.2) (second : Reads cut whole feed right.1 right.2) :
    Reads cut whole feed nodes behind := by
  split at found
  · cases found
    exact first
  · cases found
    exact second

theorem skipMark (text : String) (read : Reads cut whole feed nodes behind) :
    Reads cut whole feed nodes (behind.skipMark text) :=
  read.next.ite read

theorem skipTo (marks : List String) (read : Reads cut whole feed nodes behind) :
    Reads cut whole feed nodes (behind.skipTo marks) :=
  read.before fun fits => fits.skipTo marks

/-! ### Nodes -/

/-- A node over a row, which is whole if it has to be. -/
theorem wrap {kind : NodeKind} {start : Nat} (read : Reads cut whole feed nodes behind)
    (atCut : cut start) (onward : feed.last ≤ start)
    (bare : kind = .string → nodes = [] → whole ⟨min start behind.last, behind.last⟩) :
    Reads cut whole feed [node kind start nodes behind] behind := by
  obtain ⟨first, isFirst⟩ : ∃ first, (nodes.head?.map (·.span.start)).getD behind.last = first :=
    ⟨_, rfl⟩
  have shape : Parser.node kind start nodes behind =
      .mk kind ⟨min start first, behind.last⟩ "" nodes := by
    subst isFirst
    rfl
  obtain ⟨firstCut, low, row⟩ : cut first ∧ feed.last ≤ first ∧
      Node.Row (Sound cut whole) first behind.last nodes := by
    subst isFirst
    cases nodes with
    | nil => exact ⟨read.fits.last, read.row.le, .nil (Nat.le_refl _)⟩
    | cons node rest =>
      obtain ⟨low, sound, inner, later⟩ := Node.Row.cons_iff.mp read.row
      exact ⟨sound.start, low, Node.Row.cons_iff.mpr ⟨Nat.le_refl _, sound, inner, later⟩⟩
  have startCut : cut (min start first) := by
    by_cases early : start ≤ first
    · rwa [Nat.min_eq_left early]
    · rwa [Nat.min_eq_right (by omega)]
  rw [shape]
  refine ⟨read.fits, .cons ?_ ⟨startCut, read.fits.last, ?_⟩ ?_ (.nil (Nat.le_refl _))⟩
  · show feed.last ≤ min start first
    omega
  · intro isString empty
    cases (show nodes = [] from empty)
    subst isFirst
    exact bare isString rfl
  · exact row.mono (Nat.min_le_right _ _) (Nat.le_refl _)

/-- A node over all that was read, from an offset on. -/
theorem nodeAt {kind : NodeKind} {start : Nat} (read : Reads cut whole feed nodes behind)
    (atCut : cut start) (onward : feed.last ≤ start) (notString : kind ≠ .string) :
    Reads cut whole feed [node kind start nodes behind] behind :=
  read.wrap atCut onward fun isString => absurd isString notString

/-- A node over all that was read. -/
theorem node {kind : NodeKind} (read : Reads cut whole feed nodes behind) (fits : feed.Fits cut whole)
    (notString : kind ≠ .string) :
    Reads cut whole feed [node kind feed.start nodes behind] behind :=
  read.nodeAt fits.start.1 fits.start.2 notString

/-- A node that starts where its first child does. -/
theorem extend {kind : NodeKind} {first : Node} (read : Reads cut whole feed (first :: nodes) behind)
    (notString : kind ≠ .string) :
    Reads cut whole feed [Parser.node kind first.span.start (first :: nodes) behind] behind := by
  obtain ⟨low, sound, _, _⟩ := Node.Row.cons_iff.mp read.row
  exact read.nodeAt sound.start low notString

end Reads

namespace Feed.Fits

theorem leaf {kind : NodeKind} (fits : feed.Fits cut whole) (notString : kind ≠ .string) :
    Reads cut whole feed [leaf kind feed] feed.next :=
  fits.next.node fits notString

/-- The next token, when its lexeme is known. -/
theorem exists_token {lexeme : Lexeme} (fits : feed.Fits cut whole) (isNext : feed.peek = some lexeme) :
    ∃ token rest, feed.tokens = token :: rest ∧ token.lexeme = lexeme ∧ TokenFits cut whole token ∧
      feed.start = token.span.start ∧ feed.next = ⟨rest, token.span.stop, feed.taken + 1⟩ := by
  unfold Feed.peek at isNext
  obtain ⟨token, first, rfl⟩ := Option.map_eq_some_iff.mp isNext
  obtain ⟨rest, tokens⟩ := List.head?_eq_some_iff.mp first
  refine ⟨token, rest, tokens, rfl, fits.tokens token (by rw [tokens]; exact List.mem_cons_self), ?_, ?_⟩
  · rw [Feed.start, tokens]
  · rw [Feed.next, tokens]

/-- The next two tokens, when their lexemes are known. -/
theorem exists_pair {lexeme lexemeToo : Lexeme} (fits : feed.Fits cut whole)
    (isNext : feed.peek = some lexeme) (isSecond : feed.next.peek = some lexemeToo) :
    ∃ token second, token.lexeme = lexeme ∧ second.lexeme = lexemeToo ∧ Follows whole token second ∧
      token.span.start ≤ second.span.stop ∧ feed.start = token.span.start ∧
      feed.next.next.last = second.span.stop := by
  obtain ⟨token, rest, tokens, isToken, fitsToken, start, behind⟩ := fits.exists_token isNext
  obtain ⟨second, others, tokensToo, isSecond, fitsSecond, _, behindToo⟩ :=
    fits.next.fits.exists_token isSecond
  have follows : Follows whole token second := by
    have chain := fits.chain
    rw [behind] at tokensToo
    rw [tokens, show rest = second :: others from tokensToo] at chain
    exact (List.isChain_cons_cons.mp chain).1
  have inOrder := follows.ordered
  have := fitsToken.ordered
  have := fitsSecond.ordered
  exact ⟨token, second, isToken, isSecond, follows, by omega, start, by rw [behindToo]⟩

/-- A literal in single quotes. -/
theorem literal (fits : feed.Fits cut whole) (isNext : feed.peek = some .literal) :
    Reads cut whole feed [Parser.leaf .string feed] feed.next := by
  refine fits.next.wrap fits.start.1 fits.start.2 fun _ _ => ?_
  obtain ⟨token, rest, _, lexeme, fitsToken, start, behind⟩ := fits.exists_token isNext
  rw [start, behind, Nat.min_eq_left fitsToken.ordered]
  exact fitsToken.literal lexeme

end Feed.Fits

/-- A node behind its attributes, which belong to it. -/
theorem Reads.noted {notes children : List Node} {kind : NodeKind} {span : Span} {label : String}
    {finish : Feed} (fits : feed.Fits cut whole) (isNext : feed.peek = some (.mark "#["))
    (read : Reads cut whole feed.next notes behind)
    (more : Reads cut whole behind [.mk kind span label children] finish) :
    Reads cut whole feed [.mk kind ⟨feed.start, span.stop⟩ label (notes ++ children)] finish := by
  obtain ⟨token, rest, _, lexeme, fitsToken, start, next⟩ := fits.exists_token isNext
  obtain ⟨onward, sound, inner, later⟩ := Node.Row.cons_iff.mp more.row
  simp only [Node.span, Node.children] at onward inner later
  have notesRow := read.row
  rw [next] at notesRow
  have row : Node.Row (Sound cut whole) token.span.start span.stop (notes ++ children) :=
    (notesRow.mono fitsToken.ordered onward).append inner
  rw [start]
  refine ⟨more.fits, .cons ?_ ⟨fitsToken.start, sound.stop, fun _ _ => ?_⟩ row later⟩
  · rw [← start]
    exact fits.start.2
  · exact fitsToken.note lexeme _ sound.stop row.le

/-! ### Targets of assignments -/

/-- An array read as a target of assignments stays nested. -/
theorem row_destructured {lo hi : Nat} (row : Node.Row (Sound cut whole) lo hi nodes) :
    Node.Row (Sound cut whole) lo hi (destructuredEntries nodes) ∧
      Node.Row (Sound cut whole) lo hi (destructuredParts nodes) := by
  induction row with
  | nil ordered =>
    rw [destructuredEntries, destructuredParts]
    exact ⟨.nil ordered, .nil ordered⟩
  | @cons lo hi kind span text children rest behind sound inner later innerRead laterRead =>
    constructor
    · by_cases isElement : kind = .element
      · subst isElement
        rw [destructuredEntries]
        exact (innerRead.2.mono behind (Nat.le_refl _)).append laterRead.1
      · rw [destructuredEntries]
        · exact .cons behind sound inner laterRead.1
        · rintro _ _ _ same
          cases same
          exact isElement rfl
    · rw [destructuredParts]
      by_cases isArray : kind = .array
      · subst isArray
        rw [destructured]
        exact .cons behind ⟨sound.start, sound.stop, nofun⟩ innerRead.1 laterRead.2
      · rw [destructured]
        · exact .cons behind sound inner laterRead.2
        · rintro _ _ _ same
          cases same
          exact isArray rfl

theorem Reads.destructured {item : Node} (read : Reads cut whole feed [item] behind) :
    Reads cut whole feed [destructured item] behind := by
  have row := (row_destructured read.row).2
  rw [destructuredParts, destructuredParts] at row
  exact ⟨read.fits, row⟩

/-- A node that may be a target of assignments. -/
theorem Reads.target {condition : Prop} {decided : Decidable condition} {item : Node}
    (read : Reads cut whole feed [item] behind) :
    Reads cut whole feed [if condition then Parser.destructured item else item] behind := by
  split
  · exact read.destructured
  · exact read

end Parser

end ArtifactIndex
