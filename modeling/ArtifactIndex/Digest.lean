/-
**Content digests.**

A file whose content has not changed keeps its parsed routes; contents are compared by their
256-bit BLAKE3 digest, written in lower-case hexadecimal.

The digest is a tree: the content is cut into chunks of 1024 bytes, a chunk is compressed block by
block into eight words, and neighbouring results are compressed in pairs until one remains, an odd
one at the end being carried up unchanged. The last compression carries the mark of the root.
-/

namespace ArtifactIndex

namespace Digest

/-- Words of the compression function, in order. -/
abbrev Words := Array UInt32

/-- The word at a position, zero behind the end. -/
def wordAt (words : Words) (index : Nat) : UInt32 := words.getD index 0

/-- The words from which every compression starts. -/
def initial : Words :=
  #[0x6A09E667, 0xBB67AE85, 0x3C6EF372, 0xA54FF53A, 0x510E527F, 0x9B05688C, 0x1F83D9AB, 0x5BE0CD19]

/-- The order in which a round's message words are taken for the next round. -/
def schedule : List Nat := [2, 6, 3, 10, 7, 0, 4, 13, 1, 11, 12, 5, 9, 14, 15, 8]

/-- Rotation of a word to the right. -/
def rotateRight (word : UInt32) (count : UInt32) : UInt32 :=
  (word >>> count) ||| (word <<< (32 - count))

/-- Mixes two message words into four words of the state. -/
def quarter (state : Words) (a b c d : Nat) (first second : UInt32) : Words :=
  let wa := wordAt state a + wordAt state b + first
  let wd := rotateRight (wordAt state d ^^^ wa) 16
  let wc := wordAt state c + wd
  let wb := rotateRight (wordAt state b ^^^ wc) 12
  let wa := wa + wb + second
  let wd := rotateRight (wd ^^^ wa) 8
  let wc := wc + wd
  let wb := rotateRight (wb ^^^ wc) 7
  (((state.setIfInBounds a wa).setIfInBounds b wb).setIfInBounds c wc).setIfInBounds d wd

/-- The eight groups of state words that a round mixes: the columns, then the diagonals. -/
def lanes : List (Nat × Nat × Nat × Nat) :=
  [(0, 4, 8, 12), (1, 5, 9, 13), (2, 6, 10, 14), (3, 7, 11, 15), (0, 5, 10, 15), (1, 6, 11, 12),
    (2, 7, 8, 13), (3, 4, 9, 14)]

/-- One round: the message words are used in pairs, one pair for each lane. -/
def round (state block : Words) : Words :=
  (lanes.zipIdx).foldl (fun state lane =>
    let ((a, b, c, d), index) := lane
    quarter state a b c d (wordAt block (2 * index)) (wordAt block (2 * index + 1))) state

/-- The message words in the order of the next round. -/
def reorder (block : Words) : Words :=
  (schedule.map (wordAt block)).toArray

/-- A number of rounds, with the message words reordered between them. -/
def rounds : Nat → Words → Words → Words
  | 0, state, _ => state
  | count + 1, state, block => rounds count (round state block) (reorder block)

/-- A compression that has not been run: its chaining words, message block, counter, the bytes in
the block and the marks of its place in the tree. -/
structure Step where
  chain : Words
  block : Words
  counter : Nat
  length : Nat
  marks : UInt32

/-- The first block of a chunk. -/
def chunkStart : UInt32 := 1

/-- The last block of a chunk. -/
def chunkEnd : UInt32 := 2

/-- A pair of results. -/
def parent : UInt32 := 4

/-- The last compression of all. -/
def root : UInt32 := 8

/-- The eight words a compression yields. -/
def Step.run (step : Step) : Words :=
  let state := step.chain ++ initial.extract 0 4 ++
    #[UInt32.ofNat step.counter, UInt32.ofNat (step.counter / 0x100000000), UInt32.ofNat step.length,
      step.marks]
  let state := rounds 7 state step.block
  ((List.range 8).map fun index => wordAt state index ^^^ wordAt state (index + 8)).toArray

/-- The little-endian words of at most 64 bytes, padded with zeros. -/
def wordsOf (bytes : ByteArray) : Words :=
  let byteAt := fun index => (bytes.data.getD index 0).toUInt32
  ((List.range 16).map fun index =>
    byteAt (4 * index) ||| (byteAt (4 * index + 1) <<< 8) ||| (byteAt (4 * index + 2) <<< 16) |||
      (byteAt (4 * index + 3) <<< 24)).toArray

/-- The pieces of the given size, at least one; the last may be shorter. -/
def pieces (size : Nat) (bytes : ByteArray) : List ByteArray :=
  let count := max 1 ((bytes.size + size - 1) / size)
  (List.range count).map fun index => bytes.extract (index * size) ((index + 1) * size)

/-- The last compression of a chunk, after its earlier blocks have been chained through. -/
def chunkStep (counter : Nat) (chain : Words) (first : UInt32) : List ByteArray → Step
  | [] => ⟨chain, #[], counter, 0, first ||| chunkEnd⟩
  | [block] => ⟨chain, wordsOf block, counter, block.size, first ||| chunkEnd⟩
  | block :: rest =>
    chunkStep counter (Step.run ⟨chain, wordsOf block, counter, block.size, first⟩) 0 rest

/-- The compression of two neighbouring results. -/
def pairStep (left right : Step) : Step :=
  ⟨initial, left.run ++ right.run, 0, 64, parent⟩

/-- Neighbours in pairs, an odd one at the end unchanged. -/
def pairUp : List Step → List Step
  | left :: right :: rest => pairStep left right :: pairUp rest
  | rest => rest

theorem length_pairUp_le (steps : List Step) : (pairUp steps).length ≤ steps.length := by
  fun_induction pairUp steps with
  | case1 left right rest ih => simp only [List.length_cons]; omega
  | case2 => exact Nat.le_refl _

/-- The last compression of the tree over a row of results. -/
def rootStep (steps : List Step) : Option Step :=
  match steps with
  | [] => none
  | [last] => some last
  | left :: right :: rest => rootStep (pairStep left right :: pairUp rest)
termination_by steps.length
decreasing_by
  have := length_pairUp_le rest
  simp only [List.length_cons]
  omega

/-- The two hexadecimal digits of a byte. -/
def hexDigits (byte : UInt8) : List Char :=
  [Nat.digitChar (byte.toNat / 16), Nat.digitChar (byte.toNat % 16)]

/-- The hexadecimal form of words, each in little-endian order. -/
def hexOfWords (words : Words) : String :=
  String.ofList (words.toList.flatMap fun (word : UInt32) =>
    [word, word >>> 8, word >>> 16, word >>> 24].flatMap fun (part : UInt32) => hexDigits part.toUInt8)

/-- The digest of a sequence of bytes. -/
def ofBytes (bytes : ByteArray) : String :=
  let chunks := (pieces 1024 bytes).zipIdx.map fun chunk =>
    chunkStep chunk.2 initial chunkStart (pieces 64 chunk.1)
  match rootStep chunks with
  | some step => hexOfWords (Step.run { step with marks := step.marks ||| root })
  | none => ""

/-- The digest of a text. -/
def ofText (text : String) : String := ofBytes text.toByteArray

end Digest

end ArtifactIndex
