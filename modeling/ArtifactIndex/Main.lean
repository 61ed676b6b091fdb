/-
**The program.**

The first line of standard input is a snapshot of the directory to run in; what follows it is the
input of the command. The arguments are those of the command.
-/

import ArtifactIndex.CommandLine
import ArtifactIndex.Snapshot

namespace ArtifactIndex

/-- The rest of a stream. -/
partial def readRest (stream : IO.FS.Stream) (read : String) : IO String := do
  let line ← stream.getLine
  if line.isEmpty then return read
  readRest stream (read ++ line)

end ArtifactIndex

open ArtifactIndex in
/-- Runs the command on the snapshot. -/
def main (arguments : List String) : IO UInt32 := do
  let stream ← IO.getStdin
  let first ← stream.getLine
  let input ← readRest stream ""
  match Json.parse first with
  | .error fault =>
    IO.eprintln (fault.describe first)
    return 1
  | .ok value =>
    let snapshot := Snapshot.ofJson value
    let outcome := CommandLine.run ⟨snapshot.disk, snapshot.environment, input⟩ arguments
    IO.print outcome.output
    return UInt32.ofNat outcome.status
