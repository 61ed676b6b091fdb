/-
**Options.**

What can be chosen about a project's index: which files count, how large they may be, and how
strictly files of flat translations are read. The environment sets the defaults, a command's switches
come on top.

* `Options.ofEnvironment`: the options that environment variables give; a value that cannot be read
  leaves the default.
-/

import ArtifactIndex.Tree.Basic

namespace ArtifactIndex

/-- What can be chosen about an index. -/
structure Options where
  /-- Files count even if ignore rules leave them out. -/
  noIgnore : Bool := false
  /-- Files of flat translations are read as JSON, not by their look. -/
  strictJson : Bool := false
  /-- Larger files are left out. -/
  maxFileBytes : Nat := 2 * 1024 * 1024
  /-- The names of directories whose files do not count. -/
  excludedDirectories : List String := defaultExcludedDirectories
deriving Repr, DecidableEq

namespace Options

/-- A number of at most 64 bits, written in digits with an optional plus sign. -/
def readNumber? (text : String) : Option Nat :=
  let digits :=
    match text.toList with
    | '+' :: rest => rest
    | chars => chars
  if digits.isEmpty || !digits.all Char.isDigit then none
  else
    let value := digits.foldl (fun sum c => sum * 10 + (c.toNat - '0'.toNat)) 0
    if value < 0x10000000000000000 then some value else none

/-- A switch written as a word. -/
def readSwitch? (text : String) : Option Bool :=
  let word := lowered (trimmed text)
  if ["1", "true", "yes", "on"].contains word then some true
  else if ["0", "false", "no", "off", ""].contains word then some false
  else none

/-- Names divided by commas. -/
def readNames (text : String) : List String :=
  ((segments ',' text).map trimmed).filter (!·.isEmpty)

/-- The options that environment variables give. -/
def ofEnvironment (lookup : String → Option String) : Options :=
  let defaults : Options := {}
  { defaults with
    maxFileBytes := ((lookup "LARIDX_MAX_FILE_BYTES").bind fun text => readNumber? (trimmed text)).getD
      defaults.maxFileBytes
    excludedDirectories := ((lookup "LARIDX_EXCLUDE_DIRS").map readNames).getD
      defaults.excludedDirectories
    strictJson := ((lookup "LARIDX_STRICT_JSON").bind readSwitch?).getD defaults.strictJson }

/-- The options with a command's switches; a switch can turn strict reading on, never off. -/
def withSwitches (options : Options) (noIgnore strictJson : Bool) : Options :=
  { options with noIgnore, strictJson := options.strictJson || strictJson }

end Options

end ArtifactIndex
