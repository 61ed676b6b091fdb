/-
**The command line.**

The program is run in a directory with a subcommand and its options: to serve requests, to scan once,
to list the keys of a kind, or to answer a single request. `CommandLine.parse` reads the arguments and
`CommandLine.run` gives the status and the output of the whole run.
-/

import ArtifactIndex.Service.Request
import ArtifactIndex.Tree.Disk

namespace ArtifactIndex

namespace CommandLine

/-- The subcommands. -/
inductive Subcommand where
  | serve
  | reindex
  | list
  | request
deriving Repr, DecidableEq

namespace Subcommand

/-- The subcommand of a name. -/
def ofName? (name : String) : Option Subcommand :=
  match name with
  | "serve" => some .serve
  | "reindex" => some .reindex
  | "list" => some .list
  | "request" => some .request
  | _ => none

/-- The options with values that a subcommand takes. -/
def valueOptions : Subcommand → List String
  | .serve => ["repo"]
  | .reindex => ["repo"]
  | .list => ["repo", "kind"]
  | .request => ["repo", "method", "params", "params-file", "id"]

end Subcommand

/-- The switches that every subcommand takes. -/
def switches : List String := ["no-ignore", "strict-json"]

/-- The options whose value is a path, which is never empty. -/
def pathOptions : List String := ["repo", "params-file"]

/-- The options given so far. -/
structure Given where
  values : List (String × String) := []
  switches : List String := []

/-- The value of an option. -/
def Given.value? (given : Given) (name : String) : Option String := given.values.lookup name

/-- Why no command is run. -/
inductive Refusal where
  /-- The version is asked for. -/
  | version
  /-- Help is asked for. -/
  | help
  /-- The arguments make no command. -/
  | usage
deriving Repr, DecidableEq

/-- Adds a value to the options; an option is given once, and its value has to make sense. -/
def Given.setValue (given : Given) (name value : String) : Except Refusal Given :=
  if (given.value? name).isSome then .error .usage
  else if pathOptions.contains name && value.isEmpty then .error .usage
  else if name == "kind" && (Kind.ofText? value).isNone then .error .usage
  else .ok { given with values := given.values ++ [(name, value)] }

/-- Adds a switch to the options; a switch is given once and has no value. -/
def Given.setSwitch (given : Given) (name : String) (value : Option String) : Except Refusal Given :=
  if value.isSome || given.switches.contains name then .error .usage
  else .ok { given with switches := given.switches ++ [name] }

/-- A text that can stand as the value behind an option: it does not look like an option itself. -/
def isValue (text : String) : Bool := text == "-" || !startsWith "-" text

/-- The name of an option, and its value where one is written behind an equals sign. -/
def splitOption (body : String) : String × Option String :=
  match splitFirst? '=' body with
  | some (name, value) => (name, some value)
  | none => (body, none)

/-- Reads the options of a subcommand. -/
def readOptions (subcommand : Subcommand) (given : Given) : List String → Except Refusal Given
  | [] => .ok given
  | argument :: rest =>
    if argument == "--" then if rest.isEmpty then .ok given else .error .usage
    else if argument == "--help" || startsWith "-h" argument then .error .help
    else
      match afterStart? "--" argument with
      | none => .error .usage
      | some body =>
        let (name, inline) := splitOption body
        if switches.contains name then
          match given.setSwitch name inline with
          | .error refusal => .error refusal
          | .ok given => readOptions subcommand given rest
        else if !subcommand.valueOptions.contains name then .error .usage
        else
          match inline, rest with
          | some value, rest =>
            match given.setValue name value with
            | .error refusal => .error refusal
            | .ok given => readOptions subcommand given rest
          | none, [] => .error .usage
          | none, value :: rest =>
            if !isValue value then .error .usage
            else
              match given.setValue name value with
              | .error refusal => .error refusal
              | .ok given => readOptions subcommand given rest

/-- What a command does. -/
inductive Task where
  | serve
  | reindex
  | list (kind : Kind)
  | request (method params : String) (paramsFile : Option String) (id : String)
deriving Repr, DecidableEq

/-- A command: what it does, and on which project. -/
structure Command where
  task : Task
  repo : String
  noIgnore : Bool
  strictJson : Bool
deriving Repr, DecidableEq

/-- The task that the options describe; `none` when one is missing. -/
def taskOf? (subcommand : Subcommand) (given : Given) : Option Task :=
  match subcommand with
  | .serve => some .serve
  | .reindex => some .reindex
  | .list => ((given.value? "kind").bind Kind.ofText?).map .list
  | .request =>
    (given.value? "method").map fun method =>
      .request method ((given.value? "params").getD "\x7b\x7d") (given.value? "params-file")
        ((given.value? "id").getD "1")

/-- The command that arguments make. -/
def parse (arguments : List String) : Except Refusal Command :=
  match arguments with
  | [] => .error .usage
  | first :: rest =>
    if first == "--version" || startsWith "-V" first then .error .version
    else if first == "--help" || startsWith "-h" first then .error .help
    else if first == "help" then
      .error (if rest.all fun name => (Subcommand.ofName? name).isSome || name == "help" then .help else .usage)
    else
      match Subcommand.ofName? first with
      | none => .error .usage
      | some subcommand =>
        match readOptions subcommand {} rest with
        | .error refusal => .error refusal
        | .ok given =>
          match taskOf? subcommand given with
          | none => .error .usage
          | some task =>
            .ok
              { task
                repo := (given.value? "repo").getD "."
                noIgnore := given.switches.contains "no-ignore"
                strictJson := given.switches.contains "strict-json" }

/-! ### Running -/

/-- What a command is run with. -/
structure Surroundings where
  /-- The directory in which it is run. -/
  disk : DiskEntry
  /-- The environment variables with their values. -/
  environment : List (String × String)
  /-- The text on standard input. -/
  input : String

/-- The result of a run. -/
structure Outcome where
  status : Nat
  output : String
deriving Repr, DecidableEq

/-- A run that ends without output. -/
def silent (status : Nat) : Outcome := ⟨status, ""⟩

/-- A run that succeeds and prints a line. -/
def printing (line : String) : Outcome := ⟨0, line ++ "\n"⟩

/-- The entry that a path leads to from the directory of the run, with the rules around it. Nothing is
known of paths that leave the directory. -/
def entryAt? (disk : DiskEntry) (path : String) : Option (DiskEntry × List IgnoreLevel) :=
  if startsWith "/" path then none
  else
    match disk.locate path with
    | .ok (some names) => disk.descend? [] names
    | .ok none => some (.empty, [])
    | .error _ => none

/-- The text of the file that a path leads to from the directory of the run. -/
def textAt? (disk : DiskEntry) (path : String) : Option String :=
  match entryAt? disk path with
  | some (.file bytes, _) => String.fromUTF8? bytes
  | _ => none

/-- The lines of a text; a return before a line's end does not belong to it. -/
def linesOf (text : String) : List String :=
  let pieces := segments '\n' text
  let complete := pieces.dropLast.map fun line => (beforeEnd? "\r" line).getD line
  complete ++ (pieces.getLast?.toList.filter (!·.isEmpty))

/-- Runs a task on a project. -/
def runTask (surroundings : Surroundings) (tree : Tree) (options : Options) : Task → Outcome
  | .serve =>
    let service := (Service.start options.strictJson true).request
    let responses := service.respondToLines tree (linesOf surroundings.input)
    ⟨0, Json.concat (responses.map fun response => response.line ++ "\n")⟩
  | .reindex =>
    printing (Json.object ((Index.empty options.strictJson).refresh tree).stats.members).pretty
  | .list kind =>
    printing (Json.strings (((Index.empty options.strictJson).refresh tree).keys kind)).pretty
  | .request method params paramsFile id =>
    let params :=
      match paramsFile with
      | some path => textAt? surroundings.disk path
      | none => some params
    match params with
    | none => silent 1
    | some params =>
      match Service.respondOnce tree options method params id with
      | .ok response => printing response.line
      | .error _ => silent 1

/-- Runs a command. -/
def runCommand (surroundings : Surroundings) (command : Command) : Outcome :=
  let defaults := Options.ofEnvironment fun name => surroundings.environment.lookup name
  let options := defaults.withSwitches command.noIgnore command.strictJson
  match entryAt? surroundings.disk command.repo with
  | none => silent 1
  | some (entry, outer) => runTask surroundings (entry.toTree outer options) options command.task

/-- The name and the version of the program. -/
def versionLine : String := "laridx 0.1.0"

/-- Runs the program with arguments. -/
def run (surroundings : Surroundings) (arguments : List String) : Outcome :=
  match parse arguments with
  | .ok command => runCommand surroundings command
  | .error .version => printing versionLine
  | .error .help => silent 0
  | .error .usage => silent 2

end CommandLine

end ArtifactIndex
