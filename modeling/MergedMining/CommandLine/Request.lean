import MergedMining.CommandLine.Grammar

/-!
# Requests on the command line

What the tool can be asked to do, and how that is written as arguments.

## Main definitions

* `CommandLine.Command` — a task.
* `CommandLine.Request` — a task and how to log meanwhile, `CommandLine.Request.ofArguments` reads
  one.
-/

namespace MergedMining.CommandLine

/-- A task. -/
inductive Command where
  /-- Judges a header, given in hexadecimal digits, by the parameters in a file. -/
  | checkHeader (header params : String)
  /-- Tells the slot of a chain. -/
  | expectedIndex (nonce chainId height : UInt32)
  /-- Takes a version apart, by the layout in a file if one is named. -/
  | decodeVersion (version : String) (params : Option String)
  /-- Writes parameters with default values, to a file if one is named. -/
  | defaultParams (chainId : Option UInt32) (regtest : Bool) (output : Option String)
  deriving DecidableEq, Repr

/-- A task and how to log meanwhile. -/
structure Request where
  /-- Whether the log has details. -/
  verbose : Bool
  /-- Whether the log is written as JSON. -/
  jsonLogs : Bool
  /-- The task. -/
  command : Command
  deriving DecidableEq, Repr

/-- How the tool is called. -/
def toolName : String := "auxpow-tool"

/-! ### Grammars -/

/-- What has been read of a request. -/
structure Draft where
  /-- Whether the log has details. -/
  verbose : Bool := false
  /-- Whether the log is written as JSON. -/
  jsonLogs : Bool := false
  /-- A header in hexadecimal digits. -/
  header : String := ""
  /-- A version. -/
  version : String := ""
  /-- A nonce. -/
  nonce : UInt32 := 0
  /-- A chain id. -/
  chainId : Option UInt32 := none
  /-- The height of a branch. -/
  height : UInt32 := 0
  /-- A file of parameters. -/
  params : Option String := none
  /-- Whether the parameters are for trying out. -/
  regtest : Bool := false
  /-- A file to write to. -/
  output : Option String := none

/-- Reads a 32-bit number into a draft. -/
def readNumber (set : UInt32 → Draft → Draft) (text : String) :
    Except IntegerError (Draft → Draft) :=
  (Integer.readWord 10 text).map set

/-- The option that names a file of parameters. -/
def paramsSetting (isRequired : Bool) (about : String) : Setting Draft where
  names := ["-p", "--params"]
  about := about
  effect := .value "params" isRequired (·.params.isSome) fun path =>
    .ok fun draft => { draft with params := some path }

/-- What judging a header takes. -/
def checkHeader : Grammar Draft where
  name := toolName ++ " check-header"
  about := "checks the proof-of-work of a hex-encoded header"
  settings := [paramsSetting true "consensus params file, .json or .toml"]
  positionals :=
    [⟨"header", "consensus-encoded header, followed by its auxpow if flagged", fun text =>
        .ok fun draft => { draft with header := text }⟩]

/-- What telling a slot takes. -/
def expectedIndex : Grammar Draft where
  name := toolName ++ " expected-index"
  about := "computes the merge-mining slot of a chain"
  settings := []
  positionals :=
    [⟨"nonce", "nonce from the parent coinbase",
        readNumber fun n draft => { draft with nonce := n }⟩,
     ⟨"chain_id", "chain id", readNumber fun n draft => { draft with chainId := some n }⟩,
     ⟨"height", "merkle branch height", readNumber fun n draft => { draft with height := n }⟩]

/-- What taking a version apart takes. -/
def decodeVersion : Grammar Draft where
  name := toolName ++ " decode-version"
  about := "splits a header version into its fields"
  settings :=
    [paramsSetting false "consensus params file to take the layout from (default layout)"]
  positionals :=
    [⟨"version", "version, decimal or 0x-prefixed hex", fun text =>
        .ok fun draft => { draft with version := text }⟩]

/-- What writing parameters takes. -/
def defaultParams : Grammar Draft where
  name := toolName ++ " default-params"
  about := "prints default consensus params as TOML"
  settings :=
    [⟨["-c", "--chain-id"], "chain id (default 1)",
        .value "chain-id" false (·.chainId.isSome)
          (readNumber fun n draft => { draft with chainId := some n })⟩,
     ⟨["--regtest"], "use the regtest pow limit",
        .switch fun draft => { draft with regtest := true }⟩,
     ⟨["-o", "--output"], "output file path (default stdout)",
        .value "output" false (·.output.isSome) fun path =>
          .ok fun draft => { draft with output := some path }⟩]

/-- The tasks: a name, what it takes, and what is asked for when that has been read. -/
def tasks : List (String × Grammar Draft × (Draft → Command)) :=
  [("check-header", checkHeader, fun draft => .checkHeader draft.header (draft.params.getD "")),
   ("expected-index", expectedIndex, fun draft =>
      .expectedIndex draft.nonce (draft.chainId.getD 0) draft.height),
   ("decode-version", decodeVersion, fun draft => .decodeVersion draft.version draft.params),
   ("default-params", defaultParams, fun draft =>
      .defaultParams draft.chainId draft.regtest draft.output)]

/-- What the tool takes. -/
def tool : Grammar Draft where
  name := toolName
  about := "Args."
  settings :=
    [⟨["-v", "--verbose"], "log at debug level",
        .switch fun draft => { draft with verbose := true }⟩,
     ⟨["--json-logs"], "emit logs as JSON",
        .switch fun draft => { draft with jsonLogs := true }⟩]
  commands := tasks.map fun (name, grammar, _) => (name, grammar.about)

/-! ### Requests -/

/-- Reads a request. -/
def Request.ofArguments (arguments : List String) : Except Stop Request := do
  let (draft, command) ← tool.parse {} arguments
  match command.bind fun (name, rest) => (tasks.lookup name).map (·, rest) with
  | some ((grammar, command), rest) =>
      let (inner, _) ← grammar.parse {} rest
      return ⟨draft.verbose, draft.jsonLogs, command inner⟩
  | none => throw (.help tool.usage)

end MergedMining.CommandLine
