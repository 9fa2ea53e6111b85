import MergedMining.CommandLine.Request
import MergedMining.Logging.WorkEvents
import MergedMining.Params.File
import MergedMining.Version.Text

/-!
# What tasks have to say

A task reads at most one file, whose content is given to it, and reports what it logs, what it
prints, what is to be written to a file, and why it fails.

## Main definitions

* `CommandLine.Command.source?` — the file that a task reads.
* `CommandLine.Report` — what a task has to say.
* `CommandLine.Command.run` — does a task.
-/

namespace MergedMining.CommandLine

/-- What a task has to say. -/
structure Report where
  /-- What is logged. -/
  events : List Logging.Event := []
  /-- What is printed. -/
  output : String := ""
  /-- A file to be written: its path and its text. -/
  file : Option (String × String) := none
  /-- Why the task fails: the failure and its causes, one after the other. -/
  failure : List String := []
  deriving DecidableEq

/-- The report of a task, or its failure. -/
def Report.ofExcept : Except (List String) Report → Report
  | .ok report => report
  | .error failure => { failure }

/-- The path of the file that a task reads, if it reads one. -/
def Command.source? : Command → Option String
  | .checkHeader _ params => some params
  | .decodeVersion _ params => params
  | _ => none

/-- The parameters of a file. -/
def loadParams (path : String) (content : Except FileError Bytes) :
    Except (List String) Params :=
  (Params.ofFile path content).mapError fun error =>
    ("failed to load params from " ++ path) :: error.messages

/-- Reads hexadecimal digits, perhaps behind `0x`; white space around them does not count. -/
def readHex (text : String) : Except (List String) Bytes :=
  let digits := match (Text.trim text).toList with
    | '0' :: 'x' :: digits => digits
    | digits => digits
  (Hex.decode (String.ofList digits)).mapError fun error => ["invalid hex", error.message]

/-- The causes of an error on the wire: the end of the input has one more. -/
def wireMessages (error : Wire.Error) : List String :=
  match error with
  | .endOfInput => [error.message, "I/O Error: UnexpectedEof"]
  | error => [error.message]

/-- The report on a header. -/
def judge (header : MergedHeader) (params : Params) : Report :=
  let hash := header.hash.display
  let checking : Logging.Event :=
    ⟨.debug, "auxpow_tool::cmd::check_header", "checking header",
      [("blkid", .text hash), ("auxpow", .flag header.proof.isSome)]⟩
  let events := checking :: header.workEvents params
  match header.checkWork params with
  | .ok () => { events, output := "valid " ++ hash ++ "\n" }
  | .error reason =>
      { events
        output := "rejected " ++ hash ++ ": " ++ reason.message ++ "\n"
        failure := ["header rejected: " ++ reason.message] }

/-- The fields of a version, one on each line. -/
def describe (version : Version) (layout : Version.Layout) : String :=
  let fields := layout.decode version
  let flag (b : Bool) := if b then "true" else "false"
  "version:      " ++ Version.decimal version ++ " (" ++ Hex.word version ++ ")\n" ++
    "base_version: " ++ toString fields.base.toNat ++ "\n" ++
    "chain_id:     " ++ toString fields.chainId.toNat ++ "\n" ++
    "auxpow:       " ++ flag fields.merged ++ "\n" ++
    "legacy:       " ++ flag (Version.isLegacy version) ++ "\n"

/-- Does a task; `content` is what the file it reads holds. -/
def Command.run (content : Except FileError Bytes) : Command → Report
  | .checkHeader header path => .ofExcept do
      let params ← loadParams path content
      let data ← readHex header
      let header ← (MergedHeader.ofBytes params.layout data).mapError fun error =>
        "failed to decode header" :: wireMessages error
      return judge header params
  | .expectedIndex nonce chainId height =>
      { output := toString (slot nonce chainId height.toNat).toNat ++ "\n" }
  | .decodeVersion version path => .ofExcept do
      let version ← (Version.ofText version).mapError Version.TextError.messages
      let layout ← match path with
        | some path => (loadParams path content).map Params.layout
        | none => pure .standard
      return { output := describe version layout }
  | .defaultParams chainId regtest output => .ofExcept do
      let chainId := chainId.getD 1
      let params := if regtest then Params.regtest chainId else Params.standard chainId
      params.validate.mapError ParamsError.messages
      match output with
      | some path => return { file := some (path, params.toToml) }
      | none => return { output := params.toToml }

end MergedMining.CommandLine
