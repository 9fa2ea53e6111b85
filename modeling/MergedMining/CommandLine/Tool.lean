import MergedMining.CommandLine.Report
import MergedMining.Logging.Line

/-!
# The command-line tool

From arguments and files to what the tool prints and the status it ends with.

## Main definitions

* `CommandLine.Outcome` — what the tool prints and its status.
* `CommandLine.Outcome.ofStop`, `CommandLine.Outcome.ofReport` — the outcome where there is nothing
  to run, and the outcome of a task.
* `CommandLine.run` — the tool among files.
-/

namespace MergedMining.CommandLine

/-- What the tool prints and the status it ends with. -/
structure Outcome where
  /-- The status; zero means success. -/
  status : Nat := 0
  /-- What goes to standard output. -/
  output : String := ""
  /-- What goes to standard error. -/
  error : String := ""
  deriving DecidableEq

/-! ### Failures -/

/-- A cause with all its lines indented; causes are numbered if there are several. -/
def causeText (number : Option Nat) (cause : String) : String :=
  let (first, others) := match number with
    | some n => (String.ofList (List.replicate (5 - (toString n).length) ' ') ++ toString n ++ ": ",
        "\n       ")
    | none => ("    ", "\n    ")
  "\n" ++ first ++ others.intercalate (cause.splitOn "\n")

/-- Numbered causes, from `n` on. -/
def causeTexts (n : Nat) : List String → List String
  | [] => []
  | cause :: causes => causeText (some n) cause :: causeTexts (n + 1) causes

/-- A failure and its causes. -/
def failureText : List String → String
  | [] => ""
  | [failure] => failure
  | [failure, cause] => failure ++ "\n\nCaused by:" ++ causeText none cause
  | failure :: causes => failure ++ "\n\nCaused by:" ++ String.join (causeTexts 0 causes)

/-! ### Outcomes -/

namespace Outcome

/-- The outcome where there is nothing to run. -/
def ofStop : Stop → Outcome
  | .help usage => { output := usage ++ "\n" }
  | .error reason =>
      { status := 1
        error := reason.message ++ "\nRun " ++ toolName ++ " --help for more information.\n" }

/-- The outcome of a task that logs in this way; `written` tells how writing its file went. -/
def ofReport (config : Logging.Config) (time : String) (report : Report)
    (written : Except FileError Unit) : Outcome :=
  let output := config.toOutput time report.events ++ report.output
  let failure := match report.file, written with
    | some (path, _), .error error => ["failed to write " ++ path, error.message]
    | _, _ => report.failure
  if failure.isEmpty then { output }
  else { status := 1, output, error := "ERROR\n" ++ failureText failure ++ "\n" }

end Outcome

/-- How a request logs. -/
def Request.logging (request : Request) : Logging.Config where
  service := toolName
  level := if request.verbose then .debug else .warn
  format := if request.jsonLogs then .json else .compact

/-- Runs the tool among files; gives the files afterwards too. -/
def run (time : String) (tree : FileTree) (arguments : List String) : Outcome × FileTree :=
  match Request.ofArguments arguments with
  | .error stop => (.ofStop stop, tree)
  | .ok request =>
      let content := request.command.source?.elim (.error .absent) tree.read
      let report := request.command.run content
      let written := match report.file with
        | some (path, text) => tree.write path (Bytes.ofText text)
        | none => .ok tree
      (.ofReport request.logging time report (written.map fun _ => ()),
        written.toOption.getD tree)

end MergedMining.CommandLine
