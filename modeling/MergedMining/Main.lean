import MergedMining.CommandLine.Tool
import MergedMining.Logging.Moment
import Std.Time.DateTime

/-!
# Command line

Fetches arguments, files and the time of day, and prints what the tool makes of them.
-/

namespace MergedMining

/-- What a failed access to a file means. -/
def FileError.ofSystem : IO.Error → FileError
  | .noFileOrDirectory .. => .absent
  | .permissionDenied .. => .refused "Permission denied (os error 13)"
  | .resourceExhausted _ code details =>
      if code = 28 then .noSpace
      else .refused (details ++ " (os error " ++ toString code.toNat ++ ")")
  | .inappropriateType _ _ details =>
      if details.toLower == "not a directory" then .notFolder else .isFolder
  | .invalidArgument _ _ details =>
      if details.toLower.endsWith "name too long" then .nameTooLong else .refused details
  | error => .refused (toString error)

/-- Reads a file. -/
def readFile (path : String) : IO (Except FileError Bytes) := do
  try
    let data ← IO.FS.readBinFile path
    return .ok data.toList
  catch error => return .error (.ofSystem error)

/-- Writes a file. -/
def writeFile (path text : String) : IO (Except FileError Unit) := do
  try
    IO.FS.writeFile path text
    return .ok ()
  catch error => return .error (.ofSystem error)

/-- Runs a request on the files of the system. -/
def CommandLine.Request.runOnSystem (request : Request) : IO Outcome := do
  let content ← match request.command.source? with
    | some path => readFile path
    | none => pure (.error .absent)
  let report := request.command.run content
  let written ← match report.file with
    | some (path, text) => writeFile path text
    | none => pure (.ok ())
  let now ← Std.Time.Timestamp.now
  let time := Logging.momentText (now.toNanosecondsSinceUnixEpoch.val.toNat / 1000)
  return .ofReport request.logging time report written

end MergedMining

open MergedMining CommandLine in
/-- Runs the tool. -/
def main (arguments : List String) : IO UInt32 := do
  let outcome ← match Request.ofArguments arguments with
    | .error stop => pure (Outcome.ofStop stop)
    | .ok request => request.runOnSystem
  IO.print outcome.output
  IO.eprint outcome.error
  return UInt32.ofNat outcome.status
