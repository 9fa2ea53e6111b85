import MergedMining.FileTree
import MergedMining.Params.Json
import MergedMining.Params.Toml

/-!
# Parameter files

Parameters are kept in JSON or in TOML; the name of a file tells which.  Parameters from a file are
judged before they are used.

## Main definitions

* `Params.ofJson`, `Params.ofToml` — the parameters of a text.
* `Params.ofFile` — the parameters of a file.
* `Params.LoadError` — why there are none.
-/

namespace MergedMining.Params

/-- Why there are no parameters. -/
inductive LoadError where
  /-- The file cannot be read. -/
  | file (error : FileError)
  /-- The text is no parameters in JSON. -/
  | json (error : Json.Error)
  /-- The text is no parameters in TOML. -/
  | toml (error : Toml.Error)
  /-- The parameters do not agree with each other. -/
  | invalid (error : ParamsError)
  deriving DecidableEq, Repr

/-- The wording of an error and of what caused it. -/
def LoadError.messages : LoadError → List String
  | .file error => ["io: " ++ error.message, error.message]
  | .json error => ["parse json: " ++ error.message, error.message]
  | .toml error => ["parse toml: " ++ error.message, error.message]
  | .invalid error => error.messages

/-- The wording of an error. -/
def LoadError.message (error : LoadError) : String := error.messages.headD ""

/-- The parameters of a JSON text. -/
def ofJson (text : String) : Except LoadError Params :=
  match readJson text with
  | .error error => .error (.json error)
  | .ok params => params.validated.mapError .invalid

/-- The parameters of a TOML text. -/
def ofToml (text : String) : Except LoadError Params :=
  match readToml text with
  | .error error => .error (.toml error)
  | .ok params => params.validated.mapError .invalid

/-- What stands behind the last dot of a file's name, unless that dot starts the name. -/
def extension? (name : List Char) : Option (List Char) :=
  let back := name.reverse
  match back.dropWhile (· != '.') with
  | _ :: _ :: _ => some (back.takeWhile (· != '.')).reverse
  | _ => none

/-- The last name on a path. -/
def lastName (path : String) : List Char :=
  ((path.splitOn "/").filter fun step => step != "" && step != ".").getLastD "" |>.toList

/-- Whether the file on a path is named as JSON. -/
def isJsonPath (path : String) : Bool :=
  extension? (lastName path) == some ['j', 's', 'o', 'n']

/-- The parameters of the file on this path. -/
def ofFile (path : String) (content : Except FileError Bytes) : Except LoadError Params :=
  match content.bind Bytes.toText with
  | .error error => .error (.file error)
  | .ok text => if isJsonPath path then ofJson text else ofToml text

end MergedMining.Params
