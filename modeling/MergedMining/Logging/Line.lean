import MergedMining.Logging.Config
import MergedMining.Text.Quoted

/-!
# Lines of a log

An event is written as one line: coloured for a terminal, plain for a file, or as a JSON object.

## Main definitions

* `Logging.Event.colouredLine`, `Logging.Event.plainLine`, `Logging.Event.jsonLine` — the forms.
* `Logging.Config.toOutput`, `Logging.Config.toFile` — what a log writes for its events.
-/

namespace MergedMining.Logging

/-- A text in a style of a terminal, which ends with the text. -/
def styled (style text : String) : String := "\x1b[" ++ style ++ "m" ++ text ++ "\x1b[0m"

/-- A text in the terminal's faint style. -/
def faint (text : String) : String := styled "2" text

namespace Level

/-- The terminal's code for the level's colour. -/
def colour : Level → String
  | .error => "31"
  | .warn => "33"
  | .info => "32"
  | .debug => "34"
  | .trace => "35"

/-- The name, with a blank in front if it is short. -/
def paddedName (level : Level) : String :=
  if level.name.length < 5 then " " ++ level.name else level.name

end Level

namespace Event

variable (event : Event) (time : String)

/-- The line for a terminal. -/
def colouredLine : String :=
  let fields := event.fields.map fun (name, value) =>
    " " ++ styled "3" name ++ faint "=" ++ value.toText
  faint time ++ " " ++ styled event.level.colour event.level.paddedName ++ " " ++
    faint event.target ++ faint ":" ++ " " ++ event.message ++ String.join fields ++ "\n"

/-- The line for a file. -/
def plainLine : String :=
  let fields := event.fields.map fun (name, value) => " " ++ name ++ "=" ++ value.toText
  time ++ " " ++ event.level.paddedName ++ " " ++ event.target ++ ": " ++ event.message ++
    String.join fields ++ "\n"

/-- The line as a JSON object. -/
def jsonLine : String :=
  let value : FieldValue → String
    | .text text => Text.jsonQuoted text
    | other => other.toText
  let fields := (("message", FieldValue.text event.message) :: event.fields).map fun (name, v) =>
    Text.jsonQuoted name ++ ":" ++ value v
  "\x7b\"timestamp\":" ++ Text.jsonQuoted time ++
    ",\"level\":" ++ Text.jsonQuoted event.level.name ++
    ",\"fields\":\x7b" ++ ",".intercalate fields ++ "\x7d,\"target\":" ++
    Text.jsonQuoted event.target ++ "\x7d\n"

end Event

namespace Config

variable (config : Config) (time : String)

/-- What goes to standard output for the start of the log and these events. -/
def toOutput (events : List Event) : String :=
  let line (event : Event) :=
    match config.format with
    | .compact => event.colouredLine time
    | .json => event.jsonLine time
  String.join (((config.startEvent :: events).filter config.keeps).map line)

/-- What goes to a log file of this format for the start of the log and these events. -/
def toFile (format : Format) (events : List Event) : String :=
  let line (event : Event) :=
    match format with
    | .compact => event.plainLine time
    | .json => event.jsonLine time
  String.join (((config.startEvent :: events).filter config.keeps).map line)

end Config

end MergedMining.Logging
