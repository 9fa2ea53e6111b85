import MergedMining.Logging.Event

/-!
# Logging configuration

Which events are kept, how they are written, and whether they also go to a file.

## Main definitions

* `Logging.Config` — the configuration, `Logging.Config.standard` the usual one.
* `Logging.FileConfig` — where a log file is kept.
* `Logging.Config.startEvent` — the event that tells that logging has started.
-/

namespace MergedMining.Logging

/-- How events are written. -/
inductive Format where
  /-- For people, one line for each event. -/
  | compact
  /-- As JSON objects, one line for each event. -/
  | json
  deriving DecidableEq, Repr, Inhabited

/-- The name of a format. -/
def Format.name : Format → String
  | .compact => "compact"
  | .json => "json"

/-- How often a new log file is begun. -/
inductive Rotation where
  /-- Every minute. -/
  | minutely
  /-- Every hour. -/
  | hourly
  /-- Every day. -/
  | daily
  /-- There is only one file. -/
  | never
  deriving DecidableEq, Repr, Inhabited

/-- The name of a rotation. -/
def Rotation.name : Rotation → String
  | .minutely => "minutely"
  | .hourly => "hourly"
  | .daily => "daily"
  | .never => "never"

/-- What of a span's life is worth an event. -/
structure SpanEvents where
  /-- When it is made. -/
  new : Bool := false
  /-- When it is entered. -/
  enter : Bool := false
  /-- When it is left. -/
  exit : Bool := false
  /-- When it ends. -/
  close : Bool := false
  deriving DecidableEq, Repr, Inhabited

/-- The names of what is worth an event. -/
def SpanEvents.names (spans : SpanEvents) : List String :=
  let names :=
    [(spans.new, "new"), (spans.enter, "enter"), (spans.exit, "exit"), (spans.close, "close")]
  names.filterMap fun (kept, name) => if kept then some name else none

/-- Where a log file is kept. -/
structure FileConfig where
  /-- The folder. -/
  directory : String
  /-- The file's name, or how it starts if files are rotated. -/
  baseName : String
  /-- How often a new file is begun. -/
  rotation : Rotation := .daily
  /-- How events are written. -/
  format : Format := .compact
  deriving DecidableEq, Repr

/-- The configuration of logging. -/
structure Config where
  /-- Who is logging. -/
  service : String
  /-- The most detailed level that is kept. -/
  level : Level := .info
  /-- How events are written to standard output. -/
  format : Format := .compact
  /-- What of a span's life is written to standard output. -/
  spans : SpanEvents := {}
  /-- Where a log file is kept, if there is one. -/
  file : Option FileConfig := none
  deriving DecidableEq, Repr

namespace Config

/-- The usual configuration. -/
def standard : Config := { service := "auxpow" }

/-- The filter that all outputs share. -/
def filter (config : Config) : String := config.level.filterName

/-- The event that tells that logging has started. -/
def startEvent (config : Config) : Event :=
  ⟨.info, "auxpow_common::logging::manager", "logging initialized",
    [("service_name", .text config.service), ("default_level", .text config.level.name),
     ("file_logging", .flag config.file.isSome)]⟩

/-- Whether an event is kept. -/
def keeps (config : Config) (event : Event) : Bool := event.level.isShownAt config.level

end Config

end MergedMining.Logging
