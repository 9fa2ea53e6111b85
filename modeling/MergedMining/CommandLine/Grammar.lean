import MergedMining.Text.Integer

/-!
# Grammars of command lines

A command takes options, each with a dash in front, and positional arguments, in any order; a
command may instead hand over to one of its subcommands.  Arguments are taken from the left, and
the first one that does not fit is reported.

## Main definitions

* `CommandLine.Grammar` — what a command takes.
* `CommandLine.Grammar.parse` — reads arguments into a draft.
* `CommandLine.Grammar.usage` — the text that explains the command.
* `CommandLine.ArgumentError` — why arguments do not fit.
-/

namespace MergedMining.CommandLine

/-! ### Grammars -/

/-- What an option does to a draft. -/
inductive Effect (δ : Type) where
  /-- It stands for itself. -/
  | switch (set : δ → δ)
  /-- It takes the next argument as its value, and stands at most once. -/
  | value (placeholder : String) (isRequired : Bool) (isSet : δ → Bool)
      (read : String → Except IntegerError (δ → δ))

/-- An option. -/
structure Setting (δ : Type) where
  /-- Its names, dashes included; the long one is the last. -/
  names : List String
  /-- What it is for. -/
  about : String
  /-- What it does. -/
  effect : Effect δ

/-- A positional argument. -/
structure Positional (δ : Type) where
  /-- Its name. -/
  name : String
  /-- What it is for. -/
  about : String
  /-- Reads it into a draft. -/
  read : String → Except IntegerError (δ → δ)

/-- What a command takes. -/
structure Grammar (δ : Type) where
  /-- The command's name, with those of the commands it belongs to. -/
  name : String
  /-- What it does. -/
  about : String
  /-- The options. -/
  settings : List (Setting δ)
  /-- The positional arguments, all of them required. -/
  positionals : List (Positional δ) := []
  /-- The subcommands and what they do. -/
  commands : List (String × String) := []

/-! ### Errors -/

/-- Why arguments do not fit. -/
inductive ArgumentError where
  /-- There is no place for this argument. -/
  | unrecognized (argument : String)
  /-- An option stands behind the word that asks for help. -/
  | behindHelp
  /-- An option's value does not stand behind it. -/
  | noValue (option : String)
  /-- An option stands twice. -/
  | repeated (option value : String)
  /-- An option's value is refused. -/
  | badValue (option value : String) (error : IntegerError)
  /-- A positional argument is refused. -/
  | badPositional (name value : String) (error : IntegerError)
  /-- Something is not there. -/
  | missing (positionals options commands : List String)
  deriving DecidableEq, Repr

/-- Names below a title, one on each line. -/
def titled (title : String) (names : List String) : List String :=
  if names.isEmpty then [] else [title ++ String.join (names.map ("\n    " ++ ·))]

/-- The wording of an error. -/
def ArgumentError.message : ArgumentError → String
  | .unrecognized argument => "Unrecognized argument: " ++ argument ++ "\n"
  | .behindHelp => "Trailing arguments are not allowed after `help`."
  | .noValue option => "No value provided for option '" ++ option ++ "'.\n"
  | .repeated option value => refused option value "duplicate values provided"
  | .badValue option value error => refused option value error.message
  | .badPositional name value error =>
      "Error parsing positional argument '" ++ name ++ "' with value '" ++ value ++ "': " ++
        error.message ++ "\n"
  | .missing positionals options commands =>
      "\n".intercalate
        (titled "Required positional arguments not provided:" positionals ++
          titled "Required options not provided:" options ++
          titled "One of the following subcommands must be present:" commands) ++ "\n"
where
  /-- The wording for an option's value that is refused. -/
  refused (option value reason : String) : String :=
    "Error parsing option '" ++ option ++ "' with value '" ++ value ++ "': " ++ reason ++ "\n"

/-! ### Reading -/

/-- Whether a word asks for help. -/
def isHelp (argument : String) : Bool := argument == "--help" || argument == "help"

/-- Why there is nothing to run. -/
inductive Stop where
  /-- Help is asked for: its text. -/
  | help (usage : String)
  /-- The arguments do not fit. -/
  | error (reason : ArgumentError)
  deriving DecidableEq, Repr

/-- Arguments up to their end or to a subcommand. -/
structure Scanned (δ : Type) where
  /-- What has been read. -/
  draft : δ
  /-- Whether help is asked for. -/
  help : Bool
  /-- The positional arguments that are not there. -/
  missing : List (Positional δ)
  /-- The subcommand and the arguments behind it. -/
  command : Option (String × List String) := none

namespace Grammar

variable {δ : Type} (g : Grammar δ)

/-- Reads arguments.  Behind two dashes, which set `ended`, a dash has no meaning and neither has a
word that asks for help. -/
def scan (help ended : Bool) (draft : δ) (places : List (Positional δ)) :
    List String → Except ArgumentError (Scanned δ)
  | [] => .ok ⟨draft, help, places, none⟩
  | argument :: rest =>
      if !ended && isHelp argument then scan true ended draft places rest
      else if !ended && argument == "--" then scan help true draft places rest
      else if !ended && argument.startsWith "-" then
        if help then .error .behindHelp
        else
          match g.settings.find? (·.names.contains argument) with
          | none => .error (.unrecognized argument)
          | some setting =>
              match setting.effect, rest with
              | .switch set, rest => scan help ended (set draft) places rest
              | .value .., [] => .error (.noValue argument)
              | .value _ _ isSet read, value :: rest =>
                  if isSet draft then .error (.repeated argument value)
                  else
                    match read value with
                    | .error error => .error (.badValue argument value error)
                    | .ok set => scan help ended (set draft) places rest
      else if g.commands.any (·.1 == argument) then .ok ⟨draft, help, places, some (argument, rest)⟩
      else
        match places with
        | [] => .error (.unrecognized argument)
        | place :: places =>
            match place.read argument with
            | .error error => .error (.badPositional place.name argument error)
            | .ok set => scan help ended (set draft) places rest

/-- The long names of the required options that a draft does not have. -/
def missingSettings (draft : δ) : List String :=
  g.settings.filterMap fun setting =>
    match setting.effect with
    | .value _ true isSet _ => if isSet draft then none else setting.names.getLast?
    | _ => none

/-! ### Explaining -/

/-- Fills lines of eighty characters with words; `line` is what the first line holds already. -/
def fill (margin line : String) : List String → List String
  | [] => [line]
  | word :: words =>
      if 80 < line.length + 1 + word.length then line :: fill margin (margin ++ word) words
      else fill margin (line ++ " " ++ word) words

/-- A name, and behind it what it is for. -/
def entry (name about : String) : String :=
  let margin := String.ofList (List.replicate 20 ' ')
  let start := "  " ++ name ++ String.ofList (List.replicate (18 - name.length) ' ')
  match about.splitOn " " with
  | [] => start
  | word :: words => "\n".intercalate (fill margin (start ++ word) words)

/-- Entries below a title; nothing if there are none. -/
def block (title : String) (entries : List (String × String)) : String :=
  if entries.isEmpty then ""
  else
    "\n\n" ++ title ++ ":" ++
      String.join (entries.map fun (name, about) => "\n" ++ entry name about)

/-- An option in the first line of the explanation. -/
def summary (setting : Setting δ) : String :=
  let name := setting.names.headD ""
  match setting.effect with
  | .switch _ => "[" ++ name ++ "]"
  | .value placeholder true .. => name ++ " <" ++ placeholder ++ ">"
  | .value placeholder false .. => "[" ++ name ++ " <" ++ placeholder ++ ">]"

/-- The text that explains the command. -/
def usage : String :=
  let positionals :=
    if g.positionals.isEmpty then []
    else "[--]" :: g.positionals.map fun place => "<" ++ place.name ++ ">"
  let commands := if g.commands.isEmpty then [] else ["<command>", "[<args>]"]
  let settings := g.settings.map fun setting => (", ".intercalate setting.names, setting.about)
  " ".intercalate (["Usage:", g.name] ++ g.settings.map summary ++ positionals ++ commands) ++
    "\n\n" ++ g.about ++
    block "Positional Arguments" (g.positionals.map fun place => (place.name, place.about)) ++
    block "Options" (settings ++ [("--help, help", "display usage information")]) ++
    block "Commands" g.commands ++ "\n"

/-- Reads arguments into a draft, up to a subcommand with its own arguments.  A word that asks for
help in front of a subcommand is meant for the subcommand. -/
def parse (empty : δ) (arguments : List String) :
    Except Stop (δ × Option (String × List String)) := do
  let scanned ← (g.scan false false empty g.positionals arguments).mapError .error
  match scanned.command with
  | some (name, rest) =>
      return (scanned.draft, some (name, if scanned.help then "help" :: rest else rest))
  | none =>
      if scanned.help then throw (.help g.usage)
      let places := scanned.missing.map Positional.name
      let settings := g.missingSettings scanned.draft
      let commands := if g.commands.isEmpty then [] else "help" :: g.commands.map Prod.fst
      if places.isEmpty && settings.isEmpty && commands.isEmpty then return (scanned.draft, none)
      throw (.error (.missing places settings commands))

end Grammar

end MergedMining.CommandLine
