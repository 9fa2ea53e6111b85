import MergedMining.FileTree
import MergedMining.Logging.Line
import MergedMining.Logging.Moment

/-!
# Log files

Where a log file is and what it comes to hold.  The file is opened when the log starts; without the
file that is asked for there is no log at all.

## Main definitions

* `Logging.FileConfig.path` — the path of the file begun at a moment.
* `Logging.FileConfig.add` — adds to the file and makes the folders for it.
* `Logging.Config.run` — what a log writes to standard output, and the files it leaves.
-/

namespace MergedMining.Logging

/-- What the names of files begun at a moment end in.  Files are told apart as finely as new ones
are begun. -/
def Rotation.stamp (rotation : Rotation) (micros : Nat) : String :=
  let (hour, minute, _) := clock micros
  match rotation with
  | .minutely => dayText micros ++ "-" ++ hour ++ "-" ++ minute
  | .hourly => dayText micros ++ "-" ++ hour
  | .daily | .never => dayText micros

namespace FileConfig

variable (file : FileConfig)

/-- The name of the file begun at a moment.  A file that is not given a name is named by the moment
alone. -/
def nameAt (micros : Nat) : String :=
  let stamp := file.rotation.stamp micros
  if file.baseName.isEmpty then stamp
  else if file.rotation = .never then file.baseName
  else file.baseName ++ "." ++ stamp

/-- The path of the file begun at a moment. -/
def path (micros : Nat) : String := Path.join file.directory (file.nameAt micros)

/-- Adds to the file begun at a moment.  The folders on the way to it are made if it cannot be
opened. -/
def add (micros : Nat) (text : String) (tree : FileTree) : Except FileError FileTree := do
  let path := file.path micros
  let tree ← match tree.target path with
    | .ok _ => pure tree
    | .error _ => tree.makeFolders (Path.start path) (Path.folderSteps path)
  tree.append path (Bytes.ofText text)

end FileConfig

namespace Config

variable (config : Config)

/-- The folder in which the log file is. -/
def folder : String :=
  match config.file with
  | some file => if file.directory.isEmpty then "." else file.directory
  | none => "."

/-- What a log begun at a moment writes to standard output for its start and these events, and the
files it leaves.  Lines tell the time as `time`. -/
def run (time : String) (micros : Nat) (events : List Event) (tree : FileTree) :
    Except FileError (String × FileTree) := do
  let tree ← match config.file with
    | some file => file.add micros (config.toFile time file.format events) tree
    | none => pure tree
  return (config.toOutput time events, tree)

end Config

end MergedMining.Logging
