import MergedMining.Bytes

/-!
# File trees

The files and folders that a program meets.  A path is walked step by step, from the working folder
or from the root; it leads to a place, where there may be a file, a folder or nothing.

## Main definitions

* `FileError` — why a file cannot be read or written.
* `Place` — a place in the tree.
* `FileTree` — what stands at the places, `FileTree.walk` the place that a path leads to.
* `FileTree.read`, `FileTree.write`, `FileTree.append` — files by path.
* `FileTree.makeFolders` — the folders on a path.
* `FileTree.filesIn` — the files in a folder.
-/

namespace MergedMining

/-- Why a file cannot be read or written. -/
inductive FileError where
  /-- There is no such file, or no folder for it. -/
  | absent
  /-- A file stands where a folder is wanted. -/
  | notFolder
  /-- A folder stands where a file is wanted. -/
  | isFolder
  /-- A name on the path, or the path itself, is longer than the system allows. -/
  | nameTooLong
  /-- The path has a character that no path can have. -/
  | badPath
  /-- There is no room for what is written. -/
  | noSpace
  /-- The file holds no text. -/
  | notText
  /-- The system refuses for another reason. -/
  | refused (reason : String)
  deriving DecidableEq, Repr

/-- The wording of an error. -/
def FileError.message : FileError → String
  | .absent => "No such file or directory (os error 2)"
  | .notFolder => "Not a directory (os error 20)"
  | .isFolder => "Is a directory (os error 21)"
  | .nameTooLong => "File name too long (os error 36)"
  | .badPath => "file name contained an unexpected NUL byte"
  | .noSpace => "No space left on device (os error 28)"
  | .notText => "stream did not contain valid UTF-8"
  | .refused reason => reason

/-- The text that bytes encode, if they encode one. -/
def Bytes.toText (data : Bytes) : Except FileError String :=
  match String.fromUTF8? ⟨data.toArray⟩ with
  | some text => .ok text
  | none => .error .notText

/-- The bytes of a text. -/
def Bytes.ofText (text : String) : Bytes := text.toUTF8.toList

/-! ### Places -/

/-- Where the way to a place begins. -/
inductive Origin where
  /-- So many levels above the working folder. -/
  | above (levels : Nat)
  /-- At the root. -/
  | root
  deriving DecidableEq, Repr

/-- A place in the tree. -/
structure Place where
  /-- Where the way begins. -/
  origin : Origin
  /-- The names on the way. -/
  names : List String := []
  deriving DecidableEq, Repr

namespace Place

/-- The working folder. -/
def here : Place := ⟨.above 0, []⟩

/-- The root. -/
def root : Place := ⟨.root, []⟩

/-- The place of a name in a folder. -/
def child (place : Place) (name : String) : Place :=
  { place with names := place.names ++ [name] }

/-- The folder in which a place is.  The root is in itself. -/
def parent (place : Place) : Place :=
  match place.names, place.origin with
  | [], .above levels => ⟨.above (levels + 1), []⟩
  | [], .root => .root
  | names, origin => ⟨origin, names.dropLast⟩

/-- The place of the file that takes everything and holds nothing. -/
def nullFile : Place := ⟨.root, ["dev", "null"]⟩

/-- The place of the file that takes nothing. -/
def fullFile : Place := ⟨.root, ["dev", "full"]⟩

/-- The folders that every system has below its root. -/
def systemFolders : List String :=
  ["bin", "boot", "dev", "etc", "home", "lib", "media", "mnt", "opt", "proc", "root", "run", "sbin",
    "srv", "sys", "tmp", "usr", "var"]

/-- Whether every system has a folder at a place. -/
def isSystemFolder (place : Place) : Bool :=
  match place.names, place.origin with
  | [], _ => true
  | [name], .root => systemFolders.contains name
  | _, _ => false

end Place

/-! ### Paths -/

namespace Path

/-- The steps of a path. -/
def steps (path : String) : List String := path.splitOn "/"

/-- Whether a step stays where it is. -/
def isIdle (step : String) : Bool := step == "" || step == "."

/-- Where a path starts. -/
def start (path : String) : Place := if path.startsWith "/" then .root else .here

/-- Checks that a path is one that the system takes. -/
def check (path : String) : Except FileError Unit :=
  if path.toList.contains '\x00' then .error .badPath
  else if 4095 < path.utf8ByteSize then .error .nameTooLong
  else if path.isEmpty then .error .absent
  else .ok ()

/-- Checks the length of a name. -/
def checkName (name : String) : Except FileError Unit :=
  if 255 < name.utf8ByteSize then .error .nameTooLong else .ok ()

/-- The path of a name in a folder.  A name that starts at the root is a path of its own. -/
def join (folder name : String) : String :=
  if name.startsWith "/" || folder.isEmpty then name
  else if folder.endsWith "/" then folder ++ name
  else folder ++ "/" ++ name

/-- The steps to the folder of what a path names: all but the last one that leads anywhere. -/
def folderSteps (path : String) : List String :=
  ((steps path).reverse.dropWhile isIdle).tail.reverse

end Path

/-! ### Trees -/

/-- What stands at the places of a tree. -/
structure FileTree where
  /-- The files, each place once. -/
  files : List (Place × Bytes) := []
  /-- The folders, besides those that every system has. -/
  folders : List Place := []

namespace FileTree

variable (tree : FileTree)

/-- Whether there is a folder at a place. -/
def isFolder (place : Place) : Bool := place.isSystemFolder || tree.folders.contains place

/-- The bytes of the file at a place. -/
def find? (place : Place) : Option Bytes :=
  if place = .nullFile || place = .fullFile then some [] else tree.files.lookup place

/-- Checks that there is a folder at a place. -/
def checkFolder (place : Place) : Except FileError Unit :=
  if tree.isFolder place then .ok ()
  else if (tree.find? place).isSome then .error .notFolder
  else .error .absent

/-- One step from a place, which has to be a folder. -/
def step (place : Place) (name : String) : Except FileError Place := do
  tree.checkFolder place
  if Path.isIdle name then return place
  else if name = ".." then return place.parent
  else
    Path.checkName name
    return place.child name

/-- The place that a path leads to. -/
def walk (path : String) : Except FileError Place := do
  Path.check path
  (Path.steps path).foldlM tree.step (Path.start path)

/-- Reads a file. -/
def read (path : String) : Except FileError Bytes := do
  let place ← tree.walk path
  if tree.isFolder place then throw .isFolder
  match tree.find? place with
  | some data => return data
  | none => throw .absent

/-- The place of a file that is to be written.  A path that ends in a slash is taken for that of a
folder before its last name is looked up. -/
def target (path : String) : Except FileError Place := do
  Path.check path
  let steps := Path.steps path
  if steps.getLast? = some "" then
    let named := (steps.reverse.dropWhile (· == "")).reverse
    let folder ← named.dropLast.foldlM tree.step (Path.start path)
    tree.checkFolder folder
    throw .isFolder
  let place ← tree.walk path
  if tree.isFolder place then throw .isFolder else return place

/-- Puts a file at a place, in place of the one that is there. -/
def put (place : Place) (data : Bytes) : Except FileError FileTree :=
  if place = .nullFile then .ok tree
  else if place = .fullFile then if data.isEmpty then .ok tree else .error .noSpace
  else .ok { tree with files := tree.files.filter (·.1 != place) ++ [(place, data)] }

/-- Writes a file, in place of one that is there. -/
def write (path : String) (data : Bytes) : Except FileError FileTree := do
  tree.put (← tree.target path) data

/-- Adds to the end of a file, which is made if it is not there. -/
def append (path : String) (data : Bytes) : Except FileError FileTree := do
  let place ← tree.target path
  tree.put place ((tree.find? place).getD [] ++ data)

/-- The tree with folders wherever the steps from a place lead.  A file cannot become a folder. -/
def makeFolders (tree : FileTree) (place : Place) :
    (steps : List String) → Except FileError FileTree
  | [] => .ok tree
  | name :: names => do
      let next ← tree.step place name
      if tree.isFolder next then tree.makeFolders next names
      else if (tree.find? next).isSome then throw .notFolder
      else makeFolders { tree with folders := tree.folders ++ [next] } next names

/-- The tree with a file, and with the folders on the way to it. -/
def withFile (path : String) (data : Bytes) : Except FileError FileTree := do
  (← tree.makeFolders (Path.start path) (Path.folderSteps path)).write path data

/-- The files in a folder, by name; none if there is no such folder. -/
def filesIn (path : String) : List (String × Bytes) :=
  match tree.walk path with
  | .error _ => []
  | .ok folder => tree.files.filterMap fun (place, data) =>
      match place.names.getLast? with
      | some name => if place.parent = folder then some (name, data) else none
      | none => none

end FileTree

end MergedMining
