import NotebookKernels.Text.Lines

/- The files that commands and workers see.

   A path is taken apart into its names; empty names and single dots mean
   nothing, and two dots mean the directory above. Every directory on the way to
   a file is there. -/
namespace NotebookKernels

/-- What the system says when it refuses an operation. -/
inductive SystemError where
  | noEntry
  | execFormat
  | permission
  | exists
  | notDirectory
  | isDirectory
  | brokenPipe
  deriving DecidableEq, Repr

/-- A program of the system. -/
inductive SystemProgram where
  /-- It runs the script that it is given. -/
  | shell
  /-- It writes what it reads. -/
  | copy
  /-- It ends at once. -/
  | quiet
  /-- It does nothing for a long time. -/
  | idle
  deriving DecidableEq, Repr

/-- A file. -/
inductive File where
  | text (content : Text) (executable : Bool)
  | program (p : SystemProgram)
  deriving DecidableEq, Repr

/-- An absolute path: its names from the root on. -/
abbrev Path := List Text

/-- Files and directories. -/
structure Files where
  files : List (Path × File)
  directories : List Path
  deriving DecidableEq, Repr

/-- What a path leads to. -/
inductive Place where
  | file (f : File)
  | directory
  | missing
  /-- A file is where a directory should be on the way. -/
  | behindFile
  deriving DecidableEq, Repr

namespace SystemError

/-- What the system calls it, with its number. -/
def text : SystemError → String
  | .noEntry => "No such file or directory (os error 2)"
  | .execFormat => "Exec format error (os error 8)"
  | .permission => "Permission denied (os error 13)"
  | .exists => "File exists (os error 17)"
  | .notDirectory => "Not a directory (os error 20)"
  | .isDirectory => "Is a directory (os error 21)"
  | .brokenPipe => "Broken pipe (os error 32)"

end SystemError

namespace Path

/-- Goes on from a directory. -/
def follow (start : Path) (names : List Text) : Path :=
  names.foldl (fun path name =>
    if name = [] ∨ name = ['.'] then path
    else if name = ['.', '.'] then path.dropLast
    else path ++ [name]) start

def ofText (directory : Path) (t : Text) : Path :=
  follow (if t.head? = some '/' then [] else directory) (Text.pieces '/' t)

/-- How many parts a written path has: the root, a leading dot, and every name count. -/
def partCount (t : Text) : Nat :=
  let names := Text.pieces '/' t
  let leading := if t.head? = some '/' ∨ names.head? = some ['.'] then 1 else 0
  leading + (names.filter fun n => n ≠ [] ∧ n ≠ ['.']).length

end Path

namespace Place

def content : Place → Except SystemError Text
  | .file (.text content _) => .ok content
  | .file (.program _) => .ok []
  | .directory => .error .isDirectory
  | .missing => .error .noEntry
  | .behindFile => .error .notDirectory

def executable : Place → Except SystemError File
  | .file (.text content true) =>
    if "#!".toList.isPrefixOf content then .ok (.text content true) else .error .execFormat
  | .file (.text _ false) | .directory => .error .permission
  | .file (.program q) => .ok (.program q)
  | .missing => .error .noEntry
  | .behindFile => .error .notDirectory

end Place

namespace Files

/-- What a path leads to. -/
def place (fs : Files) (p : Path) : Place :=
  if fs.files.any fun (q, _) => q ≠ p && q.isPrefixOf p then .behindFile
  else match fs.files.lookup p with
    | some f => .file f
    | none =>
      if p.isEmpty || fs.files.any (fun f => p.isPrefixOf f.1) || fs.directories.any p.isPrefixOf
      then .directory
      else .missing

/-- What names lead to from a place on; all that they lead through has to be a directory. -/
def walk (fs : Files) (here : Path) : List Text → Place
  | [] => fs.place here
  | name :: rest => match fs.place here with
    | .directory => fs.walk (Path.follow here [name]) rest
    | .missing => .missing
    | .file _ | .behindFile => .behindFile

/-- What a written path leads to from a directory. -/
def find (fs : Files) (directory : Path) (t : Text) : Place :=
  if t.isEmpty then .missing
  else fs.walk (if t.head? = some '/' then [] else directory) (Text.pieces '/' t)

def makeDirectory (fs : Files) (p : Path) : Except SystemError Files :=
  match fs.place p with
  | .directory => .ok fs
  | .missing => .ok { fs with directories := fs.directories ++ [p] }
  | .file _ => .error .exists
  | .behindFile => .error .notDirectory

/-- The programs of the system that workers may be run with. -/
def systemPrograms : List (String × SystemProgram) :=
  [("sh", .shell), ("bash", .shell), ("dash", .shell), ("cat", .copy), ("true", .quiet),
    ("false", .quiet), ("sleep", .idle)]

def systemDirectories : List Path := [["usr".toList, "bin".toList], ["bin".toList]]

def system : Files where
  files := (["dev".toList, "null".toList], .text [] false) ::
    systemDirectories.flatMap fun d =>
      systemPrograms.map fun (name, p) => (d ++ [name.toList], .program p)
  directories := [["tmp".toList], ["root".toList]]

/-- Adds a text file. -/
def add (fs : Files) (p : Path) (content : Text) (executable : Bool) : Files :=
  { fs with files := fs.files ++ [(p, .text content executable)] }

end Files
end NotebookKernels
