import NotebookKernels.CommandLine.Program

/- The program on a real terminal.

   It gathers the files that the arguments name, the worker program and the scripts
   beside it, the settings and the input, runs the command, and prints what came
   of it. -/
namespace NotebookKernels.Terminal

/-- The variables of the environment that are looked at. -/
def settings : List String :=
  ["GANTRY_MAX_KERNELS", "GANTRY_KERNEL_TIMEOUT", "GANTRY_QUERY_TIMEOUT",
    "GANTRY_EXECUTION_HISTORY", "GANTRY_KERNEL_WORKING_DIR", "GANTRY_WORKER_PATH"]

def environment : IO (List (String × String)) :=
  settings.filterMapM fun name => do
    return (← IO.getEnv name).map fun value => (name, value)

/-- Adds what a path leads to, if it leads anywhere. -/
def gather (directory : Path) (fs : Files) (path : String) : IO Files := do
  let place := (← IO.currentDir) / path
  let names := Path.ofText directory path.toList
  if ← place.isDir then return { fs with directories := fs.directories ++ [names] }
  else if ← place.pathExists then
    let content := (← IO.FS.readFile place).toList
    return fs.add names content ("#!".toList.isPrefixOf content)
  else return fs

/-- The files beside a file. -/
def beside (path : String) : IO (List String) := do
  let place := (← IO.currentDir) / path
  match place.parent with
  | some d =>
    if ← d.isDir then return (← d.readDir).toList.map fun entry => entry.path.toString
    else return []
  | none => return []

/-- All lines of the input. -/
partial def readAll (input : IO.FS.Stream) (before : String) : IO String := do
  let line ← input.getLine
  if line.isEmpty then return before else readAll input (before ++ line)

def setting (arguments : List String) : IO Setting := do
  let directory := Path.ofText [] (← IO.currentDir).toString.toList
  let environment ← environment
  let scripts ← match environment.lookup "GANTRY_WORKER_PATH" with
    | some path => beside path
    | none => pure []
  let files ← (arguments ++ scripts).foldlM (gather directory) Files.system
  let stdin ← if arguments.contains "-" then readAll (← IO.getStdin) "" else pure ""
  return { files, directory, environment, stdin := stdin.toList }

end NotebookKernels.Terminal

open NotebookKernels in
/-- Runs the command that the arguments give. -/
def main (arguments : List String) : IO UInt32 := do
  let e := (← Terminal.setting arguments).execute arguments
  IO.print e.stdout
  IO.eprint e.stderr
  return UInt32.ofNat e.code
