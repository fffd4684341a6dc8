import NotebookKernels.Failure
import NotebookKernels.Kernel.Spec
import NotebookKernels.Process.Files

/- Finding and running the program of a worker. -/
namespace NotebookKernels

/-- The failure of a kind of kernel that names no program. -/
def Failure.noCommand (spec : KernelSpec) : Failure :=
  .start ("kernel spec '" ++ spec.name ++ "' has no command")

/-- The failure of a kind of kernel whose program is not there. -/
def Failure.programNotFound (program : String) (spec : KernelSpec) : Failure :=
  .start ("Could not find worker program '" ++ program ++ "' for kernel '" ++ spec.name ++
    "'. Install it or put it on PATH.")

/-- The failure to make the directory that workers run in. -/
def Failure.noWorkingDirectory (directory : String) (e : SystemError) : Failure :=
  .start ("Failed to create working directory '" ++ directory ++ "': " ++ e.text)

def Failure.notSpawned (program : String) (e : SystemError) : Failure :=
  .start ("Failed to spawn worker process '" ++ program ++ "': " ++ e.text)

namespace KernelSpec

/-- The program to run: the one that the command names as a path, if that is there, or else the
program of the system with this name. -/
def program (spec : KernelSpec) (fs : Files) (directory : Path) : Except Failure String :=
  match spec.argv with
  | [] => .error (.noCommand spec)
  | p :: _ =>
    let isThere := match fs.find directory p.toList with
      | .file _ | .directory => true
      | .missing | .behindFile => false
    if 1 < Path.partCount p.toList && isThere then .ok p
    else if Files.systemPrograms.any (·.1 = p) then .ok ("/usr/bin/" ++ p)
    else .error (.programNotFound p spec)

end KernelSpec

/-- What the system does to run a program in a directory: the directory is made if it is not there,
and the program is loaded. -/
def Files.spawn (fs : Files) (program : String) (workingDir : String) (directory : Path) :
    Except Failure (Files × File) :=
  let place := Path.ofText directory workingDir.toList
  match if workingDir = "" then .ok fs else fs.makeDirectory place with
  | .error e => .error (.noWorkingDirectory workingDir e)
  | .ok fs =>
    match if workingDir = "" then .error .noEntry
        else (fs.find place program.toList).executable with
    | .error e => .error (.notSpawned program e)
    | .ok file => .ok (fs, file)

end NotebookKernels
