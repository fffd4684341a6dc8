import NotebookKernels.CommandLine.Plan
import NotebookKernels.Simulation.Run
import NotebookKernels.Simulation.Host

/- Running a command to its end, with the workers of a simulated host. -/
namespace NotebookKernels

/-- What a program leaves behind. -/
structure Exit where
  code : Nat
  stdout : String
  stderr : String
  deriving DecidableEq, Repr

namespace Simulation

variable {σ τ : Type}

/-- How long a conversation waits for one reply, in milliseconds. -/
def replyLimit : Nat := 1000000000

/-- What a call comes to. -/
def await (w : World σ τ) (t : TaskId) (m : Simulation σ τ) : Option Reply × Simulation σ τ :=
  let m := m.waitUntil w replyLimit fun m => (m.reply? t).isSome
  (m.reply? t, m)

/-- The services hold a conversation; nothing follows a call that never ends. -/
def converse (w : World σ τ) (m : Simulation σ τ) : Conversation → Exit
  | .done (.ok ()) => ⟨0, "", ""⟩
  | .done (.error r) => ⟨1, "", r.text⟩
  | .print text rest =>
    let e := m.converse w rest
    { e with stdout := text ++ e.stdout }
  | .complain text rest =>
    let e := m.converse w rest
    { e with stderr := text ++ e.stderr }
  | .create request rest =>
    let (t, m) := m.create w request
    match m.await w t with
    | (some r, m) => m.converse w (rest r)
    | (none, _) => ⟨1, "", ""⟩
  | .ask c rest =>
    let (t, m) := m.begin w c
    match await w t m with
    | (some r, m) => m.converse w (rest r)
    | (none, _) => ⟨1, "", ""⟩
  | .elapsed rest => m.converse w (rest m.now)

end Simulation

/-- What is around a program: files, the directory it starts in, its environment and its input. -/
structure Setting where
  files : Files
  directory : Path
  environment : List (String × String)
  stdin : Text

namespace Setting

def catalog (s : Setting) : Catalog :=
  [match s.environment.lookup "GANTRY_WORKER_PATH" with
    | some path => { KernelSpec.python3 with argv := [path] }
    | none => KernelSpec.python3]

/-- The host that runs the workers. -/
def host (s : Setting) (config : Config) : Host :=
  { files := s.files, directory := s.directory, workingDir := config.directory,
    environment := s.environment }

def surroundings (s : Setting) : Surroundings where
  read path := (s.files.find s.directory path.toList).content
  stdin := s.stdin
  lookup name := s.environment.lookup name

def execute (s : Setting) (arguments : List String) : Exit :=
  match Command.ofArguments arguments with
  | .error e => ⟨2, "", "error: " ++ e.message ++ "\n\n" ++ Command.usage⟩
  | .ok command => match command.plan s.surroundings with
    | .say stdout stderr (.ok ()) => ⟨0, stdout, stderr⟩
    | .say stdout stderr (.error r) => ⟨1, stdout, stderr ++ r.text⟩
    | .talk config c =>
      let m : Simulation Host HostToken :=
        { services := Services.init config s.catalog, world := s.host config }
      m.converse Host.world c

end Setting
end NotebookKernels
