import NotebookKernels.Simulation.World

/- A world of scripted workers.

   A kind of worker has a conduct: how each of its calls behaves, the last
   behaviour of a call standing for all further ones. Submitted code names a
   script, a list of things that the worker sends, with pauses. Everything that the
   workers are asked is kept in a log. -/
namespace NotebookKernels

/-- How one call to a worker goes. -/
inductive Behaviour where
  /-- It never ends. -/
  | never
  /-- It ends after a delay in milliseconds, with a failure if there is one; a query replies with
  the value if there is one. -/
  | ends (delay : Nat) (failure : Option Failure) (value : Option Json)

/-- What a worker can be asked. -/
inductive Request where
  | call (c : WorkerCall)
  | submit
  | query
  deriving DecidableEq

/-- How the workers of one kind behave. -/
structure Conduct where
  /-- Why they are not launched, if they are not. -/
  refusal : Option Failure := none
  /-- How the calls of each kind go, in order. -/
  behaviours : Request → List Behaviour := fun _ => []

/-- Whom an event names as the request that caused it. -/
inductive Addressee where
  /-- The request that started the script. -/
  | own
  | nobody
  | named (r : RequestId)

/-- One step of a script. -/
inductive ScriptStep where
  /-- The worker sends an event. -/
  | emit (type : String) (content : Json) (parent : Addressee)
  /-- The worker sends nothing for a while, in milliseconds, unless it is interrupted. -/
  | sleep (duration : Nat)
  /-- The worker dies. -/
  | die
  /-- The transport fails. -/
  | fail (f : Failure)

/-- A script that a worker plays. -/
structure Playing where
  /-- The worker. -/
  worker : Nat
  request : RequestId
  /-- What is left of the script. -/
  rest : List ScriptStep
  sleeping : Bool

/-- A scripted worker. -/
structure ScriptedWorker where
  /-- Its place among all workers whose launch was tried, from one. -/
  number : Nat
  conduct : Conduct
  alive : Bool
  /-- What it was asked. -/
  asked : List Request

/-- One line of the log. -/
inductive LogEntry where
  | launch (kind : String)
  | call (c : WorkerCall) (limit : Span)
  | submit (code : Code)
  | query (request : ShellRequest) (limit : Span)

/-- A world of scripted workers. -/
structure Scripted where
  /-- The kinds of workers that do not do everything at once and without fail. -/
  conducts : List (String × Conduct)
  scripts : List (String × List ScriptStep)
  /-- The workers, in the order of their launches. -/
  workers : List ScriptedWorker := []
  /-- How often a launch was tried. -/
  launches : Nat := 0
  requests : Nat := 0
  /-- The scripts in progress, by the numbers of their requests. -/
  playing : Table Nat Playing := []
  /-- The log, with the numbers of the workers, oldest line first. -/
  log : List (Nat × LogEntry) := []

/-- What a world of scripted workers waits for. -/
inductive ScriptedToken where
  /-- The end of a call. -/
  | call (k : Ticket) (i : Nat) (c : WorkerCall) (failure : Option Failure)
  /-- The end of a submission. -/
  | submit (k : Ticket) (i : Nat) (code : Code) (failure : Option Failure)
  /-- The end of a query. -/
  | query (k : Ticket) (i : Nat) (request : ShellRequest) (failure : Option Failure)
      (value : Option Json)
  /-- A script begins, or goes on after a pause that began with this many steps left. -/
  | play (n steps : Nat)
  /-- A pause is interrupted. -/
  | interrupt (n steps : Nat)

namespace Scripted

def notRunning : Failure := .channel "worker is not running"

def modify (s : Scripted) (i : Nat) (f : ScriptedWorker → ScriptedWorker) : Scripted :=
  { s with workers := s.workers.modify i f }

def isAlive (s : Scripted) (i : Nat) : Bool := s.workers[i]?.any (·.alive)

def setAlive (s : Scripted) (i : Nat) (alive : Bool) : Scripted × List (Effect ScriptedToken) :=
  (s.modify i ({ · with alive }), [.alive i alive])

def quietScript : List ScriptStep :=
  ["busy", "idle"].map fun state =>
    .emit "status" (.object [("execution_state", .string state)]) .own

/-- The letters and digits after the first `#script:`. -/
def scriptName? : Text → Option Text
  | [] => none
  | c :: r => match Text.stripPrefix? "#script:".toList (c :: r) with
    | some rest => some (rest.takeWhile Char.isAlphanum)
    | none => scriptName? r

/-- The name that only the script of a listing contains. -/
def listingMark : Text := "_gantry_var_info".toList

def nameOf (code : String) : String :=
  if Text.contains listingMark code.toList then "vars"
  else match scriptName? code.toList with
    | some name => String.ofList name
    | none => "default"

def scriptOf (s : Scripted) (code : String) : List ScriptStep :=
  (s.scripts.lookup (nameOf code)).getD quietScript

/-- Writes a line of the log. -/
def note (s : Scripted) (i : Nat) (entry : LogEntry) : Scripted :=
  { s with log := s.log ++ [((s.workers[i]?).elim 0 (·.number), entry)] }

/-- A worker is asked something: how it goes. -/
def ask (s : Scripted) (i : Nat) (r : Request) : Scripted × Behaviour :=
  match s.workers[i]? with
  | none => (s, .never)
  | some w =>
    let all := w.conduct.behaviours r
    let b := (all[w.asked.count r]? <|> all.getLast?).getD (.ends 0 none none)
    (s.modify i fun w => { w with asked := w.asked ++ [r] }, b)

def launch (s : Scripted) (spec : KernelSpec) : Scripted × Option Failure :=
  let number := s.launches + 1
  let s := { s with launches := number, log := s.log ++ [(number, LogEntry.launch spec.name)] }
  let conduct := (s.conducts.lookup spec.name).getD { }
  match conduct.refusal with
  | some f => (s, some f)
  | none => ({ s with workers := s.workers ++ [ScriptedWorker.mk number conduct false []] }, none)

/-- What an event that a script sends looks like. -/
def event (r : RequestId) (type : String) (content : Json) : Addressee → Mail
  | .own => .message ⟨some r, type, content⟩
  | .nobody => .message ⟨none, type, content⟩
  | .named other => .message ⟨some other, type, content⟩

/-- Plays a script up to its next pause. -/
def play (n : Nat) (p : Playing) (s : Scripted) :
    List ScriptStep → Scripted × List (Effect ScriptedToken)
  | [] => ({ s with playing := s.playing.erase n }, [])
  | .emit type content parent :: rest =>
    let (s, effects) := play n p s rest
    (s, .deliver p.worker (event p.request type content parent) :: effects)
  | .fail f :: rest =>
    let (s, effects) := play n p s rest
    (s, .deliver p.worker (.failure f) :: effects)
  | .sleep duration :: rest =>
    ({ s with playing := s.playing.set n { p with rest, sleeping := true } },
      [.after duration (.play n rest.length)])
  | .die :: _ => { s with playing := s.playing.erase n }.setAlive p.worker false

/-- The script's end when a pause in it is interrupted. -/
def interrupted : List ScriptStep :=
  [.emit "error" (.object [("ename", .string "KeyboardInterrupt"), ("evalue", .string ""),
      ("traceback", .array [])]) .own,
    .emit "status" (.object [("execution_state", .string "idle")]) .own]

def pauses (s : Scripted) (i : Nat) : List (Effect ScriptedToken) :=
  s.playing.filterMap fun (n, p) =>
    if p.worker = i && p.sleeping then some (.soon (.interrupt n p.rest.length)) else none

def endCall (s : Scripted) (k : Ticket) (i : Nat) (c : WorkerCall) :
    Option Failure → Scripted × List (Effect ScriptedToken)
  | some f =>
    let (s, effects) := if c = .restart then s.setAlive i false else (s, [])
    (s, effects ++ [.answer k (.failed f)])
  | none =>
    let (s, effects) := match c with
      | .start | .restart => s.setAlive i true
      | .interrupt => (s, s.pauses i)
      | .waitReady | .shutdown => (s, [])
    (s, effects ++ [.answer k .ok])

def endSubmit (s : Scripted) (k : Ticket) (i : Nat) (code : Code) :
    Option Failure → Scripted × List (Effect ScriptedToken)
  | some f => (s, [.answer k (.failed f)])
  | none =>
    if s.isAlive i then
      let n := s.requests
      let script := s.scriptOf code.text
      ({ s with
          requests := n + 1
          playing := s.playing.set n ⟨i, .fresh n, script, false⟩ },
        [.submitted k (.fresh n), .soon (.play n script.length)])
    else (s, [.answer k (.failed notRunning)])

def endQuery (s : Scripted) (k : Ticket) (i : Nat) (request : ShellRequest) (value : Option Json) :
    Option Failure → Scripted × List (Effect ScriptedToken)
  | some f => (s, [.answer k (.failed f)])
  | none =>
    if s.isAlive i then
      (s, [.replied k (value.getD (.object [("echo", request.content)]))])
    else (s, [.answer k (.failed notRunning)])

/-- A token comes back. -/
def fire (s : Scripted) : ScriptedToken → Scripted × List (Effect ScriptedToken)
  | .call k i c failure => s.endCall k i c failure
  | .submit k i code failure => s.endSubmit k i code failure
  | .query k i request failure value => s.endQuery k i request value failure
  | .play n steps => match s.playing.get? n with
    | some p => if p.rest.length = steps then play n p s p.rest else (s, [])
    | none => (s, [])
  | .interrupt n steps => match s.playing.get? n with
    | some p => if p.rest.length = steps then play n p s interrupted else (s, [])
    | none => (s, [])

/-- What a worker was asked goes as the behaviour says. -/
def behave (s : Scripted) (token : Option Failure → Option Json → ScriptedToken) :
    Behaviour → Scripted × List (Effect ScriptedToken)
  | .never => (s, [])
  | .ends 0 failure value => s.fire (token failure value)
  | .ends delay failure value => (s, [.after delay (token failure value)])

/-- A call to a worker begins. From the beginning of a shutdown the worker does not run. -/
def call (s : Scripted) (k : Ticket) (i : Nat) (c : WorkerCall) (limit : Span) :
    Scripted × List (Effect ScriptedToken) :=
  let (s, b) := (s.note i (.call c limit)).ask i (.call c)
  let (s, dead) := if c = .shutdown then s.setAlive i false else (s, [])
  let (s, effects) := s.behave (fun failure _ => .call k i c failure) b
  (s, dead ++ effects)

def submit (s : Scripted) (k : Ticket) (i : Nat) (code : Code) :
    Scripted × List (Effect ScriptedToken) :=
  let (s, b) := (s.note i (.submit code)).ask i .submit
  s.behave (fun failure _ => .submit k i code failure) b

/-- A worker is asked a query. -/
def query (s : Scripted) (k : Ticket) (i : Nat) (request : ShellRequest) (limit : Span) :
    Scripted × List (Effect ScriptedToken) :=
  let (s, b) := (s.note i (.query request limit)).ask i .query
  s.behave (.query k i request) b

/-- Why nothing more comes from a worker: it is dead. -/
def closed? (s : Scripted) (i : Nat) (_ : Bool) : Option Failure :=
  if s.isAlive i then none else some (.channel "worker died")

/-- A worker is killed from outside. -/
def kill (s : Scripted) (number : Nat) : Scripted × List (Effect ScriptedToken) :=
  match s.workers.findIdx? (·.number = number) with
  | some i => s.setAlive i false
  | none => (s, [])

/-- The world of scripted workers. -/
def world : World Scripted ScriptedToken where
  launch := launch
  call := call
  submit := submit
  query := query
  fire := fire
  closed? := closed?

end Scripted
end NotebookKernels
