import NotebookKernels.Simulation.World
import NotebookKernels.Simulation.Player
import NotebookKernels.Process.Connection
import NotebookKernels.Process.Pipe
import NotebookKernels.Process.Program
import NotebookKernels.Process.Worker

/- A world of worker processes.

   The processes run programs of the host: one that plays scripts, and a few that
   understand no requests. They take no time but for their pauses. What they write
   goes through their connections, as bytes. -/
namespace NotebookKernels
open Text (Bytes)

/-- What a child process runs. -/
inductive ChildProgram where
  /-- The program that plays the scripts of a directory. -/
  | player (directory : Path) (arguments : List String)
  /-- A program that writes what it reads. -/
  | copy
  /-- A program that ends at once. -/
  | quiet
  /-- A program that neither reads nor writes. -/
  | idle
  deriving DecidableEq

/-- A child process. -/
structure Child where
  program : ChildProgram
  player : Player := { }
  exited : Bool := false
  /-- Has its exit been seen? -/
  noticed : Bool := false
  /-- How often it has paused. -/
  pauses : Nat := 0
  /-- What it wrote that makes no whole frame yet. -/
  left : Bytes := []
  /-- The bytes that are stuck on the way to it. -/
  stuck : Nat := 0

/-- A child is named by its worker and its place among the worker's children. -/
abbrev ChildId := Nat × Nat

/-- A worker of the host. -/
structure HostWorker where
  spec : KernelSpec
  program : String
  process : WorkerProcess := { }

/-- A request that waits for its reply. -/
structure Pending where
  ticket : Ticket
  type : String
  limit : Span
  /-- Is it to tell whether the worker is ready? -/
  readiness : Bool

/-- What is to follow when a child has gone. -/
structure Leaving where
  ticket : Ticket
  /-- Is another child to be made? -/
  again : Bool

/-- A host of worker processes. -/
structure Host where
  files : Files
  /-- Where relative paths of programs start. -/
  directory : Path
  /-- Where workers run. -/
  workingDir : String
  environment : List (String × String)
  workers : List HostWorker := []
  children : Table ChildId Child := []
  connections : Table ChildId Connection := []
  /-- How many requests were made. -/
  requests : Nat := 0
  pending : Table RequestId Pending := []
  leaving : Table ChildId Leaving := []

/-- What a host waits for. -/
inductive HostToken where
  /-- A child goes on. -/
  | run (c : ChildId)
  /-- The pause of a child, the last of so many, is over. -/
  | wake (c : ChildId) (pauses : Nat)
  /-- A child is interrupted. -/
  | interrupt (c : ChildId)
  /-- The time of a request runs out. -/
  | elapse (c : ChildId) (r : RequestId)
  /-- A child that was given up has gone. -/
  | gone (c : ChildId)
  /-- A child that was given up has had time enough. -/
  | kill (c : ChildId)

/-- What a host is and does. -/
abbrev Doing := Host × List (Effect HostToken)

def Doing.andThen (d : Doing) (f : Host → Doing) : Doing :=
  let (h, effects) := f d.1
  (h, d.2 ++ effects)

/-- The failure of a worker whose events have come to an end. -/
def Failure.streamClosed : Failure := .channel "worker event stream closed"

namespace Host

/-- How long a child may take to go before it is killed, in milliseconds. -/
def grace : Nat := 1000

def process (h : Host) (i : Nat) : WorkerProcess := (h.workers[i]?).elim { } (·.process)

def setProcess (h : Host) (i : Nat) (p : WorkerProcess) : Host :=
  { h with workers := h.workers.modify i ({ · with process := p }) }

def modifyChild (h : Host) (c : ChildId) (f : Child → Child) : Host :=
  match h.children.get? c with
  | some child => { h with children := h.children.set c (f child) }
  | none => h

def isRunning (h : Host) (c : ChildId) : Bool := (h.children.get? c).any fun child => !child.exited

def isReading (h : Host) (c : ChildId) : Bool := (h.connections.get? c).any fun x => !x.stopped

/-- What there is to see of a worker's children. -/
def view (h : Host) (i : Nat) : ChildView where
  running n := h.isRunning (i, n)
  reading n := h.isReading (i, n)
  noticed n := (h.children.get? (i, n)).all (·.noticed)

def isAlive (h : Host) (i : Nat) : Bool := (h.process i).isAlive (h.view i)

/-- Looks whether a worker is alive; an exit of its child has been seen then. -/
def poll (h : Host) (i : Nat) : Bool × Host :=
  (h.isAlive i, match (h.process i).child with
    | some n => h.modifyChild (i, n) fun child => { child with noticed := child.exited }
    | none => h)

def tellAlive (h : Host) (i : Nat) : Doing := (h, [.alive i (h.isAlive i)])

/-- The end of a request as its caller learns it. -/
def conclude (q : Pending) (e : RequestEnd) : Effect HostToken :=
  match e.outcome q.type q.limit, q.readiness with
  | .ok _, true => .answer q.ticket .ok
  | .ok v, false => .replied q.ticket v
  | .error f, true => .answer q.ticket (.failed (.notBecomeReady f))
  | .error f, false => .answer q.ticket (.failed f)

/-- Steps are taken on a connection: the requests that end with them are concluded, and the events
that come are handed on. -/
def connect (h : Host) (c : ChildId) (steps : List ConnectionStep) : Doing :=
  match h.connections.get? c with
  | none => (h, [])
  | some x =>
    let x := x.runPromptly steps
    let delivered := x.events.map fun m => Effect.deliver c.1 (.message m.raw)
    let concluded := x.ended.filterMap fun (r, e) => (h.pending.get? r).map (conclude · e)
    let h := { h with
      connections := h.connections.set c { x with events := [], ended := [] }
      pending := h.pending.filter fun q => !x.ended.any (·.1 = q.1) }
    Doing.andThen (h, delivered ++ concluded) (tellAlive · c.1)

/-- A child exits. -/
def exit (h : Host) (c : ChildId) : Doing :=
  if h.isRunning c then
    Doing.andThen ((h.modifyChild c ({ · with exited := true })).connect c [.stop]) fun h =>
      (h, if (h.leaving.get? c).isSome then [.soon (.gone c)] else [])
  else (h, [])

/-- A child writes. One whose output is not read any more is ended by that. -/
def write (h : Host) (c : ChildId) (bytes : Bytes) : Doing :=
  match h.children.get? c with
  | none => (h, [])
  | some child =>
    if bytes.isEmpty then (h, [])
    else if h.isReading c then
      let (steps, left) := Connection.readSteps child.left bytes
      (h.modifyChild c ({ · with left })).connect c steps
    else h.exit c

/-- What a child of a worker that plays scripts was started with. -/
def setup (h : Host) (i : Nat) (directory : Path) (arguments : List String) : PlayerSetup where
  script name := match h.files.place (directory ++ ["out.".toList ++ name]) with
    | .file (.text content _) => some content
    | _ => none
  arguments := Text.join ' ' (arguments.map String.toList)
  setting name :=
    let env := (h.workers[i]?).elim [] (·.spec.env) ++ h.environment
    ((env.lookup (String.ofList name)).getD "").toList

/-- A child has done something and halts. -/
def halt (h : Host) (c : ChildId) (b : Burst) : Doing :=
  Doing.andThen ((h.modifyChild c ({ · with player := b.player })).write c b.output) fun h =>
    match b.halt with
    | .done | .waiting => (h, [])
    | .exited => h.exit c
    | .sleeping duration =>
      let n := (h.children.get? c).elim 0 (·.pauses) + 1
      (h.modifyChild c ({ · with pauses := n }), [.after duration (.wake c n)])

/-- A child goes on. -/
def run (h : Host) (c : ChildId) (child : Child) : Doing :=
  match child.program with
  | .player directory arguments => h.halt c (child.player.run (h.setup c.1 directory arguments))
  | .copy =>
    let output := child.player.queue.flatMap fun r =>
      let body := Frame.body r.json
      Frame.header body.length ++ body
    h.halt c ⟨output, { child.player with queue := [] },
      if child.player.ended then .exited else .waiting⟩
  | .quiet => h.exit c
  | .idle => (h, [])

/-- A request is sent to a child, or cannot be. -/
def send (h : Host) (c : ChildId) (r : WireRequest) : Host × Option Failure :=
  match Frame.write r.json, h.children.get? c with
  | .error f, _ => (h, some f)
  | .ok _, none => (h, some .notRunning)
  | .ok bytes, some child =>
    if child.exited || child.player.deaf then
      let (f, stuck) := Pipe.refuse child.stuck (bytes.length - 4)
      (h.modifyChild c ({ · with stuck }), some f)
    else
      (h.modifyChild c fun child =>
        { child with player := { child.player with queue := child.player.queue ++ [r] } }, none)

def executeRequest (r : RequestId) (code : Code) : WireRequest :=
  ⟨r, "execute_request", .object [("allow_stdin", .bool false), ("code", .string code.text),
    ("silent", .bool code.silent), ("stop_on_error", .bool true),
    ("store_history", .bool code.storeHistory)]⟩

def submit (h : Host) (k : Ticket) (i : Nat) (code : Code) : Doing :=
  match (h.process i).connection with
  | .error f => (h, [.answer k (.failed f)])
  | .ok n =>
    let r := RequestId.fresh h.requests
    match { h with requests := h.requests + 1 }.send (i, n) (executeRequest r code) with
    | (h, some f) => (h, [.answer k (.failed f)])
    | (h, none) => (h, [.submitted k r, .soon (.run (i, n))])

/-- A worker is asked something that it has to reply to. -/
def ask (h : Host) (i : Nat) (request : ShellRequest) (q : Pending) : Doing :=
  match (h.process i).connection with
  | .error f => (h, [conclude q (.unsent f)])
  | .ok n =>
    let r := RequestId.fresh h.requests
    let h := { h with requests := h.requests + 1, pending := h.pending.set r q }
    let (h, refusal) := h.send (i, n) ⟨r, request.type, request.content⟩
    match refusal with
    | some f => h.connect (i, n) [.register r, .act r (.unsent f)]
    | none =>
      Doing.andThen (h.connect (i, n) [.register r, .act r .sent]) fun h =>
        if q.limit.coverMillis = 0 then (h, [.soon (.elapse (i, n) r), .soon (.run (i, n))])
        else (h, [.soon (.run (i, n)), .after q.limit.coverMillis (.elapse (i, n) r)])

/-- What a child runs whose program and command line are given. -/
def childProgram (h : Host) (program : String) (file : File) (argv : List String) : ChildProgram :=
  let place := Path.ofText h.directory h.workingDir.toList
  match file, argv with
  | .text .., _ => .player (Path.ofText place program.toList).dropLast (argv.drop 1)
  | .program .shell, _ :: script :: arguments =>
    match (h.files.find place script.toList).content with
    | .ok content =>
      if "#!".toList.isPrefixOf content then
        .player (Path.ofText place script.toList).dropLast arguments
      else .quiet
    | .error _ => .quiet
  | .program .copy, _ => .copy
  | .program .idle, _ => .idle
  | .program _, _ => .quiet

/-- A child is made for a worker, if the system makes one, and the call ends. A child that the worker
had before is killed. -/
def spawn (h : Host) (k : Ticket) (i : Nat) : Doing :=
  match h.workers[i]? with
  | none => (h, [.answer k (.failed .notRunning)])
  | some w => match h.files.spawn w.program h.workingDir h.directory with
    | .error f => (h, [.answer k (.failed f)])
    | .ok (files, file) =>
      let c : ChildId := (i, w.process.spawned)
      let child : Child := { program := h.childProgram w.program file w.spec.argv }
      let old := w.process.child
      let h := { h with
        files
        children := Table.set c child <| h.children.filter fun (x : ChildId × Child) =>
          x.1.1 ≠ i ∨ some x.1.2 ≠ old
        connections := h.connections.set c { } }
      (h.setProcess i (w.process.spawn (.ok ())).1,
        [.renew i, .alive i true, .soon (.run c), .answer k .ok])

/-- The child of a worker is given up; when it has gone, another one is made or the call ends. -/
def stop (h : Host) (k : Ticket) (i : Nat) (again : Bool) : Doing :=
  let p := h.process i
  let h := h.setProcess i p.stop
  match p.child with
  | none => if again then h.spawn k i else (h, [.answer k .ok])
  | some n =>
    let c : ChildId := (i, n)
    let (h, _) := h.send c ⟨.fresh h.requests, "shutdown_request",
      .object [("restart", .bool false)]⟩
    let h := { h with requests := h.requests + 1, leaving := h.leaving.set c ⟨k, again⟩ }
    let h := h.modifyChild c fun child => { child with player := { child.player with ended := true } }
    (h, [.alive i false, .renew i] ++
      if h.isRunning c then [.soon (.run c), .after grace (.kill c)] else [.soon (.gone c)])

/-- A call to a worker begins. -/
def call (h : Host) (k : Ticket) (i : Nat) (c : WorkerCall) (limit : Span) : Doing :=
  match c with
  | .start => match h.poll i with
    | (true, h) => (h, [.answer k .ok])
    | (false, h) => h.spawn k i
  | .waitReady => h.ask i .kernelInfo ⟨k, ShellRequest.kernelInfo.type, limit, true⟩
  | .interrupt => match (h.process i).target (h.view i) with
    | .error f => (h, [.answer k (.failed f)])
    | .ok n => (h, [.answer k .ok, .soon (.interrupt (i, n))])
  | .restart => h.stop k i true
  | .shutdown => h.stop k i false

/-- A worker is asked a query. -/
def query (h : Host) (k : Ticket) (i : Nat) (request : ShellRequest) (limit : Span) : Doing :=
  h.ask i request ⟨k, request.type, limit, false⟩

/-- A child does what a token says, if it still runs. -/
def fireChild (h : Host) (c : ChildId) (child : Child) : HostToken → Doing
  | .run _ => h.run c child
  | .wake _ n => match child.program with
    | .player directory arguments =>
      if child.pauses = n then h.halt c (child.player.wake (h.setup c.1 directory arguments))
      else (h, [])
    | _ => (h, [])
  | .interrupt _ => match child.program with
    | .player directory arguments =>
      h.halt c (child.player.interrupt (h.setup c.1 directory arguments))
    | _ => h.exit c
  | .kill _ => h.exit c
  | .elapse .. | .gone _ => (h, [])

/-- A token comes back. -/
def fire (h : Host) (token : HostToken) : Doing :=
  match token with
  | .elapse c r => h.connect c [.act r .elapse]
  | .gone c => match h.leaving.get? c with
    | none => (h, [])
    | some l =>
      let h := { h with leaving := h.leaving.erase c }
      if l.again then h.spawn l.ticket c.1 else (h, [.answer l.ticket .ok])
  | .run c | .wake c _ | .interrupt c | .kill c => match h.children.get? c with
    | none => (h, [])
    | some child => if child.exited then (h, []) else h.fireChild c child token

/-- Why nothing more comes from a worker: its connection is gone, or is not read any more. -/
def closed? (h : Host) (i : Nat) (waiting : Bool) : Option Failure :=
  match (h.process i).attached with
  | some n => if h.isReading (i, n) then none else some .streamClosed
  | none =>
    if waiting then
      if h.isReading (i, (h.process i).spawned - 1) then none else some .streamClosed
    else some .notRunning

def launch (h : Host) (spec : KernelSpec) : Host × Option Failure :=
  match spec.program h.files h.directory with
  | .error f => (h, some f)
  | .ok program => ({ h with workers := h.workers ++ [⟨spec, program, { }⟩] }, none)

/-- The world of a host. -/
def world : World Host HostToken where
  launch := launch
  call := call
  submit := submit
  query := query
  fire := fire
  closed? := closed?

end Host
end NotebookKernels
