import NotebookKernels.Service.State
import NotebookKernels.Directive.Submission

/- The services, step by step.

   `Services.step` is one step: a caller begins a call, a task takes its own next
   step, a call to a worker or a wait ends, a worker dies or sends something, or
   time passes. Any sequence of steps is a run; what the callers, the workers and
   the clock do is free, and so is the choice of the task that goes next. -/
namespace NotebookKernels

/-- A call of the services. -/
inductive Call where
  | pool (c : PoolCall)
  /-- To count an execution on a slot. -/
  | record (slot : TaskId)
  /-- The count of a slot's kernel. -/
  | count (slot : TaskId)
  /-- To give up a slot. -/
  | release (slot : TaskId)
  | execute (request : ExecuteRequest) (sink : Sink)
  | introspect (id : KernelId)
  | result (id : ExecutionId)
  /-- To submit code on an entry's channel. -/
  | submit (i : Nat) (code : Code)
  /-- To read the output of a request on an entry's channel. -/
  | stream (i : Nat) (request : RequestId)
  /-- To list variables on an entry's channel. -/
  | list (i : Nat)
  /-- To ask an entry's worker a short query. -/
  | query (i : Nat) (request : ShellRequest)
  deriving DecidableEq, Repr

/-- What happens in one step. Callers begin calls and do not drop them while they wait. -/
inductive Label where
  /-- A caller begins a call. -/
  | call (c : Call)
  /-- A task takes its own next step. -/
  | resume (t : TaskId)
  /-- A call to a worker, or a wait, ends. -/
  | answer (t : TaskId) (a : Answer)
  /-- A worker accepts code. -/
  | submitted (t : TaskId) (r : RequestId)
  /-- A worker replies to a query. -/
  | replied (t : TaskId) (v : Json)
  /-- The wait for the next event of a listing has lasted too long. -/
  | expire (t : TaskId)
  /-- A worker starts to run, or stops. -/
  | alive (i : Nat) (alive : Bool)
  /-- A worker sends something. -/
  | deliver (i : Nat) (m : Mail)
  /-- A worker's event queue is replaced by an empty one. -/
  | renew (i : Nat)
  /-- Time passes, in milliseconds. -/
  | pass (n : Nat)
  deriving DecidableEq, Repr

namespace Execution

/-- Takes in one output event: it goes to the sink and into the result. -/
def take (x : Execution) (e : OutputEvent) : Execution :=
  { x with
    sink := x.sink.take e
    result := x.result.push e
    broken := x.broken || e.isChannelFailure }

end Execution

namespace Services

/-- When the wait for an event that begins now ends. -/
def listingDeadline (s : Services) : Nat := s.pool.now + s.pool.config.queryTimeout.coverMillis

def takeOutput (s : Services) (e : OutputEvent) : Work → Work
  | .execution x => .execution (x.take e)
  | .listing l =>
    .listing { l with stdout := l.stdout ++ e.stdoutText?.toList, deadline := s.listingDeadline }
  | .stream events => .stream (events ++ [e])
  | w => w

/-- An execution has ended with this result, which is kept and answered. -/
def conclude (s : Services) (t : TaskId) (sink : Sink) (r : ExecutionResult) : Services :=
  (s.remember r).finish t (.result r sink)

def complete (s : Services) (t : TaskId) (x : Execution) : Services :=
  s.conclude t x.sink (x.result.finish s.pool.now)

/-- An execution failed outside the user's code. -/
def fail (s : Services) (t : TaskId) (x : Execution) (f : Failure) : Services :=
  s.conclude t x.sink (x.result.fail f s.pool.now)

def countOf (s : Services) (i : Nat) : Nat := (s.pool.record? i).elim 0 (·.executionCount)

def countUp (s : Services) (i : Nat) : Services :=
  { s with pool := s.pool.touch i fun k => { k with executionCount := k.executionCount + 1 } }

/-- An execution has its slot: its directives are expanded, their notices become its first output,
and the code is submitted unless nothing is left of it. -/
def execute (s : Services) (t : TaskId) (i : Nat) (x : Execution) : Services :=
  let submission := Submission.process x.request.code.toList
  let x := match submission.immediate with
    | none => x
    | some notices => x.take (.stdout (String.ofList (Notices.render notices)))
  if submission.code.allBlank then
    let x := { x with result := { x.result with executionCount := some (s.countOf i) } }
    (s.dropSlot t).complete t x
  else
    s.setTask t (.submitting (.execution x) i
      ⟨String.ofList submission.code, x.request.silent, x.request.storeHistory⟩)

/-- A listing has its channel: the script is submitted, if the language has one. -/
def list (s : Services) (t : TaskId) (i : Nat) : Services :=
  match (s.pool.entry? i).bind (·.inspector) with
  | none => (s.dropSlot t).finish t (.listing [])
  | some inspector =>
    s.setTask t (.submitting (.listing ⟨inspector, [], 0⟩) i ⟨inspector.script, true, false⟩)

/-- The task makes its next move inside the pool, or goes on with what the pool's operation was
for. -/
def move (s : Services) (t : TaskId) (work : Work) : Move → Services
  | .wait stage => s.setTask t (.pool work stage)
  | .finish outcome =>
    let s := match outcome with
      | .slot i => { s with slots := s.slots.set t i }
      | _ => s
    match work, outcome with
    | .execution x, .slot i => s.execute t i x
    | .execution x, .failed f => s.fail t x f
    | .execution x, _ => s.complete t x
    | .introspection, .slot i => s.list t i
    | _, outcome => s.finish t (.pool outcome)

/-- A call of the pool begins, as task `t`. -/
def startPool (s : Services) (t : TaskId) (work : Work) (c : PoolCall) : Services :=
  let b := s.pool.start s.catalog t c
  ({ s with pool := b.pool }.move t work b.move).reap b.dead

def endStream (s : Services) (t : TaskId) (i : Nat) : Work → Services
  | .execution x =>
    let s := if x.request.silent then s else s.countUp i
    let x := { x with result := { x.result with executionCount := some (s.countOf i) } }
    let s := s.dropSlot t
    if x.broken then s.startPool t (.execution x) (.removeIfDead x.request.kernel)
    else s.complete t x
  | .listing l =>
    (s.dropSlot t).finish t (.listing (l.inspector.parse (String.join l.stdout)))
  | .stream events => s.finish t (.events events)
  | _ => s.finish t (.pool .done)

/-- A task takes one item from a worker's event queue. -/
def receive (s : Services) (t : TaskId) (work : Work) (i : Nat) (r : RequestId) (m : Mail) :
    Services :=
  match m.deliveryFor r with
  | .skip => s.setTask t (.receiving work i r)
  | .output e => s.setTask t (.receiving (s.takeOutput e work) i r)
  | .ended => s.endStream t i work
  | .broken e => s.endStream t i (s.takeOutput e work)

/-- A call begins, as task `t`. -/
def start (s : Services) (t : TaskId) : Call → Services
  | .pool c => s.startPool t .operation c
  | .record slot => match s.held? slot with
    | none => s.finish t (.pool .done)
    | some i =>
      let s := s.countUp i
      s.finish t (.count (s.countOf i))
  | .count slot => match s.held? slot with
    | none => s.finish t (.pool .done)
    | some i => s.finish t (.count (s.countOf i))
  | .release slot => match s.held? slot with
    | none => s.finish t (.pool .done)
    | some _ => (s.dropSlot slot).finish t (.pool .done)
  | .execute request sink =>
    let result := .start (.fresh s.nextExecution) request.kernel request.cell s.pool.now
    let s := { s with nextExecution := s.nextExecution + 1 }.remember result
    s.startPool t (.execution ⟨request, sink, result, false⟩) (.acquire request.kernel)
  | .introspect id => s.startPool t .introspection (.acquire id)
  | .result id => match s.results.get? id with
    | none => s.finish t (.pool (.failed (.executionNotFound id)))
    | some r => s.finish t (.result r .absent)
  | .submit i code => s.setTask t (.submitting .submission i code)
  | .stream i request => s.setTask t (.receiving (.stream []) i request)
  | .list i => s.list t i
  | .query i request => s.setTask t (.querying i request)

/-- A task takes its own next step, if it waits for nobody. -/
def resume (s : Services) (t : TaskId) : Activity → Option Services
  | .pool work stage =>
    (s.pool.step t stage).map fun (pool, m) => { s with pool }.move t work m
  | .receiving work i r =>
    match (s.pool.entry? i).elim [] (·.mail) with
    | [] => none
    | m :: rest => some ({ s with pool := s.pool.modify i ({ · with mail := rest }) }.receive t work i r m)
  | .submitting .. | .querying .. | .pausing .. => none

def answer (s : Services) (t : TaskId) : Activity → Answer → Option Services
  | .pool work stage, a =>
    (s.pool.answer t stage a).map fun (pool, m) => { s with pool }.move t work m
  | .submitting (.execution x) _ _, .failed f => some ((s.dropSlot t).fail t x f)
  | .submitting _ _ _, .failed f => some ((s.dropSlot t).finish t (.pool (.failed f)))
  | .querying _ _, .failed f => some (s.finish t (.pool (.failed f)))
  | .receiving work i r, .failed f => some (s.receive t work i r (.failure f))
  | .receiving work i r, .elapsed => some (s.setTask t (.pausing work i r))
  | .pausing work i r, .elapsed => some (s.setTask t (.receiving work i r))
  | _, _ => none

def accept (s : Services) (t : TaskId) (r : RequestId) : Activity → Option Services
  | .submitting .submission _ _ => some (s.finish t (.submitted r))
  | .submitting (.listing l) i _ =>
    some (s.setTask t (.receiving (.listing { l with deadline := s.listingDeadline }) i r))
  | .submitting work i _ => some (s.setTask t (.receiving work i r))
  | _ => none

/-- A worker has replied to the query of a task. -/
def take (s : Services) (t : TaskId) (v : Json) : Activity → Option Services
  | .querying _ _ => some (s.finish t (.value v))
  | _ => none

/-- The wait of a listing has lasted too long: what it has is read. -/
def expire (s : Services) (t : TaskId) : Activity → Option Services
  | .receiving (.listing l) i _ | .pausing (.listing l) i _ => some (s.endStream t i (.listing l))
  | _ => none

/-- One step of the services. No call is dropped while it waits: a task goes on until it ends by
itself. -/
def step (s : Services) : Label → Option Services
  | .call c => some ({ s with nextTask := s.nextTask + 1 }.start s.nextTask c)
  | .resume t => (s.tasks.get? t).bind (s.resume t)
  | .answer t a => (s.tasks.get? t).bind (s.answer t · a)
  | .submitted t r => (s.tasks.get? t).bind (s.accept t r)
  | .replied t v => (s.tasks.get? t).bind (s.take t v)
  | .expire t => (s.tasks.get? t).bind (s.expire t)
  | .alive i alive => some { s with pool := s.pool.modify i ({ · with alive }) }
  | .deliver i m =>
    some { s with pool := s.pool.modify i fun e => { e with mail := e.mail ++ [m] } }
  | .renew i => some { s with pool := s.pool.modify i ({ · with mail := [] }) }
  | .pass n => some { s with pool := { s.pool with now := s.pool.now + n } }

end Services
end NotebookKernels
