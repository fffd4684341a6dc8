import NotebookKernels.Pool.Basic
import NotebookKernels.Kernel.Spec

/- The operations of the pool, step by step.

   An operation that may wait is a task, and a `Stage` says where it stands: which
   lock it asked for, which call to a worker it waits for, or that it is about to
   look at the next kernel of a sweep. `Pool.step` is the next step of a task that
   waits for nobody, `Pool.answer` what follows when a call to a worker ends.
   Between two steps any other task may run. -/
namespace NotebookKernels

/-- What a task wants from the structure lock. -/
inductive Errand where
  /-- Room for the entry; the number says how often waiters had been woken before it asked. -/
  | room (i ticket : Nat)
  | shutdown (id : KernelId)
  | shutdownAll
  | pruneDead
  | removeIfDead (id : KernelId)
  /-- To remove a kernel whose restart failed. -/
  | giveUp (id : KernelId) (f : Failure)
  deriving DecidableEq, Repr

/-- Where a task stands. -/
inductive Stage where
  /-- It asked for the structure lock. -/
  | structure (errand : Errand)
  /-- It holds the structure lock and looks at the entries `todo`, having removed `found`. -/
  | sweep (errand : Errand) (todo found : List Nat)
  /-- It removed an entry and asked for its worker. -/
  | closing (errand : Errand) (i : Nat) (todo found : List Nat)
  /-- It shuts down the worker of an entry that it removed. -/
  | stopping (errand : Errand) (i : Nat) (todo found : List Nat)
  /-- It waits for room. -/
  | parked (i ticket : Nat)
  /-- It starts the worker of a new kernel. -/
  | starting (i : Nat)
  /-- It waits until the worker of a new kernel is ready. -/
  | readying (i : Nat)
  /-- It shuts down the worker of a kernel that did not come up. -/
  | abandoning (i : Nat) (f : Failure)
  /-- It asked for a worker to interrupt. -/
  | interruptLock (i : Nat)
  /-- It interrupts a worker. -/
  | interrupting (i : Nat)
  /-- It asked for a worker to restart. -/
  | restartLock (i : Nat)
  /-- It restarts a worker. -/
  | restarting (i : Nat)
  /-- It waits until a restarted worker is ready. -/
  | restartReadying (i : Nat)
  /-- It asked for a worker, to wait out a start or restart before an execution. -/
  | acquireLock (i : Nat)
  /-- It asked for an execution slot. -/
  | acquireSlot (i : Nat)
  /-- It is about to ask for a dead worker. -/
  | reap (i : Nat)
  /-- It asked for a dead worker. -/
  | reapLock (i : Nat)
  /-- It shuts down a dead worker. -/
  | reaping (i : Nat)
  deriving DecidableEq, Repr

/-- What an operation of the pool comes to. -/
inductive Outcome where
  | done
  | kernel (k : Kernel)
  | kernels (ks : List Kernel)
  | removed (ids : List KernelId)
  | flag (b : Bool)
  /-- An execution slot on the entry. -/
  | slot (i : Nat)
  /-- A channel to the entry's worker. -/
  | channel (i : Nat)
  | failed (f : Failure)
  deriving DecidableEq, Repr

/-- What a task does next: it stands at a stage, or it has ended. -/
inductive Move where
  | wait (s : Stage)
  | finish (o : Outcome)
  deriving DecidableEq, Repr

/-- How a call to a worker ends. -/
inductive Answer where
  | ok
  | failed (f : Failure)
  /-- The time allowed for the call ran out. -/
  | elapsed
  deriving DecidableEq, Repr

/-- The failure of a worker that was not ready in time. -/
def Failure.notReady (limit : Span) : Failure :=
  .start ("kernel did not become ready within " ++ limit.text)

/-- The failure of a kernel that was shut down while its worker started. -/
def Failure.shutDownWhileStarting (id : KernelId) : Failure :=
  .start ("kernel " ++ id.text ++ " was shut down while starting")

/-- The failure to create a kernel of a kind that is not known. -/
def Failure.unknownSpec (name : String) : Failure :=
  .start ("unknown kernel spec '" ++ name ++ "'")

namespace Stage

/-- The call to a worker that the task waits for. -/
def call? : Stage → Option (Nat × WorkerCall)
  | .starting i => some (i, .start)
  | .readying i | .restartReadying i => some (i, .waitReady)
  | .interrupting i => some (i, .interrupt)
  | .restarting i => some (i, .restart)
  | .stopping _ i _ _ | .abandoning i _ | .reaping i => some (i, .shutdown)
  | _ => none

end Stage

namespace Pool

/-- Does the errand remove only kernels whose worker is dead? -/
def onlyDead : Errand → Bool
  | .room .. | .pruneDead | .removeIfDead _ => true
  | .shutdown _ | .shutdownAll | .giveUp .. => false

/-- The entries that an errand looks at, as they are tracked when it gets the structure lock. -/
def agenda (p : Pool) : Errand → List Nat
  | .room .. | .pruneDead | .shutdownAll => p.tracked
  | .shutdown id | .removeIfDead id | .giveUp id _ => (p.find? id).toList

/-- A sweep looks at one entry. A dead one, or any if the errand does not ask, is removed; if it was
still tracked and not starting, its worker is shut down here. The task that started a kernel owns
its worker until it is ready. -/
def sweepNext (p : Pool) (t : TaskId) (errand : Errand) (i : Nat) (todo found : List Nat) :
    Pool × Move :=
  if onlyDead errand && !p.isDead i then (p, .wait (.sweep errand todo found))
  else
    let found := found ++ [i]
    if !p.isTracked i then (p, .wait (.sweep errand todo found))
    else if (p.record? i).any (·.status = .starting) then
      (p.untrack i, .wait (.sweep errand todo found))
    else ((p.untrack i).requestWorker t i, .wait (.closing errand i todo found))

/-- A sweep has looked at all its entries. For room, the least recently active kernel goes if the
pool is full; if none may go, the task parks. -/
def conclude (p : Pool) (t : TaskId) (found : List Nat) : Errand → Pool × Move
  | .room i ticket =>
    if p.size < p.capacity then
      (((p.insert i).releaseStructure).call i .start, .wait (.starting i))
    else match p.evictee? with
      | some v =>
        ((p.untrack v).requestWorker t v, .wait (.closing (.room i ticket) v [] found))
      | none => (p.releaseStructure, .wait (.parked i ticket))
  | .shutdown _ | .shutdownAll => (p.releaseStructure, .finish .done)
  | .pruneDead =>
    (p.releaseStructure, .finish (.removed (found.map p.idOf)))
  | .removeIfDead _ => (p.releaseStructure, .finish (.flag (!found.isEmpty)))
  | .giveUp _ f => (p.releaseStructure.wake, .finish (.failed f))

/-- The next step of a task, if it waits for nobody. -/
def step (p : Pool) (t : TaskId) : Stage → Option (Pool × Move)
  | .structure errand =>
    if p.structureLock.heldBy t then some (p, .wait (.sweep errand (p.agenda errand) [])) else none
  | .sweep errand [] found => some (p.conclude t found errand)
  | .sweep errand (i :: todo) found => some (p.sweepNext t errand i todo found)
  | .closing errand i todo found =>
    if p.holdsWorker t i then some (p.call i .shutdown, .wait (.stopping errand i todo found))
    else none
  | .parked i ticket =>
    if ticket < p.settled then
      some (p.requestStructure t, .wait (.structure (.room i p.settled)))
    else none
  | .interruptLock i =>
    if p.holdsWorker t i then some (p.call i .interrupt, .wait (.interrupting i)) else none
  | .restartLock i =>
    if p.holdsWorker t i then some (p.call i .restart, .wait (.restarting i)) else none
  | .acquireLock i =>
    if p.holdsWorker t i then
      some ((p.releaseWorker i).requestSlot t i, .wait (.acquireSlot i))
    else none
  | .acquireSlot i =>
    if p.holdsSlot t i then
      if p.isTracked i then some (p.setStatus i .busy, .finish (.slot i))
      else some (p.releaseSlot i, .finish (.failed (.kernelNotFound (p.idOf i))))
    else none
  | .reap i => some (p.requestWorker t i, .wait (.reapLock i))
  | .reapLock i =>
    if p.holdsWorker t i then some (p.call i .shutdown, .wait (.reaping i)) else none
  | .stopping .. | .starting _ | .readying _ | .abandoning .. | .interrupting _ | .restarting _
  | .restartReadying _ | .reaping _ => none

/-- A kernel did not come up: it is forgotten and its worker shut down. -/
def abandon (p : Pool) (i : Nat) (f : Failure) : Pool × Move :=
  ((p.untrack i).call i .shutdown, .wait (.abandoning i f))

/-- The worker of a new kernel is ready. The kernel is idle now, unless it was removed meanwhile. The
record that is returned has the time of the last activity before this one. -/
def comeUp (p : Pool) (i : Nat) : Pool × Move :=
  if p.isTracked i then
    let record := p.changed? i ({ · with status := .idle })
    ((p.setStatus i .idle).wake.releaseWorker i, .finish (record.elim .done .kernel))
  else (p.call i .shutdown, .wait (.abandoning i (.shutDownWhileStarting (p.idOf i))))

/-- A restarted worker is ready: the kernel is idle and counts from zero. The record that is returned
has the time of the last activity before this one. -/
def comeBack (p : Pool) (i : Nat) : Pool × Move :=
  let p := p.releaseWorker i
  let record := p.changed? i ({ · with status := .idle, executionCount := 0 })
  ((p.touch i ({ · with status := .idle, executionCount := 0 })).wake,
    .finish (record.elim .done .kernel))

/-- A restart failed: its kernel is to be removed. -/
def failRestart (p : Pool) (t : TaskId) (i : Nat) (f : Failure) : Pool × Move :=
  ((p.releaseWorker i).requestStructure t, .wait (.structure (.giveUp (p.idOf i) f)))

/-- What follows when the call that a task waits for ends. -/
def answer (p : Pool) (t : TaskId) : Stage → Answer → Option (Pool × Move)
  | .stopping errand i todo found, _ =>
    some ((p.releaseWorker i).wake, .wait (.sweep errand todo found))
  | .starting i, .ok => some (p.call i .waitReady, .wait (.readying i))
  | .starting i, .failed f => some (p.abandon i f.asStart)
  | .readying i, .ok => some (p.comeUp i)
  | .readying i, .failed f => some (p.abandon i f.asStart)
  | .readying i, .elapsed => some (p.abandon i (.notReady p.config.kernelTimeout))
  | .abandoning i f, _ => some (((p.untrack i).wake).releaseWorker i, .finish (.failed f))
  | .interrupting i, .ok => some ((p.releaseWorker i).setStatus i .idle, .finish .done)
  | .interrupting i, .failed f => some (p.releaseWorker i, .finish (.failed f))
  | .restarting i, .ok => some (p.call i .waitReady, .wait (.restartReadying i))
  | .restarting i, .failed f => some (p.failRestart t i f.asStart)
  | .restartReadying i, .ok => some (p.comeBack i)
  | .restartReadying i, .failed f => some (p.failRestart t i f.asStart)
  | .restartReadying i, .elapsed => some (p.failRestart t i (.notReady p.config.kernelTimeout))
  | .reaping i, _ => some (p.releaseWorker i, .finish .done)
  | _, _ => none

end Pool
end NotebookKernels
