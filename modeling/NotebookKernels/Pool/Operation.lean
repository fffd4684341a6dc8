import NotebookKernels.Pool.Stage
import NotebookKernels.Kernel.Catalog

/- How the operations of the pool begin.

   A lookup that finds a kernel whose worker has died forgets that kernel and
   reports it as not found; a task of its own tears the worker down. -/
namespace NotebookKernels

/-- A call of the pool. -/
inductive PoolCall where
  /-- To create a kernel; `refusal` is what the launcher says if it does not launch the worker. -/
  | create (request : KernelCreate) (refusal : Option Failure)
  | get (id : KernelId)
  | list
  | updateStatus (id : KernelId) (status : KernelStatus)
  | interrupt (id : KernelId)
  | restart (id : KernelId)
  | shutdown (id : KernelId)
  | shutdownAll
  | pruneDead
  | removeIfDead (id : KernelId)
  | channel (id : KernelId)
  | acquire (id : KernelId)
  deriving DecidableEq, Repr

/-- How a call begins: the pool after its first step, the dead kernels to tear down, and what the
task does next. -/
structure Beginning where
  pool : Pool
  dead : List Nat
  move : Move

namespace Pool

def discard (p : Pool) (dead : List Nat) : Pool := dead.foldl untrack p

/-- Looks up a kernel and goes on with its entry, unless it is not tracked or dead. A dead one is forgotten
and its worker torn down by a task of its own: lookups are made only where tasks can be started. -/
def withLive (p : Pool) (id : KernelId) (k : Nat → Pool × Move) : Beginning :=
  match p.find? id with
  | none => ⟨p, [], .finish (.failed (.kernelNotFound id))⟩
  | some i =>
    if p.isDead i then ⟨p.discard [i], [i], .finish (.failed (.kernelNotFound id))⟩
    else ⟨(k i).1, [], (k i).2⟩

/-- A call begins, as task `t`. -/
def start (p : Pool) (catalog : Catalog) (t : TaskId) : PoolCall → Beginning
  | .create request refusal =>
    match catalog.find? request.name, refusal with
    | none, _ => ⟨p, [], .finish (.failed (.unknownSpec request.name))⟩
    | some _, some f => ⟨p, [], .finish (.failed f)⟩
    | some spec, none =>
      let i := p.entries.length
      let p := p.launch spec.name request.notebook (Inspector.forLanguage? spec.language)
      ⟨(p.requestWorker t i).requestStructure t, [], .wait (.structure (.room i p.settled))⟩
  | .get id => p.withLive id fun i => (p, .finish ((p.record? i).elim .done .kernel))
  | .list =>
    let dead := p.tracked.filter p.isDead
    let p := p.discard dead
    ⟨p, dead, .finish (.kernels p.records)⟩
  | .updateStatus id status =>
    ⟨(p.find? id).elim p (p.setStatus · status), [], .finish .done⟩
  | .interrupt id => p.withLive id fun i => (p.requestWorker t i, .wait (.interruptLock i))
  | .restart id => p.withLive id fun i =>
      ((p.setStatus i .restarting).requestWorker t i, .wait (.restartLock i))
  | .shutdown id => ⟨p.requestStructure t, [], .wait (.structure (.shutdown id))⟩
  | .shutdownAll => ⟨p.requestStructure t, [], .wait (.structure .shutdownAll)⟩
  | .pruneDead => ⟨p.requestStructure t, [], .wait (.structure .pruneDead)⟩
  | .removeIfDead id => ⟨p.requestStructure t, [], .wait (.structure (.removeIfDead id))⟩
  | .channel id => p.withLive id fun i => (p, .finish (.channel i))
  | .acquire id => p.withLive id fun i => (p.requestWorker t i, .wait (.acquireLock i))

end Pool
end NotebookKernels
