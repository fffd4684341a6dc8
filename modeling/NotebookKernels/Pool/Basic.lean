import NotebookKernels.Pool.Lock
import NotebookKernels.Config
import NotebookKernels.Kernel.Record
import NotebookKernels.Event.Stream
import NotebookKernels.Listing.Inspector

/- The state of a pool of kernels.

   Every kernel that was ever launched has an entry, numbered in the order of the
   launches; the tracked entries are the kernels that callers see, in the order in
   which they were inserted. An entry that is no longer tracked is kept because
   calls that found it before may still hold its locks. -/
namespace NotebookKernels

/-- A call to a worker. -/
inductive WorkerCall where
  | start
  | waitReady
  | interrupt
  | restart
  | shutdown
  deriving DecidableEq, Repr

/-- All that belongs to one kernel. -/
structure Entry where
  record : Kernel
  /-- When the kernel was last active, on the pool's activity clock. -/
  activity : Nat
  inspector : Option Inspector
  /-- Does the worker say that it runs? -/
  alive : Bool
  /-- The worker's event queue, oldest first. -/
  mail : List Mail
  /-- Held during calls to the worker. -/
  workerLock : Lock
  /-- Held by the slot that executes on the kernel. -/
  slotLock : Lock
  /-- The calls made to the worker so far. -/
  calls : List WorkerCall
  deriving DecidableEq, Repr

/-- The pool. -/
structure Pool where
  config : Config
  entries : List Entry
  /-- The tracked entries, in the order of insertion. -/
  tracked : List Nat
  /-- Held while entries are added, evicted or shut down. -/
  structureLock : Lock
  /-- How often the tasks that wait for room were woken. -/
  settled : Nat
  /-- The activity clock: how many activities there were. -/
  clock : Nat
  /-- The time, in milliseconds. -/
  now : Nat
  deriving DecidableEq, Repr

namespace Entry

/-- The entry of a kernel that has just been launched. -/
def launched (id : KernelId) (name : String) (notebook : Option String)
    (inspector : Option Inspector) (now : Nat) : Entry where
  record := ⟨id, name, .starting, notebook, 0, now, now⟩
  activity := 0
  inspector
  alive := false
  mail := []
  workerLock := { }
  slotLock := { }
  calls := []

/-- Has the worker exited? One that is locked is in use, not dead. -/
def isDead (e : Entry) : Bool := e.workerLock.isFree && !e.alive

end Entry

namespace Pool

/-- A pool without kernels. -/
def empty (config : Config) : Pool := ⟨config, [], [], { }, 0, 0, 0⟩

/-- How many kernels are tracked. -/
def size (p : Pool) : Nat := p.tracked.length

/-- How many kernels may be tracked. -/
def capacity (p : Pool) : Nat := p.config.capacity

def entry? (p : Pool) (i : Nat) : Option Entry := p.entries[i]?

def record? (p : Pool) (i : Nat) : Option Kernel := (p.entry? i).map (·.record)

def modify (p : Pool) (i : Nat) (f : Entry → Entry) : Pool :=
  { p with entries := p.entries.modify i f }

def isTracked (p : Pool) (i : Nat) : Bool := p.tracked.contains i

/-- The tracked entry with this identifier. -/
def find? (p : Pool) (id : KernelId) : Option Nat :=
  p.tracked.find? fun i => (p.record? i).any (·.id = id)

def isDead (p : Pool) (i : Nat) : Bool := (p.entry? i).any Entry.isDead

def holdsWorker (p : Pool) (t : TaskId) (i : Nat) : Bool :=
  (p.entry? i).any (·.workerLock.heldBy t)

/-- Does the task hold the entry's execution slot? -/
def holdsSlot (p : Pool) (t : TaskId) (i : Nat) : Bool :=
  (p.entry? i).any (·.slotLock.heldBy t)

/-- The identifier of an entry's kernel. -/
def idOf (p : Pool) (i : Nat) : KernelId := (p.record? i).elim ⟨""⟩ (·.id)

def untrack (p : Pool) (i : Nat) : Pool := { p with tracked := p.tracked.filter (· ≠ i) }

/-- Tracks an entry, as the latest, and counts an activity for it. -/
def insert (p : Pool) (i : Nat) : Pool :=
  { p.modify i ({ · with activity := p.clock + 1 }) with
    tracked := p.tracked ++ [i]
    clock := p.clock + 1 }

/-- Changes a record and counts an activity for its kernel. -/
def touch (p : Pool) (i : Nat) (f : Kernel → Kernel) : Pool :=
  { p.modify i fun e =>
      { e with record := { f e.record with lastActivity := p.now }, activity := p.clock + 1 } with
    clock := p.clock + 1 }

/-- The record as a change leaves it, before the activity is counted. -/
def changed? (p : Pool) (i : Nat) (f : Kernel → Kernel) : Option Kernel := (p.record? i).map f

def setStatus (p : Pool) (i : Nat) (status : KernelStatus) : Pool :=
  p.touch i ({ · with status })

/-- Wakes the tasks that wait for room. -/
def wake (p : Pool) : Pool := { p with settled := p.settled + 1 }

def requestStructure (p : Pool) (t : TaskId) : Pool :=
  { p with structureLock := p.structureLock.request t }

def releaseStructure (p : Pool) : Pool := { p with structureLock := p.structureLock.release }

def requestWorker (p : Pool) (t : TaskId) (i : Nat) : Pool :=
  p.modify i fun e => { e with workerLock := e.workerLock.request t }

def releaseWorker (p : Pool) (i : Nat) : Pool :=
  p.modify i fun e => { e with workerLock := e.workerLock.release }

def requestSlot (p : Pool) (t : TaskId) (i : Nat) : Pool :=
  p.modify i fun e => { e with slotLock := e.slotLock.request t }

def releaseSlot (p : Pool) (i : Nat) : Pool :=
  p.modify i fun e => { e with slotLock := e.slotLock.release }

/-- A call to an entry's worker begins. -/
def call (p : Pool) (i : Nat) (c : WorkerCall) : Pool :=
  p.modify i fun e => { e with calls := e.calls ++ [c] }

def launch (p : Pool) (name : String) (notebook : Option String) (inspector : Option Inspector) :
    Pool :=
  { p with
    entries := p.entries ++
      [.launched (KernelId.fresh p.entries.length) name notebook inspector p.now] }

/-- The one of the entries that was active least recently; of several the first. -/
def leastActive? (p : Pool) : List Nat → Option Nat
  | [] => none
  | i :: r => match p.leastActive? r with
    | none => some i
    | some j =>
      if (p.entry? i).elim 0 (·.activity) ≤ (p.entry? j).elim 0 (·.activity) then some i else some j

/-- Is the entry's worker being brought up or replaced? -/
def inTransition (p : Pool) (i : Nat) : Bool := (p.record? i).any (·.status.inTransition)

/-- The kernel to evict: the least recently active one that is not in transition. -/
def evictee? (p : Pool) : Option Nat :=
  p.leastActive? (p.tracked.filter fun i => !p.inTransition i)

/-- The records of the tracked kernels, in the order of insertion. -/
def records (p : Pool) : List Kernel := p.tracked.filterMap p.record?

end Pool
end NotebookKernels
