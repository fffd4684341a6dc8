import NotebookKernels.Table
import NotebookKernels.Pool.Operation
import NotebookKernels.Execution.Request
import NotebookKernels.Execution.Result
import NotebookKernels.Wire.Shell

/- The state of the services: the pool, the executions on it, and their results. -/
namespace NotebookKernels

/-- Where an execution's output goes besides its result. -/
inductive Sink where
  /-- Nowhere. -/
  | absent
  /-- To a receiver that is gone. -/
  | closed
  /-- To a receiver that has taken in these events. -/
  | «open» (received : List OutputEvent)
  deriving DecidableEq, Repr

namespace Sink

/-- The sink after one event. -/
def take (e : OutputEvent) : Sink → Sink
  | .open received => .open (received ++ [e])
  | s => s

end Sink

/-- An execution in progress. -/
structure Execution where
  request : ExecuteRequest
  sink : Sink
  result : ExecutionResult
  /-- Did the transport fail? -/
  broken : Bool
  deriving DecidableEq, Repr

/-- A listing of variables in progress. -/
structure Listing where
  inspector : Inspector
  /-- Text on the standard output so far. -/
  stdout : List String
  /-- When the wait for the next event ends, in milliseconds. -/
  deadline : Nat
  deriving DecidableEq, Repr

/-- What a task is for. -/
inductive Work where
  /-- An operation of the pool alone. -/
  | operation
  | execution (x : Execution)
  /-- A listing that has to acquire the kernel first. -/
  | introspection
  | listing (l : Listing)
  /-- The output of a request, as a caller without a slot reads it. -/
  | stream (events : List OutputEvent)
  /-- Code, as a caller without a slot submits it. -/
  | submission
  deriving DecidableEq, Repr

/-- Code for a worker. -/
structure Code where
  text : String
  silent : Bool
  storeHistory : Bool
  deriving DecidableEq, Repr

/-- What a task is doing. -/
inductive Activity where
  /-- It is inside an operation of the pool. -/
  | pool (work : Work) (stage : Stage)
  /-- It submits code. -/
  | submitting (work : Work) (i : Nat) (code : Code)
  /-- It waits for the reply to a query. -/
  | querying (i : Nat) (request : ShellRequest)
  /-- It waits for the next event. -/
  | receiving (work : Work) (i : Nat) (request : RequestId)
  /-- It pauses after a wait that brought nothing. -/
  | pausing (work : Work) (i : Nat) (request : RequestId)
  deriving DecidableEq, Repr

/-- What a call comes to. -/
inductive Reply where
  | pool (o : Outcome)
  | count (n : Nat)
  | result (r : ExecutionResult) (sink : Sink)
  | listing (vs : List Variable)
  | events (es : List OutputEvent)
  | submitted (r : RequestId)
  | value (v : Json)
  deriving DecidableEq, Repr

/-- The services. -/
structure Services where
  pool : Pool
  catalog : Catalog
  /-- The tasks in progress. -/
  tasks : Table TaskId Activity
  nextTask : TaskId
  /-- The execution slots, by the tasks that acquired them, with their entries. -/
  slots : Table TaskId Nat
  /-- The results that are kept, oldest first. -/
  results : Table ExecutionId ExecutionResult
  nextExecution : Nat
  /-- What the calls that have ended came to. -/
  replies : Table TaskId Reply
  deriving DecidableEq, Repr

namespace Services

/-- Services without kernels. -/
def init (config : Config) (catalog : Catalog) : Services :=
  ⟨.empty config, catalog, [], 0, [], [], 0, []⟩

/-- The entry of a slot that a caller has been given. A task in progress keeps its slot to itself. -/
def held? (s : Services) (slot : TaskId) : Option Nat :=
  if (s.tasks.get? slot).isSome then none else s.slots.get? slot

def setTask (s : Services) (t : TaskId) (a : Activity) : Services :=
  { s with tasks := s.tasks.set t a }

def finish (s : Services) (t : TaskId) (r : Reply) : Services :=
  { s with tasks := s.tasks.erase t, replies := s.replies.set t r }

/-- Starts a task for every dead kernel, to tear its worker down. Where no task can be started, a lookup
would tear nothing down; no lookup is made there. -/
def reap (s : Services) (dead : List Nat) : Services :=
  dead.foldl (fun s i =>
    { s with
      tasks := s.tasks.set s.nextTask (.pool .operation (.reap i))
      nextTask := s.nextTask + 1 }) s

/-- Keeps a result, and no more results than the history allows: the oldest go first. -/
def remember (s : Services) (r : ExecutionResult) : Services :=
  let results := s.results.set r.id r
  { s with results := results.drop (results.length - s.pool.config.history) }

/-- Gives up the slot of a task. A busy kernel becomes idle; any other status belongs to someone
else by now. -/
def dropSlot (s : Services) (t : TaskId) : Services :=
  match s.slots.get? t with
  | none => s
  | some i =>
    let pool := s.pool.touch i fun k =>
      if k.status = .busy then { k with status := .idle } else k
    { s with pool := pool.releaseSlot i, slots := s.slots.erase t }

end Services
end NotebookKernels
