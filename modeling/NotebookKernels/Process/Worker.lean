import NotebookKernels.Failure

/- A worker process and the connection to it.

   A worker holds at most one child process, and a connection is attached to its
   channel. Children and connections are numbered in the order in which they were
   made: a child is made together with the connection to it.

   `WorkerProcess.step` is one call of a worker. What the system does about it comes
   with the call: which children run, which connections are still read, and whether
   a child is made; between two calls all that may change. -/
namespace NotebookKernels

/-- A worker. -/
structure WorkerProcess where
  /-- The child. -/
  child : Option Nat := none
  /-- The connection that is attached. -/
  attached : Option Nat := none
  /-- How many children were made. -/
  spawned : Nat := 0
  /-- The connections over which a child was asked to shut down. -/
  asked : List Nat := []
  deriving DecidableEq, Repr

/-- What the system lets see of the children and of their connections. -/
structure ChildView where
  /-- Does the child run? -/
  running : Nat → Bool
  /-- Is what comes over its connection still read? -/
  reading : Nat → Bool
  /-- Has its exit been noticed? Then there is no process of its number any more. -/
  noticed : Nat → Bool

/-- A call of a worker, and what the system does about it. -/
inductive WorkerStep where
  /-- To start; `made` says how it goes to make a child. -/
  | start (view : ChildView) (made : Except Failure Unit)
  /-- To wait until the child is ready; `ended` says how the request for that ends, if it can be made. -/
  | waitReady (ended : Except Failure Unit)
  /-- To interrupt the child; `sent` says how it goes to signal it. -/
  | interrupt (view : ChildView) (sent : Except Failure Unit)
  /-- To restart; `made` says how it goes to make the new child. -/
  | restart (made : Except Failure Unit)
  | shutdown
  /-- To say whether the worker is alive. -/
  | isAlive (view : ChildView)

/-- What a call returns. -/
inductive WorkerReply where
  | done (r : Except Failure Unit)
  | alive (b : Bool)

/-- The failure of a worker that has no child. -/
def Failure.notRunning : Failure := .channel "worker is not running"

/-- The failure of a worker that did not say that it is ready. -/
def Failure.notBecomeReady (f : Failure) : Failure :=
  .start ("worker did not become ready: " ++ f.message)

namespace WorkerProcess

/-- A child is made, if the system makes one. -/
def spawn (w : WorkerProcess) : Except Failure Unit → WorkerProcess × Except Failure Unit
  | .ok () =>
    ({ w with child := some w.spawned, attached := some w.spawned, spawned := w.spawned + 1 },
      .ok ())
  | .error f => (w, .error f)

/-- The connection is detached and the child given up, after it has been asked over that connection to
shut down. -/
def stop (w : WorkerProcess) : WorkerProcess :=
  match w.child with
  | none => { w with attached := none }
  | some _ => { w with child := none, attached := none, asked := w.asked ++ w.attached.toList }

/-- Does the child run, and is its connection still read? -/
def isAlive (w : WorkerProcess) (view : ChildView) : Bool :=
  w.child.any view.running && w.attached.any view.reading

/-- A start: nothing to do if the worker is alive. -/
def start (w : WorkerProcess) (alive : Bool) (made : Except Failure Unit) :
    WorkerProcess × Except Failure Unit :=
  if alive then (w, .ok ()) else w.spawn made

/-- A restart: whether or not a new child is made, the old one is given up. -/
def restart (w : WorkerProcess) (made : Except Failure Unit) :
    WorkerProcess × Except Failure Unit :=
  w.stop.spawn made

/-- The connection to send requests over. -/
def connection (w : WorkerProcess) : Except Failure Nat :=
  match w.attached with
  | none => .error .notRunning
  | some n => .ok n

/-- The child that a signal goes to. -/
def target (w : WorkerProcess) (view : ChildView) : Except Failure Nat :=
  match w.child with
  | none => .error .notRunning
  | some n => if view.noticed n then .error .notRunning else .ok n

/-- What a worker is after a call, and what the call returns. -/
def step (w : WorkerProcess) : WorkerStep → WorkerProcess × WorkerReply
  | .start view made => ((w.start (w.isAlive view) made).1, .done (w.start (w.isAlive view) made).2)
  | .waitReady ended => (w, .done ((w.connection.bind fun _ => ended).mapError .notBecomeReady))
  | .interrupt view sent => (w, .done ((w.target view).bind fun _ => sent))
  | .restart made => ((w.restart made).1, .done (w.restart made).2)
  | .shutdown => (w.stop, .done (.ok ()))
  | .isAlive view => (w, .alive (w.isAlive view))

/-- What a worker is after several calls. -/
def run (w : WorkerProcess) (steps : List WorkerStep) : WorkerProcess :=
  steps.foldl (fun w s => (w.step s).1) w

end WorkerProcess
end NotebookKernels
