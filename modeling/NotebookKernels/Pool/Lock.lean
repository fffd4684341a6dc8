/- Locks that are granted in the order of the requests.

   A lock is the queue of the tasks that asked for it; the first of them holds it.
   Giving it up hands it to the next one at once, whether or not that task has run
   since. -/
namespace NotebookKernels

/-- Names a task: one call that is in progress or has ended. -/
abbrev TaskId := Nat

/-- The tasks that asked for the lock, oldest request first. -/
structure Lock where
  queue : List TaskId := []
  deriving DecidableEq, Repr

namespace Lock

def holder? (l : Lock) : Option TaskId := l.queue.head?

def isFree (l : Lock) : Bool := l.queue.isEmpty

def heldBy (l : Lock) (t : TaskId) : Bool := l.holder? = some t

def request (l : Lock) (t : TaskId) : Lock := ⟨l.queue ++ [t]⟩

def release (l : Lock) : Lock := ⟨l.queue.tail⟩

end Lock
end NotebookKernels
