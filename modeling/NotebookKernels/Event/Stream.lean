import NotebookKernels.Event.Message

/- The output of one request.

   All requests to a worker share one event queue. The reader of a request skips
   what belongs to others, and ends at the first idle status of its own request or
   at the first failure of the transport, which becomes a last error event. -/
namespace NotebookKernels

/-- What lies in a worker's event queue: a message, or the failure of the transport. -/
inductive Mail where
  | message (m : RawMessage)
  | failure (f : Failure)
  deriving DecidableEq, Repr

/-- What one item of the queue means for the reader of a request. -/
inductive Delivery where
  /-- Nothing. -/
  | skip
  /-- Output. -/
  | output (e : OutputEvent)
  /-- The end of the request. -/
  | ended
  /-- A last error event, and the end. -/
  | broken (e : OutputEvent)
  deriving DecidableEq, Repr

/-- What an item of the queue means for the reader of request `r`. -/
def Mail.deliveryFor (r : RequestId) : Mail → Delivery
  | .failure f => .broken (.ofFailure f)
  | .message m =>
    if m.parent ≠ some r then .skip
    else match m.decode? with
      | some (.event e) => .output e
      | some (.status .idle) => .ended
      | some (.status _) | none => .skip

end NotebookKernels
