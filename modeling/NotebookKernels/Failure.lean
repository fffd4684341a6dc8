import NotebookKernels.Identifier

/- What can go wrong outside the user's own code.

   Errors that the user's code raises are not here: they are output. -/
namespace NotebookKernels

/-- A failure of the library or of a worker. -/
inductive Failure where
  /-- The pool tracks no kernel of this name. -/
  | kernelNotFound (id : KernelId)
  /-- No execution of this name is kept. -/
  | executionNotFound (id : ExecutionId)
  /-- A worker could not be launched or did not become ready. -/
  | start (reason : String)
  /-- The worker cannot be reached. -/
  | channel (reason : String)
  /-- A frame was malformed or too large. -/
  | protocol (reason : String)
  /-- A setting has no usable value. -/
  | configuration (reason : String)
  /-- The system refused an operation. -/
  | io (reason : String)
  /-- A JSON text did not read, for this reason in its reader's own words; `none` stands for a reader
  that has none. -/
  | json (reason : Option String := none)
  deriving DecidableEq, Repr

namespace Failure

/-- The kind of a failed transport, which output events carry. -/
def channelKind : String := "ChannelFailure"

/-- The short name of the kind of failure. -/
def kind : Failure → String
  | .kernelNotFound _ => "KernelNotFound"
  | .executionNotFound _ => "ExecutionNotFound"
  | .start _ => "StartFailure"
  | .channel _ => channelKind
  | .protocol _ | .json _ => "ProtocolError"
  | .configuration _ | .io _ => "InternalError"

def message : Failure → String
  | .kernelNotFound id => "kernel not found: " ++ id.text
  | .executionNotFound id => "execution not found: " ++ id.text
  | .start why => "kernel failed to start: " ++ why
  | .channel why => "channel failure: " ++ why
  | .protocol why => "protocol error: " ++ why
  | .configuration why => "configuration error: " ++ why
  | .io why => "IO error: " ++ why
  | .json none => "JSON error"
  | .json (some why) => "JSON error: " ++ why

/-- The failure as one to start: a start failure stays as it is, any other becomes the reason for
one. -/
def asStart : Failure → Failure
  | .start why => .start why
  | f => .start f.message

end Failure
end NotebookKernels
