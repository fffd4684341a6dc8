import NotebookKernels.Event.Output

/- Messages of a worker's event stream.

   A message is output or a change of the worker's state when its type says so
   and its content has the right shape; all other messages mean nothing here. -/
namespace NotebookKernels
open Json

/-- A message as it arrives. -/
structure RawMessage where
  /-- The request that the message belongs to, if any. -/
  parent : Option RequestId
  type : String
  content : Json
  deriving DecidableEq, Repr

/-- What a worker says it is doing. -/
inductive KernelState where
  | starting
  | busy
  | idle
  deriving DecidableEq, Repr

/-- A message that means something. -/
inductive KernelMessage where
  | event (e : OutputEvent)
  | status (s : KernelState)
  deriving DecidableEq, Repr

namespace KernelState

/-- The state's name. -/
def text : KernelState → String
  | .starting => "starting"
  | .busy => "busy"
  | .idle => "idle"

def ofText? (s : String) : Option KernelState :=
  if s = "starting" then some .starting
  else if s = "busy" then some .busy
  else if s = "idle" then some .idle
  else none

def ofContent? (content : Json) : Option KernelState := do
  let r ← (Source.ofValue content).record? ["execution_state"]
  r.required "execution_state" (Source.choice? ofText?)

end KernelState

namespace RawMessage

def outputTypes : List String := ["stream", "execute_result", "display_data", "error"]

/-- What the message means. The message's type decides the form of its output, whatever the content
says about it. -/
def decode? (m : RawMessage) : Option KernelMessage :=
  if outputTypes.contains m.type then
    match m.content with
    | .object fields =>
      let tagged := Json.object ((OutputEvent.tagField, .string m.type) ::
        fields.filter (·.1 ≠ OutputEvent.tagField))
      (OutputEvent.ofSource? (Source.ofValue tagged)).map .event
    | _ => none
  else if m.type = "status" then (KernelState.ofContent? m.content).map .status
  else none

end RawMessage
end NotebookKernels
