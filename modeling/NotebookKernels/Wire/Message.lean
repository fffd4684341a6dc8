import NotebookKernels.Event.Message

/- What the two ends of a worker's pipes say to each other. -/
namespace NotebookKernels
open Json

/-- A request to a worker. -/
structure WireRequest where
  id : RequestId
  type : String
  content : Json
  deriving DecidableEq, Repr

/-- The channel that a worker's message is published on. -/
inductive WireChannel where
  /-- Replies to requests. -/
  | shell
  /-- Output and status. -/
  | iopub
  deriving DecidableEq, Repr

/-- A message from a worker. -/
structure WireMessage where
  channel : WireChannel
  id : String
  type : String
  /-- The request that caused the message, if any. -/
  parent : Option RequestId
  content : Json
  deriving DecidableEq, Repr

namespace WireRequest

/-- The request as JSON. -/
def json (r : WireRequest) : Json :=
  .object [("msg_id", .string r.id.text), ("msg_type", .string r.type), ("content", r.content)]

/-- Reads a request; the content sits inside one bracket. -/
def ofSource? (s : Source) : Option WireRequest := do
  let r ← s.record? ["msg_id", "msg_type", "content"]
  return ⟨⟨← r.required "msg_id" Source.string?⟩, ← r.required "msg_type" Source.string?,
    ← r.required "content" (Source.valueWithin? (nestingLimit - 1))⟩

end WireRequest

namespace WireChannel

/-- The channel's name. -/
def text : WireChannel → String
  | .shell => "shell"
  | .iopub => "iopub"

def ofText? (s : String) : Option WireChannel :=
  if s = "shell" then some .shell else if s = "iopub" then some .iopub else none

end WireChannel

namespace WireMessage

/-- The message as JSON. -/
def json (m : WireMessage) : Json :=
  .object [("channel", .string m.channel.text), ("msg_id", .string m.id),
    ("msg_type", .string m.type), ("parent_id", Json.ofOption (.string ·.text) m.parent),
    ("content", m.content)]

/-- Reads a message; its own name, its parent and its content may be left out. -/
def ofSource? (s : Source) : Option WireMessage := do
  let r ← s.record? ["channel", "msg_id", "msg_type", "parent_id", "content"]
  return ⟨← r.required "channel" (Source.choice? WireChannel.ofText?),
    ← r.orElse "msg_id" "" Source.string?, ← r.required "msg_type" Source.string?,
    (← r.orElse "parent_id" none (Record.nullable Source.string?)).map RequestId.mk,
    ← r.orElse "content" .null (Source.valueWithin? (nestingLimit - 1))⟩

/-- The message as part of an event stream. -/
def raw (m : WireMessage) : RawMessage := ⟨m.parent, m.type, m.content⟩

end WireMessage
end NotebookKernels
