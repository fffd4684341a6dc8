import NotebookKernels.Wire.Frame
import NotebookKernels.Span
import NotebookKernels.Table

/- The connection to one worker process.

   Requests go to the process, frames come back. A request enters the reply table and
   is sent. The reader takes the request that a reply names out of the table, if it is
   there, and hands the reply to it; a request that could not be sent, or whose time
   has run out, takes itself out. Events are queued for whoever takes them next. The
   reader stops at the end of the stream or at the first bad frame, and then it empties
   the table, and the requests in it learn that no reply comes. A request that comes
   later is not told so: it waits until its time has run out.

   The requests, the reader and the takers of events run side by side, and
   `Connection.step` is one step of one of them. A step that its party cannot take
   leaves the connection as it is, and the reader ends what it is doing before it
   begins something else. So every list of steps is a run, in any order. -/
namespace NotebookKernels
open Text (Bytes)

/-- How a request ends. -/
inductive RequestEnd where
  /-- With a reply. -/
  | reply (content : Json)
  /-- The reader stopped. -/
  | exited
  /-- Its time ran out. -/
  | elapsed
  /-- It could not be sent. -/
  | unsent (f : Failure)
  deriving DecidableEq

/-- How far a request is. -/
inductive RequestPhase where
  /-- Its frame is on the way to the worker. -/
  | sending
  /-- It waits for its reply. -/
  | waiting
  /-- Its time has run out, and it is about to leave the reply table. -/
  | late
  deriving DecidableEq

/-- What lies where a request looks for its reply. -/
inductive ReplyPlace where
  | empty
  | filled (content : Json)
  /-- Nothing, and nobody can put a reply there any more. -/
  | closed
  deriving DecidableEq

/-- A request in progress. -/
structure OpenRequest where
  phase : RequestPhase := .sending
  place : ReplyPlace := .empty
  deriving DecidableEq

/-- What a request does next. -/
inductive RequestStep where
  /-- It has been sent. -/
  | sent
  /-- It could not be sent. -/
  | unsent (f : Failure)
  /-- It looks for its reply. -/
  | look
  /-- Its time has run out, and there is no reply. -/
  | elapse
  /-- It leaves the reply table, because its time has run out. -/
  | leave
  deriving DecidableEq

/-- What a step of a request comes to. -/
inductive RequestMove where
  | goOn (q : OpenRequest)
  | finish (e : RequestEnd)
  deriving DecidableEq

/-- A connection. -/
structure Connection where
  /-- The reply table: the requests to which replies are handed on. -/
  table : List RequestId := []
  /-- The requests in progress. -/
  requests : Table RequestId OpenRequest := []
  /-- The reply that the reader is about to hand on. Its request has left the reply table. -/
  hand : Option (RequestId × Json) := none
  /-- The events that nobody has taken yet, oldest first. -/
  events : List WireMessage := []
  /-- Has the reader stopped? -/
  stopped : Bool := false
  /-- The requests that have ended, in the order of their ends. -/
  ended : List (RequestId × RequestEnd) := []
  deriving DecidableEq

/-- What happens on a connection. -/
inductive ConnectionStep where
  /-- A request is made. -/
  | register (r : RequestId)
  /-- A request goes on. -/
  | act (r : RequestId) (a : RequestStep)
  /-- A frame arrives. -/
  | arrive (m : WireMessage)
  /-- The reader hands on the reply that it has. -/
  | handOver
  /-- Somebody takes the oldest event. -/
  | take
  /-- The reader stops. -/
  | stop
  deriving DecidableEq

namespace RequestEnd

/-- Does the request take itself out of the reply table as it ends? -/
def leavesTable : RequestEnd → Bool
  | .elapsed | .unsent _ => true
  | .reply _ | .exited => false

/-- What the end of a request means to its caller, who allowed it this much time. -/
def outcome (type : String) (limit : Span) : RequestEnd → Except Failure Json
  | .reply content => .ok content
  | .exited => .error (.channel ("worker exited before answering " ++ type))
  | .elapsed => .error (.channel ("no reply to " ++ type ++ " within " ++ limit.text))
  | .unsent f => .error f

end RequestEnd

namespace OpenRequest

/-- A step of the request; it goes on as it is if it cannot take this one. A reply that is there when
the time runs out counts. -/
def step (q : OpenRequest) : RequestStep → RequestMove
  | .sent => .goOn (if q.phase = .sending then { q with phase := .waiting } else q)
  | .unsent f => if q.phase = .sending then .finish (.unsent f) else .goOn q
  | .look => match q.phase, q.place with
    | .waiting, .filled content => .finish (.reply content)
    | .waiting, .closed => .finish .exited
    | _, _ => .goOn q
  | .elapse =>
    .goOn (if q.phase = .waiting ∧ q.place = .empty then { q with phase := .late } else q)
  | .leave => if q.phase = .late then .finish .elapsed else .goOn q

end OpenRequest

namespace Connection

def forget (c : Connection) (r : RequestId) : Connection :=
  { c with table := c.table.filter (· ≠ r) }

/-- Puts something where a request looks for its reply. -/
def put (requests : Table RequestId OpenRequest) (r : RequestId) (p : ReplyPlace) :
    Table RequestId OpenRequest :=
  match requests.get? r with
  | some q => requests.set r { q with place := p }
  | none => requests

/-- A request goes on as its step says. -/
def act (c : Connection) (r : RequestId) (a : RequestStep) : Connection :=
  match (c.requests.get? r).map (OpenRequest.step · a) with
  | some (.goOn q) => { c with requests := c.requests.set r q }
  | some (.finish e) =>
    let c := if e.leavesTable then c.forget r else c
    { c with requests := c.requests.erase r, ended := c.ended ++ [(r, e)] }
  | none => c

def handOver (c : Connection) : Connection :=
  match c.hand with
  | some (r, content) =>
    { c with hand := none, requests := put c.requests r (.filled content) }
  | none => c

/-- A frame arrives while the reader runs and has nothing in hand. -/
def arrive (c : Connection) (m : WireMessage) : Connection :=
  match m.channel, m.parent with
  | .iopub, _ => { c with events := c.events ++ [m] }
  | .shell, some r =>
    if r ∈ c.table then { c.forget r with hand := some (r, m.content) } else c
  | .shell, none => c

/-- The reader stops with nothing in hand. -/
def stop (c : Connection) : Connection :=
  { c with
    requests := c.table.foldl (put · · .closed) c.requests
    table := []
    stopped := true }

/-- What the connection is after a step. -/
def step (c : Connection) : ConnectionStep → Connection
  | .register r => { c with table := c.table ++ [r], requests := c.requests.set r { } }
  | .act r a => c.act r a
  | .arrive m => if c.stopped then c else c.handOver.arrive m
  | .handOver => if c.stopped then c else c.handOver
  | .take => { c with events := c.events.tail }
  | .stop => if c.stopped then c else c.handOver.stop

/-- What the connection is after several steps. -/
def run (c : Connection) (steps : List ConnectionStep) : Connection := steps.foldl step c

/-- A step, and what follows if the requests notice it at once. -/
def prompt (c : Connection) : ConnectionStep → List ConnectionStep
  | .arrive m => .arrive m :: .handOver :: m.parent.toList.map (.act · .look)
  | .act r .elapse => [.act r .elapse, .act r .leave]
  | .stop => .stop :: c.requests.keys.map (.act · .look)
  | s => [s]

/-- What the connection is after several steps that the requests notice at once. -/
def runPromptly (c : Connection) (steps : List ConnectionStep) : Connection :=
  steps.foldl (fun c s => c.run (c.prompt s)) c

/-- The steps that bytes from the process cause, after those that were left over; and what is left
over now. -/
def readSteps (left : Bytes) (bytes : Bytes) : List ConnectionStep × Bytes :=
  match Frame.readWhole WireMessage.ofSource? (left ++ bytes) with
  | (ms, some rest) => (ms.map .arrive, rest)
  | (ms, none) => (ms.map .arrive ++ [.stop], [])

end Connection
end NotebookKernels
