import NotebookKernels.Identifier
import NotebookKernels.Json.Record

/- Kernels as the pool's callers see them. -/
namespace NotebookKernels
open Json

/-- What a kernel is doing. -/
inductive KernelStatus where
  /-- Its worker has been launched and is not ready yet. -/
  | starting
  /-- It waits for work. -/
  | idle
  /-- It runs a submission. -/
  | busy
  /-- Its worker is being replaced. -/
  | restarting
  deriving DecidableEq, Repr

/-- A kernel's record. Times are in milliseconds. -/
structure Kernel where
  id : KernelId
  /-- The name of the kind of kernel. -/
  name : String
  status : KernelStatus
  notebook : Option String
  /-- How many executions were counted since the start or the last restart. -/
  executionCount : Nat
  createdAt : Nat
  lastActivity : Nat
  deriving DecidableEq, Repr

namespace KernelStatus

/-- The status's name. -/
def text : KernelStatus → String
  | .starting => "starting"
  | .idle => "idle"
  | .busy => "busy"
  | .restarting => "restarting"

def ofText? (s : String) : Option KernelStatus :=
  if s = "starting" then some .starting
  else if s = "idle" then some .idle
  else if s = "busy" then some .busy
  else if s = "restarting" then some .restarting
  else none

/-- Is the kernel's worker being brought up or replaced? -/
def inTransition : KernelStatus → Bool
  | .starting | .restarting => true
  | .idle | .busy => false

end KernelStatus

namespace Kernel

/-- The record as JSON. -/
def json (k : Kernel) : Json :=
  .object [("id", .string k.id.text), ("name", .string k.name), ("status", .string k.status.text),
    ("notebook_id", Json.ofOption .string k.notebook), ("execution_count", .nat k.executionCount),
    ("created_at", .nat k.createdAt), ("last_activity", .nat k.lastActivity)]

def ofSource? (s : Source) : Option Kernel := do
  let r ← s.record? ["id", "name", "status", "notebook_id", "execution_count", "created_at",
    "last_activity"]
  return ⟨⟨← r.required "id" Source.string?⟩, ← r.required "name" Source.string?,
    ← r.required "status" (Source.choice? KernelStatus.ofText?),
    ← r.optional "notebook_id" Source.string?, ← r.required "execution_count" Source.nat?,
    ← r.required "created_at" Source.nat?, ← r.required "last_activity" Source.nat?⟩

end Kernel
end NotebookKernels
