import NotebookKernels.Identifier
import NotebookKernels.Json.Record

/- Requests to run a submission. -/
namespace NotebookKernels
open Json

/-- A request to run one submission on a kernel. -/
structure ExecuteRequest where
  kernel : KernelId
  code : String
  /-- The notebook cell that the submission came from, if any. -/
  cell : Option String := none
  /-- Leave the execution out of the count. -/
  silent : Bool := false
  /-- Keep the submission in the worker's history. -/
  storeHistory : Bool := true
  deriving DecidableEq, Repr

namespace ExecuteRequest

/-- The request made silent, which also keeps it out of the worker's history. -/
def silenced (r : ExecuteRequest) : ExecuteRequest := { r with silent := true, storeHistory := false }

/-- The request as JSON. -/
def json (r : ExecuteRequest) : Json :=
  .object [("kernel_id", .string r.kernel.text), ("code", .string r.code),
    ("cell_id", Json.ofOption .string r.cell), ("silent", .bool r.silent),
    ("store_history", .bool r.storeHistory)]

def ofSource? (s : Source) : Option ExecuteRequest := do
  let r ← s.record? ["kernel_id", "code", "cell_id", "silent", "store_history"]
  return ⟨⟨← r.required "kernel_id" Source.string?⟩, ← r.required "code" Source.string?,
    ← r.orElse "cell_id" none (Record.nullable Source.string?),
    ← r.orElse "silent" false Source.bool?, ← r.orElse "store_history" true Source.bool?⟩

end ExecuteRequest
end NotebookKernels
