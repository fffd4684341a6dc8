import NotebookKernels.Json.Value

/- Short queries that a worker answers with one reply. -/
namespace NotebookKernels

/-- A query. -/
inductive ShellRequest where
  /-- Is the worker ready? -/
  | kernelInfo
  /-- What could the code go on with at the cursor? -/
  | complete (code : String) (cursor : Nat)
  /-- What is the object at the cursor? -/
  | inspect (code : String) (cursor : Nat)
  deriving DecidableEq, Repr

namespace ShellRequest

/-- The type of the request on the wire. -/
def type : ShellRequest → String
  | .kernelInfo => "kernel_info_request"
  | .complete .. => "complete_request"
  | .inspect .. => "inspect_request"

def content : ShellRequest → Json
  | .kernelInfo => .object []
  | .complete code cursor => .object [("code", .string code), ("cursor_pos", .nat cursor)]
  | .inspect code cursor =>
    .object [("code", .string code), ("cursor_pos", .nat cursor), ("detail_level", .nat 0)]

end ShellRequest
end NotebookKernels
