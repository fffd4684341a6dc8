import NotebookKernels.Decimal.Digits

/- Identifiers of kernels, executions and requests.

   Each is an opaque text. The three types keep them from being mixed up. Fresh
   identifiers are numbered and written in the shape of a random 128-bit
   identifier: 36 characters, the kind in the fourth group and the number in the
   last. -/
namespace NotebookKernels

/-- The text of the `n`-th fresh identifier of the kind that `group` stands for. -/
def serialText (group : String) (n : Nat) : String :=
  "00000000-0000-4000-" ++ group ++ "-" ++ String.ofList (Decimal.hex 12 n)

/-- Names a kernel of the pool. -/
structure KernelId where
  text : String
  deriving DecidableEq, Repr

/-- Names one execution. -/
structure ExecutionId where
  text : String
  deriving DecidableEq, Repr

/-- Names one request to a worker; what the worker sends back for it carries the same name. -/
structure RequestId where
  text : String
  deriving DecidableEq, Repr

/-- The `n`-th fresh kernel identifier. -/
def KernelId.fresh (n : Nat) : KernelId := ⟨serialText "8000" n⟩

/-- The `n`-th fresh execution identifier. -/
def ExecutionId.fresh (n : Nat) : ExecutionId := ⟨serialText "9000" n⟩

/-- The `n`-th fresh request identifier. -/
def RequestId.fresh (n : Nat) : RequestId := ⟨serialText "a000" n⟩

end NotebookKernels
