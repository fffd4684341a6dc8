import NotebookKernels.CommandLine.Arguments
import NotebookKernels.CommandLine.Style

/- Asking a kernel about code. -/
namespace NotebookKernels.Question

/-- The query for a question about code at a position. -/
def request (code : String) (cursor : Nat) : Question → ShellRequest
  | .complete => .complete code cursor
  | .inspect => .inspect code cursor

/-- Shuts all kernels down, and then prints the reply. -/
def leave (reply : Reply) : Conversation :=
  .ask (.pool .shutdownAll) fun _ => match reply, reply.failure? with
    | _, some f => .done (.error (.ofFailure f))
    | .value v, none => .print (String.ofList (v.printIndented 0) ++ "\n") (.done (.ok ()))
    | _, none => .done (.ok ())

def conversation (q : Question) (kernel code : String) (cursor : Nat) : Conversation :=
  .create { name := kernel } fun reply => match reply with
    | .pool (.kernel k) => .ask (.pool (.channel k.id)) fun reply => match reply with
      | .pool (.channel i) => .ask (.query i (q.request code cursor)) leave
      | reply => leave reply
    | reply => leave reply

end NotebookKernels.Question
