import NotebookKernels.Script.Cell
import NotebookKernels.CommandLine.Style

/- Running a script: its cells in order, on one kernel.

   The first cell that fails is the last one, unless the run is to keep going. The
   kernel is shut down at the end, whatever happened before. -/
namespace NotebookKernels

/-- How a script is to be run. -/
structure RunOptions where
  kernel : String
  /-- Do the cells after one that fails run too? -/
  keepGoing : Bool
  /-- Are the variables listed at the end? -/
  vars : Bool

namespace RunOptions
open Style

/-- Shuts all kernels down, and ends. -/
def leave (outcome : Except Report Unit) : Conversation :=
  .ask (.pool .shutdownAll) fun _ => .done outcome

def heading (place total : Nat) (cell : Cell) : String :=
  "\n" ++ styled dim ("[" ++ number place ++ "/" ++ number total ++ "]") ++ " " ++
    styled bold (String.ofList cell.title) ++ "\n"

/-- Says why an execution failed, if no output says so. -/
def explain (r : ExecutionResult) (rest : Conversation) : Conversation :=
  match r.error with
  | some e =>
    if r.outputs.any OutputEvent.isError then rest
    else .complain (errorLine e.ename e.evalue) rest
  | none => rest

def request (id : KernelId) (cell : Cell) : ExecuteRequest :=
  { kernel := id, code := String.ofList cell.source, cell := some (String.ofList cell.title) }

/-- Runs the cells from the place `place` on, of which `failed` have failed before; goes on with the
number of those that have failed then. -/
def cells (o : RunOptions) (id : KernelId) (total : Nat) (rest : Nat → Conversation) :
    Nat → Nat → List Cell → Conversation
  | _, failed, [] => rest failed
  | place, failed, cell :: more =>
    .print (heading place total cell) <| .ask (.execute (request id cell) (.open [])) fun reply =>
      match reply with
      | .result r (.open received) =>
        showEvents received <|
          if r.status = .error then
            explain r <|
              if o.keepGoing then o.cells id total rest (place + 1) (failed + 1) more
              else rest (failed + 1)
          else o.cells id total rest (place + 1) failed more
      | _ => rest failed

def showVariables (o : RunOptions) (id : KernelId) (rest : Conversation) : Conversation :=
  if o.vars then
    .ask (.introspect id) fun reply => match reply with
      | .listing vs =>
        .print ("\n" ++ styled bold "Variables:" ++ "\n") <|
          if vs.isEmpty then .print (styled dim "  (none)" ++ "\n") rest
          else vs.foldr (fun v rest => .print (variableLine v) rest) rest
      | reply => match reply.failure? with
        | some f => leave (.error (.ofFailure f))
        | none => rest
  else rest

/-- Says how the run of `total` cells ended. -/
def conclude (total failed : Nat) : Conversation :=
  .print ("\n" ++ String.ofList (List.replicate 50 '─') ++ "\n") <| .elapsed fun millis =>
    if failed = 0 then
      .print (styled green "Completed" ++ " " ++ number total ++ " cells in " ++ seconds millis ++
        "\n") (leave (.ok ()))
    else
      .print (styled red "Failed" ++ " after " ++ seconds millis ++ "\n")
        (leave (.error ⟨number failed ++ " cell(s) failed", []⟩))

def conversation (o : RunOptions) (script : List Cell) : Conversation :=
  .print (styled cyan "Starting" ++ " " ++ o.kernel ++ " kernel...\n") <|
    .create { name := o.kernel } fun reply => match reply with
      | .pool (.kernel k) =>
        o.cells k.id script.length (fun failed =>
          o.showVariables k.id (conclude script.length failed)) 1 0 script
      | reply => leave (match reply.failure? with
        | some f => .error (.ofFailure f)
        | none => .ok ())

end RunOptions
end NotebookKernels
