import NotebookKernels.Event.Output

/- Results of executions.

   A result starts out running, takes in output, and is finished once; it is an
   error exactly when it holds an error. -/
namespace NotebookKernels
open Json

/-- How far an execution has come. -/
inductive ExecutionStatus where
  | running
  | success
  | error
  deriving DecidableEq, Repr

/-- The error of a failed execution: one that the code raised, or a failure of the library. -/
structure ExecutionError where
  ename : String
  evalue : String
  traceback : List String
  deriving DecidableEq, Repr

/-- The outcome of one execution. Times are in milliseconds. -/
structure ExecutionResult where
  id : ExecutionId
  kernel : KernelId
  status : ExecutionStatus
  cell : Option String
  /-- The output in the order of arrival. -/
  outputs : List OutputEvent
  /-- The first error raised, if the execution failed. -/
  error : Option ExecutionError
  startedAt : Nat
  completedAt : Option Nat
  duration : Option Nat
  /-- The kernel's count after the execution. -/
  executionCount : Option Nat
  deriving DecidableEq, Repr

namespace ExecutionStatus

/-- The status's name. -/
def text : ExecutionStatus → String
  | .running => "running"
  | .success => "success"
  | .error => "error"

def ofText? (s : String) : Option ExecutionStatus :=
  if s = "running" then some .running
  else if s = "success" then some .success
  else if s = "error" then some .error
  else none

end ExecutionStatus

namespace ExecutionError

def ofFailure (f : Failure) : ExecutionError := ⟨f.kind, f.message, []⟩

/-- The error that an event reports, if it reports one. -/
def ofEvent? : OutputEvent → Option ExecutionError
  | .error ename evalue traceback => some ⟨ename, evalue, traceback⟩
  | _ => none

/-- The fields, in the order of declaration. -/
def fields (e : ExecutionError) : List (String × Json) :=
  [("ename", .string e.ename), ("evalue", .string e.evalue),
    ("traceback", .array (e.traceback.map .string))]

/-- The error as JSON. -/
def json (e : ExecutionError) : Json := .object e.fields

def fieldNames : List String := ["ename", "evalue", "traceback"]

def ofSource? (s : Source) : Option ExecutionError := do
  let r ← s.record? fieldNames
  return ⟨← r.required "ename" Source.string?, ← r.required "evalue" Source.string?,
    ← r.orElse "traceback" [] (Source.list? Source.string?)⟩

end ExecutionError

namespace ExecutionResult

/-- The result of an execution that starts at this time. -/
def start (id : ExecutionId) (kernel : KernelId) (cell : Option String) (now : Nat) :
    ExecutionResult :=
  ⟨id, kernel, .running, cell, [], none, now, none, none, none⟩

/-- Takes in one output event. The first error stays the result's error. -/
def push (r : ExecutionResult) (e : OutputEvent) : ExecutionResult :=
  { r with outputs := r.outputs ++ [e], error := r.error <|> ExecutionError.ofEvent? e }

/-- Marks the end: the status follows from the error. -/
def finish (r : ExecutionResult) (now : Nat) : ExecutionResult :=
  { r with
    status := if r.error.isSome then .error else .success
    completedAt := some now
    duration := some (now - r.startedAt) }

/-- Ends with a failure of the library, which replaces an error raised before. -/
def fail (r : ExecutionResult) (f : Failure) (now : Nat) : ExecutionResult :=
  { r with error := some (.ofFailure f) }.finish now

def isFinished (r : ExecutionResult) : Bool := r.status ≠ .running

def stdout (r : ExecutionResult) : String :=
  String.join (r.outputs.filterMap OutputEvent.stdoutText?)

/-- The fields, in the order of declaration. -/
def fields (r : ExecutionResult) : List (String × Json) :=
  [("execution_id", .string r.id.text), ("kernel_id", .string r.kernel.text),
    ("status", .string r.status.text), ("cell_id", Json.ofOption .string r.cell),
    ("outputs", .array (r.outputs.map OutputEvent.json)),
    ("error", Json.ofOption ExecutionError.json r.error), ("started_at", .nat r.startedAt),
    ("completed_at", Json.ofOption .nat r.completedAt),
    ("duration_ms", Json.ofOption .nat r.duration),
    ("execution_count", Json.ofOption .nat r.executionCount)]

/-- The result as JSON. -/
def json (r : ExecutionResult) : Json := .object r.fields

def fieldNames : List String :=
  ["execution_id", "kernel_id", "status", "cell_id", "outputs", "error", "started_at",
    "completed_at", "duration_ms", "execution_count"]

/-- Reads an output event inside a result: two brackets are open around it. -/
def output? (s : Source) : Option OutputEvent :=
  if s.depth + 2 ≤ nestingLimit then OutputEvent.ofSource? s else none

def ofSource? (s : Source) : Option ExecutionResult := do
  let r ← s.record? fieldNames
  return ⟨⟨← r.required "execution_id" Source.string?⟩,
    ⟨← r.required "kernel_id" Source.string?⟩,
    ← r.required "status" (Source.choice? ExecutionStatus.ofText?),
    ← r.orElse "cell_id" none (Record.nullable Source.string?),
    ← r.required "outputs" (Source.list? output?),
    ← r.optional "error" ExecutionError.ofSource?,
    ← r.required "started_at" Source.nat?, ← r.optional "completed_at" Source.nat?,
    ← r.optional "duration_ms" Source.nat?, ← r.optional "execution_count" Source.nat?⟩

end ExecutionResult
end NotebookKernels
