import NotebookKernels.Failure
import NotebookKernels.Span
import NotebookKernels.Text.Blank

/- Settings of the pool and of executions.

   `Config.ofVariables` reads them from named variables over the defaults. -/
namespace NotebookKernels

/-- The settings. -/
structure Config where
  /-- How many kernels may be tracked at once. -/
  maxKernels : Nat := 10
  /-- How long a worker may take to become ready. -/
  kernelTimeout : Span := .ofSeconds 60
  /-- How long a short query may take. -/
  queryTimeout : Span := .ofSeconds 5
  /-- How long one wait for an event lasts. -/
  pollTimeout : Span := .ofSeconds 1
  /-- The pause after a wait that brought nothing. -/
  pollBackoff : Span := .ofMillis 10
  /-- Where worker processes run; nothing for the default place. -/
  workingDir : Option String := none
  /-- How many results are kept. -/
  executionHistory : Nat := 1000
  deriving DecidableEq, Repr

namespace Config

/-- The directory that worker processes run in by default. -/
def defaultWorkingDir : String := "/tmp/gantry"

def directory (c : Config) : String := c.workingDir.getD defaultWorkingDir

/-- The kernels that fit the pool: at least one, whatever the setting. -/
def capacity (c : Config) : Nat := max c.maxKernels 1

/-- The results that are kept: at least one, whatever the setting. -/
def history (c : Config) : Nat := max c.executionHistory 1

/-- A 64-bit natural number, with blanks around it and perhaps a plus sign. -/
def number? (value : String) : Option Nat := Decimal.word? (Text.trim value.toList)

/-- The failure of a variable whose value is no number. -/
def invalidValue (key value : String) : Failure :=
  .configuration (key ++ " has invalid value '" ++ value ++ "'")

/-- A numeric setting: the variable's value, or the default where it is not set. -/
def numberOr (lookup : String → Option String) (key : String) (default : Nat) :
    Except Failure Nat :=
  match lookup key with
  | none => .ok default
  | some value => match number? value with
    | some n => .ok n
    | none => .error (invalidValue key value)

def secondsOr (lookup : String → Option String) (key : String) (default : Span) :
    Except Failure Span :=
  match lookup key with
  | none => .ok default
  | some value => match number? value with
    | some n => .ok (.ofSeconds n)
    | none => .error (invalidValue key value)

def validate (c : Config) : Except Failure Unit :=
  if c.maxKernels = 0 then
    .error (.configuration "max_kernels (GANTRY_MAX_KERNELS) must be at least 1")
  else if c.executionHistory = 0 then
    .error (.configuration "execution_history (GANTRY_EXECUTION_HISTORY) must be at least 1")
  else .ok ()

/-- The settings that the variables give, over the defaults. -/
def ofVariables (lookup : String → Option String) : Except Failure Config := do
  let base : Config := { }
  let maxKernels ← numberOr lookup "GANTRY_MAX_KERNELS" base.maxKernels
  let kernelTimeout ← secondsOr lookup "GANTRY_KERNEL_TIMEOUT" base.kernelTimeout
  let queryTimeout ← secondsOr lookup "GANTRY_QUERY_TIMEOUT" base.queryTimeout
  let executionHistory ← numberOr lookup "GANTRY_EXECUTION_HISTORY" base.executionHistory
  let config := { base with
    maxKernels, kernelTimeout, queryTimeout, executionHistory,
    workingDir := lookup "GANTRY_KERNEL_WORKING_DIR" }
  config.validate
  return config

end Config
end NotebookKernels
