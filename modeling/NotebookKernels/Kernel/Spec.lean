import NotebookKernels.Json.Record

/- Kinds of kernels, and requests to create one. -/
namespace NotebookKernels
open Json

/-- How to launch one kind of kernel. -/
structure KernelSpec where
  name : String
  displayName : String
  /-- The language its worker speaks. -/
  language : String
  /-- The worker's command line. -/
  argv : List String
  /-- Variables of the worker's environment, in the order of their names. -/
  env : List (String × String)
  deriving DecidableEq, Repr

/-- A request to create a kernel. -/
structure KernelCreate where
  /-- The kind of kernel. -/
  name : String := "python3"
  notebook : Option String := none
  deriving DecidableEq, Repr

namespace KernelSpec

def python3 : KernelSpec := ⟨"python3", "Python 3", "python", ["gantry-python-worker"], []⟩

/-- The kind of kernel as JSON. -/
def json (s : KernelSpec) : Json :=
  .object [("name", .string s.name), ("display_name", .string s.displayName),
    ("language", .string s.language), ("argv", .array (s.argv.map .string)),
    ("env", .object (s.env.map fun v => (v.1, .string v.2)))]

def strings? (s : Source) : Option (List (String × String)) := do
  match s, ← s.value? with
  | .object _, .object fields => fields.mapM fun f => match f.2 with
    | .string v => some (f.1, v)
    | _ => none
  | _, _ => none

/-- Are the values of all fields strings, repeated ones included? -/
def allStrings : Source → Bool
  | .object fields => fields.all fun f => match f.2 with
    | .string (some _) => true
    | _ => false
  | _ => false

def ofSource? (s : Source) : Option KernelSpec := do
  let r ← s.record? ["name", "display_name", "language", "argv", "env"]
  return ⟨← r.required "name" Source.string?, ← r.required "display_name" Source.string?,
    ← r.required "language" Source.string?, ← r.required "argv" (Source.list? Source.string?),
    ← r.orElse "env" [] fun s => if allStrings s then strings? s else none⟩

end KernelSpec

namespace KernelCreate

/-- The request as JSON. -/
def json (c : KernelCreate) : Json :=
  .object [("name", .string c.name), ("notebook_id", Json.ofOption .string c.notebook)]

def ofSource? (s : Source) : Option KernelCreate := do
  let r ← s.record? ["name", "notebook_id"]
  return ⟨← r.orElse "name" "python3" Source.string?,
    ← r.orElse "notebook_id" none (Record.nullable Source.string?)⟩

end KernelCreate
end NotebookKernels
