import NotebookKernels.Json.Record

/- One variable in a kernel's namespace. -/
namespace NotebookKernels
open Json

/-- A variable as a listing shows it. -/
structure Variable where
  name : String
  typeName : String
  /-- A shape such as `(3, 4)`, or a length; empty when neither applies. -/
  shape : String
  /-- The beginning of its text. -/
  preview : String
  /-- Its size in bytes, roughly. -/
  size : Nat
  deriving DecidableEq, Repr

namespace Variable

/-- The variable as JSON. -/
def json (v : Variable) : Json :=
  .object [("name", .string v.name), ("type", .string v.typeName), ("shape", .string v.shape),
    ("preview", .string v.preview), ("size", .nat v.size)]

def fieldNames : List String := ["name", "type", "shape", "preview", "size"]

/-- Reads a variable; all but its name and type may be left out. -/
def ofSource? (s : Source) : Option Variable := do
  let r ← s.record? fieldNames
  return ⟨← r.required "name" Source.string?, ← r.required "type" Source.string?,
    ← r.orElse "shape" "" Source.string?, ← r.orElse "preview" "" Source.string?,
    ← r.orElse "size" 0 Source.nat?⟩

end Variable
end NotebookKernels
