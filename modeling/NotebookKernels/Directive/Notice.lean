import NotebookKernels.Text.Lines
import NotebookKernels.Json.Record

/- Notices: what a directive tells the user besides, or instead of, code. -/
namespace NotebookKernels
open Json

/-- How serious a notice is. -/
inductive NoticeLevel where
  | info
  | error
  deriving DecidableEq, Repr

/-- One message to the user. -/
structure Notice where
  level : NoticeLevel
  text : Text
  deriving DecidableEq, Repr

/-- The notices of one submission, in source order. -/
abbrev Notices := List Notice

namespace NoticeLevel

/-- The level's name. -/
def text : NoticeLevel → String
  | .info => "info"
  | .error => "error"

def ofText? (s : String) : Option NoticeLevel :=
  if s = "info" then some .info else if s = "error" then some .error else none

end NoticeLevel

/-- The notice as JSON. -/
def Notice.json (n : Notice) : Json :=
  .object [("level", .string n.level.text), ("text", .string (String.ofList n.text))]

def Notice.ofSource? (s : Source) : Option Notice := do
  let r ← s.record? ["level", "text"]
  return ⟨← r.required "level" (Source.choice? NoticeLevel.ofText?),
    (← r.required "text" Source.string?).toList⟩

/-- The line that shows a notice. -/
def Notice.line (n : Notice) : Text :=
  (match n.level with | .error => "Error: ".toList | .info => []) ++ n.text

namespace Notices

def hasErrors (ns : Notices) : Bool := ns.any (·.level = .error)

/-- The notices as JSON. -/
def json (ns : Notices) : Json := .object [("notices", .array (ns.map Notice.json))]

def ofSource? (s : Source) : Option Notices := do
  let r ← s.record? ["notices"]
  r.required "notices" (Source.list? Notice.ofSource?)

/-- All notices as text, each ended by a line feed. -/
def render (ns : Notices) : Text := ns.flatMap fun n => n.line ++ ['\n']

end Notices
end NotebookKernels
