import NotebookKernels.Failure
import NotebookKernels.Json.Record

/- Output events: what running code puts out.

   On the wire an event is an object whose field `output_type` names its form.
   `OutputEvent.json` writes it, `OutputEvent.ofSource?` reads it; as for any
   record, an array of the name and the fields in order reads too. -/
namespace NotebookKernels
open Json

/-- Rich output by MIME type, in the order of the types. -/
abbrev MimeBundle := List (String × Json)

/-- The output stream that a text was written to. -/
inductive StreamName where
  | stdout
  | stderr
  deriving DecidableEq, Repr

/-- One piece of output. -/
inductive OutputEvent where
  /-- Text on one of the streams. -/
  | stream (name : StreamName) (text : String)
  /-- The value of the last expression. -/
  | executeResult (data : MimeBundle) (executionCount : Option Nat)
  /-- Rich output published by the code. -/
  | displayData (data : MimeBundle)
  /-- An error raised by the code, or a failed transport. -/
  | error (ename evalue : String) (traceback : List String)
  deriving DecidableEq, Repr

namespace StreamName

/-- The stream's name. -/
def text : StreamName → String
  | .stdout => "stdout"
  | .stderr => "stderr"

def ofText? (s : String) : Option StreamName :=
  if s = "stdout" then some .stdout else if s = "stderr" then some .stderr else none

end StreamName

namespace OutputEvent

def stdout (text : String) : OutputEvent := .stream .stdout text

/-- The event that ends the output of a failed transport. -/
def ofFailure (f : Failure) : OutputEvent := .error f.kind f.message []

def isError : OutputEvent → Bool
  | .error .. => true
  | _ => false

def isChannelFailure : OutputEvent → Bool
  | .error ename _ _ => ename = Failure.channelKind
  | _ => false

def stdoutText? : OutputEvent → Option String
  | .stream .stdout text => some text
  | _ => none

/-- The name of the event's form. -/
def tag : OutputEvent → String
  | .stream .. => "stream"
  | .executeResult .. => "execute_result"
  | .displayData .. => "display_data"
  | .error .. => "error"

/-- The fields besides the name of the form, in the order of declaration. -/
def fields : OutputEvent → List (String × Json)
  | .stream name text => [("name", .string name.text), ("text", .string text)]
  | .executeResult data count =>
    [("data", .object data), ("execution_count", Json.ofOption Json.nat count)]
  | .displayData data => [("data", .object data)]
  | .error ename evalue traceback =>
    [("ename", .string ename), ("evalue", .string evalue),
      ("traceback", .array (traceback.map .string))]

/-- The name of the field that names the form. -/
def tagField : String := "output_type"

/-- The event as JSON. -/
def json (e : OutputEvent) : Json := .object ((tagField, .string e.tag) :: e.fields)

/-- The names of a form's fields, in the order of declaration. -/
def fieldNames (tag : String) : List String :=
  if tag = "stream" then ["name", "text"]
  else if tag = "execute_result" then ["data", "execution_count"]
  else if tag = "display_data" then ["data"]
  else if tag = "error" then ["ename", "evalue", "traceback"]
  else []

def bundle? (s : Source) : Option MimeBundle :=
  match s.value? with
  | some (.object fields) => some fields
  | _ => none

def ofRecord? (tag : String) (r : Record) : Option OutputEvent :=
  if tag = "stream" then do
    return .stream (← r.required "name" (Source.choiceWithin? StreamName.ofText?))
      (← r.required "text" Source.string?)
  else if tag = "execute_result" then do
    return .executeResult (← r.required "data" bundle?) (← r.optional "execution_count" Source.nat?)
  else if tag = "display_data" then do
    return .displayData (← r.required "data" bundle?)
  else if tag = "error" then do
    return .error (← r.required "ename" Source.string?) (← r.required "evalue" Source.string?)
      (← r.orElse "traceback" [] (Source.list? Source.string?))
  else none

/-- The name of the form, if exactly one field gives it as a string. -/
def tag? (fields : List (Option String × Source)) : Option String :=
  match fields.filter (·.1 = some tagField) with
  | [(_, .string s)] => s
  | _ => none

/-- Reads an event. Every string and number in it must have a value, also in fields that are not
declared. -/
def ofSource? (s : Source) : Option OutputEvent :=
  if s.value?.isNone then none
  else match s with
    | .object fields => do
      let tag ← tag? fields
      ofRecord? tag (← (Source.object (fields.filter (·.1 ≠ some tagField))).record? (fieldNames tag))
    | .array (.string (some tag) :: items) => do
      ofRecord? tag (← (Source.array items).record? (fieldNames tag))
    | _ => none

/-- Reads an event that is the whole text. -/
def read? (s : Source) : Option OutputEvent :=
  if s.depth ≤ nestingLimit then ofSource? s else none

end OutputEvent
end NotebookKernels
