import NotebookKernels.Json.Printer
import NotebookKernels.CommandLine.Conversation

/- How commands show what they have to say on a terminal. -/
namespace NotebookKernels.Style

/-- Ends all styling. -/
def reset : String := "\x1b[0m"
def bold : String := "\x1b[1m"
def dim : String := "\x1b[2m"
def red : String := "\x1b[31m"
def green : String := "\x1b[32m"
def yellow : String := "\x1b[33m"
def cyan : String := "\x1b[36m"

def styled (style text : String) : String := style ++ text ++ reset

def number (n : Nat) : String := String.ofList (Decimal.text n)

/-- A text filled up with blanks to a width in characters. -/
def padded (width : Nat) (text : String) : String :=
  text ++ String.ofList (List.replicate (width - text.toList.length) ' ')

/-- The plain text of rich output: that of its plain form, or the names of its forms. -/
def plainText (data : MimeBundle) : String :=
  match data.lookup "text/plain" with
  | some (.string text) => text
  | some other => String.ofList other.print
  | none => "<" ++ ", ".intercalate (data.map (·.1)) ++ ">"

def errorLine (ename evalue : String) : String := styled red ename ++ ": " ++ evalue ++ "\n"

def showEvent (e : OutputEvent) (rest : Conversation) : Conversation :=
  match e with
  | .stream .stdout text => .print text rest
  | .stream .stderr text => .complain text rest
  | .executeResult data count =>
    let label := match count with
      | some n => "Out[" ++ number n ++ "]: "
      | none => ""
    .print (styled cyan label ++ plainText data ++ "\n") rest
  | .displayData data => .print (plainText data ++ "\n") rest
  | .error ename evalue traceback =>
    .complain (String.join (traceback.map fun line => styled dim line ++ "\n") ++
      errorLine ename evalue) rest

def showEvents (es : List OutputEvent) (rest : Conversation) : Conversation :=
  es.foldr showEvent rest

def variableLine (v : Variable) : String :=
  "  " ++ padded 20 v.name ++ " " ++ styled cyan (padded 15 v.typeName) ++ " " ++
    padded 12 v.shape ++ " " ++ v.preview ++ "\n"

def seconds (millis : Nat) : String :=
  let hundredths := (millis + 5) / 10
  number (hundredths / 100) ++ "." ++ number (hundredths % 100 / 10) ++ number (hundredths % 10) ++
    "s"

end NotebookKernels.Style
