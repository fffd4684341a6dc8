import NotebookKernels.Service.Step

/- What a command says, and what it asks of the services, in order.

   A conversation is a tree: each question is followed by one way to go on for
   every reply. Who answers is left open. -/
namespace NotebookKernels

/-- Why a command failed. -/
structure Report where
  message : String
  /-- What caused it, outermost first. -/
  causes : List String := []
  deriving DecidableEq, Repr

/-- A conversation. -/
inductive Conversation where
  /-- It ends well, or not. -/
  | done (outcome : Except Report Unit)
  /-- Something is printed on the standard output. -/
  | print (text : String) (rest : Conversation)
  /-- Something is printed on the standard error. -/
  | complain (text : String) (rest : Conversation)
  /-- A kernel is to be created. -/
  | create (request : KernelCreate) (rest : Reply → Conversation)
  /-- The services are called. -/
  | ask (c : Call) (rest : Reply → Conversation)
  /-- How long has it lasted, in milliseconds? -/
  | elapsed (rest : Nat → Conversation)

namespace Report

def ofFailure (f : Failure) : Report := ⟨f.message, []⟩

/-- A text with a margin before each of its lines. -/
def indented (margin : Text) (t : Text) : Text :=
  Text.unlines ((Text.lines t).map fun l => if l.isEmpty then [] else margin ++ l)

/-- The causes, each on lines of its own, numbered if there are several. -/
def causeLines (causes : List String) : List Text :=
  match causes with
  | [c] => [indented "    ".toList c.toList]
  | _ => causes.zipIdx.map fun (c, n) =>
    let number := Decimal.text n
    let lead := List.replicate (5 - number.length) ' ' ++ number ++ ": ".toList
    lead ++ (indented "       ".toList c.toList).drop 7

/-- The report as the user sees it. -/
def text (r : Report) : String :=
  "Error: " ++ r.message ++ "\n" ++
    (if r.causes.isEmpty then ""
      else String.ofList (Text.unlines ("\nCaused by:".toList :: causeLines r.causes)) ++ "\n")

end Report

namespace Reply

def failure? : Reply → Option Failure
  | .pool (.failed f) => some f
  | _ => none

end Reply
end NotebookKernels
