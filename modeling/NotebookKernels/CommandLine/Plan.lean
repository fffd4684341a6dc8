import NotebookKernels.CommandLine.Ask
import NotebookKernels.CommandLine.Run
import NotebookKernels.Process.Files

/- What a command comes to in its surroundings.

   Some commands only print; the others hold a conversation with the services. -/
namespace NotebookKernels

/-- What a command finds around it. -/
structure Surroundings where
  /-- Reads a text file. -/
  read : String → Except SystemError Text
  stdin : Text
  /-- The value of a variable of the environment. -/
  lookup : String → Option String

/-- What a command comes to. -/
inductive Plan where
  /-- It prints something, and ends. -/
  | say (stdout stderr : String) (outcome : Except Report Unit)
  /-- It talks to services with these settings. -/
  | talk (config : Config) (c : Conversation)

namespace Plan
open Style

def unreadable (path : String) (e : SystemError) : Report := ⟨"Failed to read " ++ path, [e.text]⟩

/-- Talks to services with the settings of the environment. -/
def withServices (s : Surroundings) (c : Conversation) : Plan :=
  match Config.ofVariables s.lookup with
  | .ok config => .talk config c
  | .error f => .say "" "" (.error (.ofFailure f))

/-- The line on the standard error that shows a notice. -/
def noticeLine (n : Notice) : String :=
  (match n.level with
    | .info => styled cyan "Info:"
    | .error => styled red "Error:") ++ " " ++ String.ofList n.text ++ "\n"

/-- Shows how the directives of a text are expanded. -/
def preprocess (t : Text) : Plan :=
  let s := Submission.process t
  .say (String.ofList s.code ++ "\n") (String.join (s.notices.map noticeLine)) (.ok ())

/-- Lists the directives. -/
def list : Plan :=
  let line (mark name : String) := "  " ++ mark ++ name ++ "\n"
  .say (styled bold "Line directives:" ++ "\n" ++
    String.join (LineDirective.all.map fun d => line "%" d.name) ++ "\n" ++
    styled bold "Block directives:" ++ "\n" ++
    String.join (BlockDirective.all.map fun d => line "%%" d.name)) "" (.ok ())

/-- Runs a script. -/
def run (s : Surroundings) (script : String) (o : RunOptions) : Plan :=
  match s.read script with
  | .error e => .say "" "" (.error (unreadable script e))
  | .ok t => match Cell.split t with
    | [] => .say (styled yellow ("No code found in " ++ script ++ ".") ++ "\n") "" (.ok ())
    | cells => withServices s (o.conversation cells)

end Plan

/-- How the commands are used. -/
def Command.usage : String :=
  "Usage: gantry [-v] <command>\n\n" ++
  "Commands:\n" ++
  "  run <script> [-k <kernel>] [--keep-going] [--vars]\n" ++
  "  preprocess <input> | --list\n" ++
  "  complete <code> [--cursor <n>] [-k <kernel>]\n" ++
  "  inspect <code> [--cursor <n>] [-k <kernel>]\n"

/-- What a command comes to. -/
def Command.plan (s : Surroundings) : Command → Plan
  | .run script kernel keepGoing vars => .run s script ⟨kernel, keepGoing, vars⟩
  | .preprocess "-" => .preprocess s.stdin
  | .preprocess path => match s.read path with
    | .error e => .say "" "" (.error (Plan.unreadable path e))
    | .ok t => .preprocess t
  | .list => .list
  | .ask q code cursor kernel =>
    .withServices s (q.conversation kernel code (cursor.getD code.toList.length))
  | .help => .say Command.usage "" (.ok ())
  | .version => .say "gantry 0.1.0\n" "" (.ok ())

end NotebookKernels
