import NotebookKernels.Directive.Expansion

/- Block directives: `%%name args` on the first line that is not blank, and
   everything after that line as the body.

   `BlockHeader.parse?` finds one, `BlockDirective.expand` says what each turns
   into. A body that a directive hands over as data is one literal. -/
namespace NotebookKernels
open Python Directive

/-- A block directive as written: its name, the trimmed text after the name, and the body. -/
structure BlockHeader where
  name : Text
  args : Text
  body : Text
  deriving DecidableEq, Repr

/-- The block directive that the text opens with, if its first line that is not blank, trimmed,
starts with two percent signs. The body is what follows that line, as it is. -/
def BlockHeader.parse? (t : Text) : Option BlockHeader :=
  match (Text.lines t).dropWhile Text.allBlank with
  | [] => none
  | header :: rest =>
    (Text.stripPrefix? ['%', '%'] header.trim).map fun h =>
      let (name, args) := Text.cutAtBlank h
      ⟨name, args, Text.unlines rest⟩

/-- The block directives. -/
inductive BlockDirective where
  | timeit | time | writefile | bash | html | javascript | latex | markdown | capture
  deriving DecidableEq, Repr

namespace BlockDirective

/-- The name that follows the two percent signs. -/
def name : BlockDirective → String
  | timeit => "timeit" | time => "time" | writefile => "writefile" | bash => "bash"
  | html => "html" | javascript => "javascript" | latex => "latex" | markdown => "markdown"
  | capture => "capture"

/-- Every block directive, in the order of their names. -/
def all : List BlockDirective :=
  [bash, capture, html, javascript, latex, markdown, time, timeit, writefile]

def ofName? (n : Text) : Option BlockDirective := all.find? (·.name.toList = n)

/-- How often `%%timeit` runs its body. -/
def timeitLoops : Nat := 100

/-- Source that shows the body as rich output of one kind. -/
def display (kind : String) (body : Text) : Expansion :=
  .emit [code ("from IPython.display import " ++ kind ++ ", display\ndisplay(" ++ kind ++ "("),
    .quoted body, code "))"]

def expand (d : BlockDirective) (args body : Text) : Expansion :=
  match d with
  | timeit =>
    .emit ([code "import timeit\n\ndef _gantry_timed_block():\n", .code (suite body),
      code ("\n\n_gantry_elapsed = timeit.timeit(_gantry_timed_block, number=" ++
        toString timeitLoops ++ ")\n")] ++ timingReport timeitLoops)
  | time =>
    .emit [code ("import time as _gantry_time\n" ++
      "_gantry_start = _gantry_time.perf_counter()\n"), .code body, code "\nprint(",
      quoted "\nWall time: %.2fms",
      code " % ((_gantry_time.perf_counter() - _gantry_start) * 1000))"]
  | writefile =>
    if args.isEmpty then .refuse "%%writefile requires a filename".toList
    else .emit [code "_gantry_body = ", .quoted body, code "\nwith open(", .quoted args, code ", ",
      quoted "w", code ") as _gantry_file:\n    _gantry_file.write(_gantry_body)\nprint(",
      quoted "Writing %d bytes to %s", code " % (len(_gantry_body), ", .quoted args, code "))"]
  | bash =>
    .emit (runCommand [code "[", quoted "bash", code ", ", quoted "-c", code ", ", .quoted body,
      code "]"])
  | html => display "HTML" body
  | javascript => display "Javascript" body
  | latex => display "Latex" body
  | markdown => display "Markdown" body
  | capture =>
    let target := if args.isEmpty then "captured".toList else args
    if !isIdentifier target then
      .refuse ("%%capture: '".toList ++ target ++ "' is not a valid variable name".toList)
    else
      .emit [code ("from IPython.utils.capture import capture_output\n" ++
        "with capture_output() as "), .code target, code ":\n", .code (suite body),
        code "\nprint(", .quoted ("Output captured to '".toList ++ target ++ ['\'']), code ")"]

end BlockDirective
end NotebookKernels
