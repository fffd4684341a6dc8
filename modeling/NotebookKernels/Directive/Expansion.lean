import NotebookKernels.Directive.Literal
import NotebookKernels.Directive.Notice

/- What one directive turns into. -/
namespace NotebookKernels.Directive
open Python

/-- The code that stands for a directive, and the notice that comes with it. -/
structure Expansion where
  code : Snippet
  notice : Option Notice := none
  deriving DecidableEq, Repr

namespace Expansion

/-- Code without a notice. -/
def emit (s : Snippet) : Expansion := ⟨s, none⟩

/-- No code, and an error that says why. -/
def refuse (message : Text) : Expansion := ⟨[], some ⟨.error, message⟩⟩

/-- Code, and a note beside it. -/
def annotate (s : Snippet) (message : Text) : Expansion := ⟨s, some ⟨.info, message⟩⟩

/-- The source text that stands for the directive. -/
def text (r : Expansion) : Text := r.code.render

end Expansion

/-- Source that runs a command, given as a list display, and prints what it wrote. -/
def runCommand (argv : Snippet) : Snippet :=
  code "import subprocess\n_gantry_proc = subprocess.run(" :: argv ++
    [code (", capture_output=True, text=True)\nprint(_gantry_proc.stdout)\n" ++
      "if _gantry_proc.stderr:\n    print(_gantry_proc.stderr)")]

/-- Source that reports the loops and the time that a timing run took. -/
def timingReport (loops : Nat) : Snippet :=
  [code "print(", quoted (toString loops ++ " loops: %.6fs total, %.3fms per loop"),
    code (" % (_gantry_elapsed, _gantry_elapsed / " ++ toString loops ++ " * 1000))")]

end NotebookKernels.Directive
