import NotebookKernels.Directive.Line
import NotebookKernels.Directive.Block

/- Expanding a whole submission.

   A submission that opens with a known block directive becomes that directive's
   code. Otherwise each line that is a known line directive is replaced where it
   stands, keeping its indentation, and every other line is left as it is. -/
namespace NotebookKernels
open Directive

/-- A submission after expansion: the code to run, and the notices of its directives. -/
structure Submission where
  code : Text
  notices : Notices
  deriving DecidableEq, Repr

namespace Submission

/-- The line directive on a line, and its arguments. -/
def lineDirective? (line : Text) : Option (LineDirective × Text) :=
  match line.trim with
  | '%' :: rest =>
    let (name, args) := Text.cutAtBlank rest
    if rest.head? = some '%' then none else (LineDirective.ofName? name).map (·, args)
  | _ => none

/-- The block directive that a submission opens with, its arguments and its body. -/
def blockDirective? (t : Text) : Option (BlockDirective × Text × Text) := do
  let h ← BlockHeader.parse? t
  let d ← BlockDirective.ofName? h.name
  return (d, h.args, h.body)

/-- The text with `margin` before every line that is not empty. -/
def indentBy (margin t : Text) : Text :=
  Text.unlines ((Text.lines t).map fun l => if l.isEmpty then [] else margin ++ l)

/-- What one line contributes: the lines that replace it (none, where its directive was refused) and
its notice. -/
def expandLine (line : Text) : List Text × Option Notice :=
  match lineDirective? line with
  | none => ([line], none)
  | some (d, args) =>
    let r := d.expand args
    (if r.text.isEmpty then [] else [indentBy line.indentation r.text], r.notice)

/-- Expands the directives that stand on lines of their own. -/
def expandLines (t : Text) : Submission :=
  let parts := (Text.lines t).map expandLine
  ⟨Text.unlines (parts.flatMap (·.1)), parts.filterMap (·.2)⟩

/-- Expands every known directive of a submission. -/
def process (t : Text) : Submission :=
  match blockDirective? t with
  | some (d, args, body) =>
    let r := d.expand args body
    ⟨r.text, r.notice.toList⟩
  | none => expandLines t

/-- The notices as the submission's immediate output; none where there is nothing to say. -/
def immediate (s : Submission) : Option Notices := if s.notices.isEmpty then none else some s.notices

end Submission
end NotebookKernels
