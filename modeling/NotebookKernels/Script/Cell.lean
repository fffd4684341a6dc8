import NotebookKernels.Text.Lines
import NotebookKernels.Decimal.Digits

/- Scripts in cells.

   A line that starts, after blanks, with `# %%` opens a cell; what follows on
   that line is the cell's title. Cells without code are left out, and a cell
   without a title is called by its place among those that are kept. -/
namespace NotebookKernels

/-- A cell of a script. -/
structure Cell where
  title : Text
  source : Text
  deriving DecidableEq, Repr

namespace Cell

def marker : Text := "# %%".toList

/-- The trimmed text after the marker, if the line is one that opens a cell. -/
def markerTitle? (line : Text) : Option Text :=
  (Text.stripPrefix? marker line.trimStart).map Text.trim

/-- A part of a script: the text of the marker line that opens it, if there is one, and its lines. -/
structure Section where
  title : Option Text
  lines : List Text
  deriving DecidableEq, Repr

/-- The sections of a script: the first has the lines before the first marker. -/
def sections (title : Option Text) : List Text → List Section
  | [] => [⟨title, []⟩]
  | line :: rest =>
    match markerTitle? line with
    | some t => ⟨title, []⟩ :: sections (some t) rest
    | none => match sections title rest with
      | [] => [⟨title, [line]⟩]
      | s :: r => { s with lines := line :: s.lines } :: r

/-- The code of a section: its lines, without empty ones at either end. -/
def Section.source (s : Section) : Text := Text.trimOf '\n' (Text.unlines s.lines)

/-- The title of the cell that comes `n`-th. -/
def defaultTitle (n : Nat) : Text := "cell ".toList ++ Decimal.text n

/-- The cells of the sections, of which `n` come before these. -/
def ofSections (n : Nat) : List Section → List Cell
  | [] => []
  | s :: r =>
    if s.source.allBlank then ofSections n r
    else
      let title := match s.title with
        | some t => if t.isEmpty then defaultTitle (n + 1) else t
        | none => defaultTitle (n + 1)
      ⟨title, s.source⟩ :: ofSections (n + 1) r

/-- The cells of a script. -/
def split (script : Text) : List Cell := ofSections 0 (sections none (Text.scriptLines script))

end Cell
end NotebookKernels
