import NotebookKernels.Text.Blank

/- Cutting text at separators.

   `pieces sep t` cuts at every `sep` and is undone by `join sep`. `words` cuts
   at runs of blanks, `cutAtBlank` and `cutAt?` once. `scriptLines` cuts a file
   into its lines, where a line ends at a line feed, with or without a carriage
   return before it, and the last line may lack its end. -/
namespace NotebookKernels.Text

/-- The parts of the text between occurrences of `sep`; always at least one. -/
def pieces (sep : Char) : Text → List Text
  | [] => [[]]
  | c :: r =>
    if c = sep then [] :: pieces sep r
    else match pieces sep r with
      | [] => [[c]]
      | p :: ps => (c :: p) :: ps

/-- The parts with one `sep` between neighbours. -/
def join (sep : Char) (parts : List Text) : Text := [sep].intercalate parts

/-- The parts between line feeds. -/
abbrev lines (t : Text) : List Text := pieces '\n' t

/-- The lines with a line feed between neighbours. -/
abbrev unlines (ls : List Text) : Text := join '\n' ls

/-- The maximal runs of characters that are not blank, with `run` the one being read. -/
def wordsFrom (run : Text) : Text → List Text
  | [] => if run.isEmpty then [] else [run.reverse]
  | c :: r =>
    if isBlank c then
      if run.isEmpty then wordsFrom [] r else run.reverse :: wordsFrom [] r
    else wordsFrom (c :: run) r

/-- The words of the text: its maximal runs of characters that are not blank. -/
def words (t : Text) : List Text := wordsFrom [] t

/-- The text before the first blank, and the trimmed text after it. -/
def cutAtBlank (t : Text) : Text × Text :=
  (t.takeWhile (fun c => !isBlank c), trim ((t.dropWhile fun c => !isBlank c).drop 1))

/-- The text before and after the first `sep`, if there is one. -/
def cutAt? (sep : Char) (t : Text) : Option (Text × Text) :=
  if sep ∈ t then some (t.takeWhile (· ≠ sep), (t.dropWhile (· ≠ sep)).drop 1) else none

/-- The text without the prefix `p`, if it starts with `p`. -/
def stripPrefix? (p t : Text) : Option Text :=
  if p.isPrefixOf t then some (t.drop p.length) else none

/-- Does the text contain `part`? -/
def contains (part : Text) : Text → Bool
  | [] => part.isEmpty
  | c :: r => part.isPrefixOf (c :: r) || contains part r

/-- A line without the carriage return it may end in. -/
def dropReturn (l : Text) : Text := if l.getLast? = some '\r' then l.dropLast else l

/-- The lines of a file. A final line feed does not open another line, and a carriage return counts
only as part of the line end. -/
def scriptLines (t : Text) : List Text :=
  match (lines t).reverse with
  | [] => []
  | last :: before =>
    let ended := before.reverse.map dropReturn
    if last.isEmpty then ended else ended ++ [last]

/-- The text without copies of `c` at either end. -/
def trimOf (c : Char) (t : Text) : Text :=
  ((t.dropWhile (· = c)).reverse.dropWhile (· = c)).reverse

end NotebookKernels.Text
