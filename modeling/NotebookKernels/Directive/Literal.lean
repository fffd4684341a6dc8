import NotebookKernels.Text.Lines
import NotebookKernels.Decimal.Digits

/- Python source fragments.

   `literal t` is a single-quoted literal whose value is `t`. A `Snippet` is
   Python source cut into code and literal values, so that text handed in by a
   user sits either in a literal or, where a directive asks for it, in code that
   says so. -/
namespace NotebookKernels.Python

/-- How one character is written inside a single-quoted literal: the backslash, the quote, control
characters and the delete character are escaped, all else stands for itself. -/
def escape (c : Char) : Text :=
  if c = '\\' then ['\\', '\\']
  else if c = '\'' then ['\\', '\'']
  else if c = '\n' then ['\\', 'n']
  else if c = '\r' then ['\\', 'r']
  else if c = '\t' then ['\\', 't']
  else if c.toNat < 0x20 ∨ c.toNat = 0x7f then
    ['\\', 'x', Decimal.digitChar (c.toNat / 16), Decimal.digitChar (c.toNat % 16)]
  else [c]

/-- The single-quoted literal with value `t`. -/
def literal (t : Text) : Text := '\'' :: t.flatMap escape ++ ['\'']

/-- May a plain identifier start with `c`? -/
def isIdentifierStart (c : Char) : Bool := c = '_' || c.isAlpha

/-- May a plain identifier go on with `c`? -/
def isIdentifierPart (c : Char) : Bool := c = '_' || c.isAlphanum

/-- Is `t` a plain ASCII identifier? -/
def isIdentifier : Text → Bool
  | [] => false
  | c :: r => isIdentifierStart c && r.all isIdentifierPart

/-- A part of generated source. -/
inductive Piece where
  /-- Source text that stands as it is. -/
  | code (text : Text)
  /-- A literal with this value. -/
  | quoted (value : Text)
  deriving DecidableEq, Repr

abbrev Snippet := List Piece

def Piece.render : Piece → Text
  | .code t => t
  | .quoted v => literal v

def Snippet.render (s : Snippet) : Text := s.flatMap Piece.render

/-- Fixed source text. -/
def code (s : String) : Piece := .code s.toList

def quoted (s : String) : Piece := .quoted s.toList

/-- Literals for the items of a list display, with commas between them. -/
def quotedItems : List Text → Snippet
  | [] => []
  | [t] => [.quoted t]
  | t :: ts => .quoted t :: code ", " :: quotedItems ts

/-- The body as an indented suite: every line moved right by four blanks. A blank body becomes
`pass`. -/
def suite (body : Text) : Text :=
  let margin := "    ".toList
  if body.allBlank then margin ++ "pass".toList
  else Text.unlines ((Text.lines body).map (margin ++ ·))

end NotebookKernels.Python
