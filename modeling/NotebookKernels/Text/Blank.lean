/- Blank characters, and trimming.

   Text is handled as a list of code points. A character is blank when Unicode
   gives it the White_Space property; trimming, word splitting and "is this line
   blank" all use that one class. -/
namespace NotebookKernels

/-- Text under analysis: its code points in order. -/
abbrev Text := List Char

namespace Text

/-- The code points with the White_Space property, as closed ranges. -/
def blankRanges : List (Nat × Nat) :=
  [(0x09, 0x0D), (0x20, 0x20), (0x85, 0x85), (0xA0, 0xA0), (0x1680, 0x1680), (0x2000, 0x200A),
    (0x2028, 0x2029), (0x202F, 0x202F), (0x205F, 0x205F), (0x3000, 0x3000)]

/-- Does `c` have the White_Space property? -/
def isBlank (c : Char) : Bool := blankRanges.any fun r => r.1 ≤ c.toNat && c.toNat ≤ r.2

/-- The text from its first character that is not blank. -/
def trimStart (t : Text) : Text := t.dropWhile isBlank

/-- The text up to its last character that is not blank. -/
def trimEnd (t : Text) : Text := (t.reverse.dropWhile isBlank).reverse

/-- The text without blanks at either end. -/
def trim (t : Text) : Text := trimEnd (trimStart t)

/-- The blanks that the text opens with. -/
def indentation (t : Text) : Text := t.takeWhile isBlank

/-- Has the text no character that is not blank? -/
def allBlank (t : Text) : Bool := t.all isBlank

end Text
end NotebookKernels
