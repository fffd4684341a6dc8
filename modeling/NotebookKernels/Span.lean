import NotebookKernels.Decimal.Digits

/- Spans of time and their text. -/
namespace NotebookKernels

/-- A span of time, in microseconds. -/
structure Span where
  micros : Nat
  deriving DecidableEq, Repr

namespace Span

def ofMillis (n : Nat) : Span := ⟨1000 * n⟩

def ofSeconds (n : Nat) : Span := ⟨1000000 * n⟩

/-- The whole milliseconds that cover the span. -/
def coverMillis (s : Span) : Nat := (s.micros + 999) / 1000

/-- `whole` and, where it is not zero, `part` as the digits after the point, of which there are
`places` before zeros at the end are dropped. -/
def decimalText (whole part places : Nat) : Text :=
  let ds := Decimal.text part
  let padded := List.replicate (places - ds.length) '0' ++ ds
  let fraction := (padded.reverse.dropWhile (· = '0')).reverse
  Decimal.text whole ++ (if fraction.isEmpty then [] else '.' :: fraction)

/-- The span in the largest unit of which it holds at least one: seconds, milliseconds or
microseconds. -/
def text (s : Span) : String :=
  let n := s.micros
  String.ofList <|
    if 1000000 ≤ n then decimalText (n / 1000000) (n % 1000000) 6 ++ ['s']
    else if 1000 ≤ n then decimalText (n / 1000) (n % 1000) 3 ++ ['m', 's']
    else if 0 < n then decimalText n 0 0 ++ ['µ', 's']
    else ['0', 'n', 's']

end Span
end NotebookKernels
