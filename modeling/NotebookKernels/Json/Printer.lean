import NotebookKernels.Json.Value
import NotebookKernels.Decimal.Shortest

/- Printing JSON.

   `Json.print` writes no blanks, `Json.printIndented` puts every item on a line
   of its own. Fields keep their order. A double has the fewest digits that name
   it, with a point up to sixteen digits before it and down to four zeros after
   it, and with an exponent beyond. -/
namespace NotebookKernels
open Decimal

namespace JsonNumber

/-- The text of a decimal magnitude. -/
def magnitudeText (x : Magnitude) : Text :=
  let ds := Decimal.text x.digits
  let before : Int := ds.length + x.exponent
  if 0 ≤ x.exponent ∧ before ≤ 16 then
    ds ++ List.replicate x.exponent.toNat '0' ++ ['.', '0']
  else if 0 < before ∧ before ≤ 16 then
    ds.take before.toNat ++ '.' :: ds.drop before.toNat
  else if -5 < before ∧ before ≤ 0 then
    ['0', '.'] ++ List.replicate (-before).toNat '0' ++ ds
  else
    let tail := match ds.drop 1 with
      | [] => []
      | rest => '.' :: rest
    ds.take 1 ++ tail ++ 'e' :: Decimal.signedText (before - 1)

/-- The text of a double; an infinity and a value that is no number are written as null. -/
def doubleText (bits : UInt64) : Text :=
  match Binary.ofBits? bits with
  | none => "null".toList
  | some b => (if bits.toNat ≥ 9223372036854775808 then ['-'] else []) ++ magnitudeText b.shortest

/-- The text of a number. -/
def text : JsonNumber → Text
  | .int i => Decimal.signedText i
  | .double bits => doubleText bits

end JsonNumber

namespace Json

/-- How one character is written in a JSON string. -/
def escape (c : Char) : Text :=
  if c = '"' then ['\\', '"']
  else if c = '\\' then ['\\', '\\']
  else if c = '\x08' then ['\\', 'b']
  else if c = '\x0c' then ['\\', 'f']
  else if c = '\n' then ['\\', 'n']
  else if c = '\r' then ['\\', 'r']
  else if c = '\t' then ['\\', 't']
  else if c.toNat < 0x20 then
    ['\\', 'u', '0', '0', digitChar (c.toNat / 16), digitChar (c.toNat % 16)]
  else [c]

/-- A string between quotes. -/
def quote (s : String) : Text := '"' :: s.toList.flatMap escape ++ ['"']

mutual
/-- The compact text of a value. -/
def print : Json → Text
  | .null => "null".toList
  | .bool true => "true".toList
  | .bool false => "false".toList
  | .number n => n.text
  | .string s => quote s
  | .array [] => ['[', ']']
  | .array (x :: xs) => '[' :: (print x ++ printItems xs)
  | .object [] => ['\x7b', '\x7d']
  | .object ((k, v) :: fs) => '\x7b' :: (quote k ++ ':' :: (print v ++ printFields fs))
/-- The items after the first, and the closing bracket. -/
def printItems : List Json → Text
  | [] => [']']
  | x :: xs => ',' :: (print x ++ printItems xs)
/-- The fields after the first, and the closing brace. -/
def printFields : List (String × Json) → Text
  | [] => ['\x7d']
  | (k, v) :: fs => ',' :: (quote k ++ ':' :: (print v ++ printFields fs))
end

/-- A new line, indented by two blanks for each level. -/
def newLine (level : Nat) : Text := '\n' :: List.replicate (2 * level) ' '

mutual
/-- The text of a value with one item or field on a line, inside `level` brackets. -/
def printIndented (level : Nat) : Json → Text
  | .array (x :: xs) =>
    '[' :: (newLine (level + 1) ++ (printIndented (level + 1) x ++ printIndentedItems level xs))
  | .object ((k, v) :: fs) =>
    '\x7b' :: (newLine (level + 1) ++ (quote k ++ ':' :: ' ' ::
      (printIndented (level + 1) v ++ printIndentedFields level fs)))
  | v => print v
/-- The items after the first, and the closing bracket. -/
def printIndentedItems (level : Nat) : List Json → Text
  | [] => newLine level ++ [']']
  | x :: xs =>
    ',' :: (newLine (level + 1) ++ (printIndented (level + 1) x ++ printIndentedItems level xs))
/-- The fields after the first, and the closing brace. -/
def printIndentedFields (level : Nat) : List (String × Json) → Text
  | [] => newLine level ++ ['\x7d']
  | (k, v) :: fs =>
    ',' :: (newLine (level + 1) ++ (quote k ++ ':' :: ' ' ::
      (printIndented (level + 1) v ++ printIndentedFields level fs)))
end

end Json
end NotebookKernels
