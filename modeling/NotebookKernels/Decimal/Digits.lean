import NotebookKernels.Text.Blank

/- Natural numbers as digits. -/
namespace NotebookKernels.Decimal

/-- The digit character of a value below sixteen, in lower case. -/
def digitChar (d : Nat) : Char := "0123456789abcdef".toList.getD d '0'

def digit? (c : Char) : Option Nat :=
  if '0' ≤ c ∧ c ≤ '9' then some (c.toNat - '0'.toNat) else none

/-- The value of a hexadecimal digit of either case. -/
def hexDigit? (c : Char) : Option Nat :=
  if '0' ≤ c ∧ c ≤ '9' then some (c.toNat - '0'.toNat)
  else if 'a' ≤ c ∧ c ≤ 'f' then some (c.toNat - 'a'.toNat + 10)
  else if 'A' ≤ c ∧ c ≤ 'F' then some (c.toNat - 'A'.toNat + 10)
  else none

/-- The digits of `n` to the base, most significant first, put before `acc`. One digit is taken per
unit of fuel, so `n + 1` units are more than enough. -/
def digitsOnto (base : Nat) : Nat → Nat → Text → Text
  | 0, _, acc => acc
  | fuel + 1, n, acc =>
    if n < base then digitChar n :: acc
    else digitsOnto base fuel (n / base) (digitChar (n % base) :: acc)

/-- The digits of `n` to the base. -/
def digits (base n : Nat) : Text := digitsOnto base (n + 1) n []

/-- The decimal digits of `n`. -/
def text (n : Nat) : Text := digits 10 n

/-- The decimal digits of an integer, with a minus sign before a negative one. -/
def signedText (i : Int) : Text := if i < 0 then '-' :: text i.natAbs else text i.natAbs

/-- The hexadecimal digits of `n`, with zeros in front up to `width`. -/
def hex (width n : Nat) : Text :=
  let ds := digits 16 n
  List.replicate (width - ds.length) '0' ++ ds

/-- The value of a run of decimal digits; nothing if it is empty or holds another character. -/
def value? (t : Text) : Option Nat :=
  if t.isEmpty then none
  else t.foldl (fun acc c => do return 10 * (← acc) + (← digit? c)) (some 0)

/-- One more than the largest 64-bit natural number. -/
def wordLimit : Nat := 18446744073709551616

/-- A 64-bit natural number, perhaps after a plus sign. -/
def word? (t : Text) : Option Nat := do
  let n ← value? (match t with
    | '+' :: r => r
    | r => r)
  if n < wordLimit then some n else none

end NotebookKernels.Decimal
