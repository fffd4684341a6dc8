import NotebookKernels.Json.Value

/- From the text of a JSON number to its value.

   A numeral without fraction and exponent is an integer if it fits 64 bits
   (unsigned, or signed with a minus sign; minus zero is a double). Every other
   numeral is a double, made in four steps: the digits are gathered into a 64-bit
   significand until the next one would overflow, the digits left out of the whole
   part count as powers of ten, the significand is rounded to a double, and that
   is multiplied or divided by one power of ten. A product that is too large is no
   number. -/
namespace NotebookKernels

/-- A number as written: its sign, its digits before and after the point, and its exponent with
that one's sign. -/
structure Numeral where
  negative : Bool
  whole : List Nat
  fraction : Option (List Nat)
  exponent : Option (Bool × List Nat)
  deriving DecidableEq, Repr

namespace Numeral

/-- Gathers digits into the significand `s` while it fits a word; also the digits left over. -/
def gather (s : Nat) : List Nat → Nat × List Nat
  | [] => (s, [])
  | d :: ds => if 10 * s + d < Decimal.wordLimit then gather (10 * s + d) ds else (s, d :: ds)

/-- The largest exponent that is told from an overflow. -/
def exponentLimit : Nat := 2147483647

/-- The value of an exponent's digits, if it does not overflow. -/
def exponentValue? (ds : List Nat) : Option Nat :=
  ds.foldl (fun acc d => do
    let n ← acc
    if 10 * n + d ≤ exponentLimit then some (10 * n + d) else none) (some 0)

/-- A power of ten as a double. -/
def tenTo (n : Nat) : Float := Float.ofScientific 1 false n

/-- `f` divided by `10 ^ n`, in steps of at most `10 ^ 308`. -/
def divideByTen (f : Float) (n : Nat) : Float :=
  if n ≤ 308 then f / tenTo n
  else
    let g := f / tenTo 308
    if n ≤ 616 then g / tenTo (n - 308) else g / tenTo 308

/-- `significand * 10 ^ exponent` as a double; nothing if it is too large. -/
def double? (negative : Bool) (significand : Nat) (exponent : Int) : Option JsonNumber :=
  let f := significand.toUInt64.toFloat
  let magnitude? :=
    if exponent < 0 then some (divideByTen f exponent.natAbs)
    else if exponent ≤ 308 then
      let g := f * tenTo exponent.natAbs
      if g.isInf then none else some g
    else if significand = 0 then some f
    else none
  magnitude?.map fun g => .double (if negative then -g else g).toBits

/-- The largest magnitude of a negative integer. -/
def negativeLimit : Nat := 9223372036854775808

/-- The value of a numeral; nothing if it is too large for a double. -/
def value? (n : Numeral) : Option JsonNumber :=
  let (s, left) := gather 0 n.whole
  match n.fraction, n.exponent with
  | none, none =>
    if left ≠ [] then double? n.negative s left.length
    else if !n.negative then some (.int s)
    else if 0 < s ∧ s ≤ negativeLimit then some (.int (-s))
    else double? true s 0
  | fraction, exponent =>
    let (s', left') := gather s (fraction.getD [])
    let scale : Int := left.length - (((fraction.getD []).length - left'.length : Nat) : Int)
    match exponent with
    | none => double? n.negative s' scale
    | some (down, ds) =>
      match exponentValue? ds with
      | some e => double? n.negative s' (if down then scale - e else scale + e)
      | none => if s' ≠ 0 ∧ !down then none else double? n.negative 0 0

end Numeral
end NotebookKernels
