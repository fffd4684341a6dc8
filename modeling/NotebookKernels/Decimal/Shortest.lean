import NotebookKernels.Decimal.Digits

/- The shortest decimal that names a double-precision number.

   A finite double is a magnitude `m * 2 ^ q`. The reals that round to it form an
   interval around it, with its ends when `m` is even. For one digit, two digits
   and so on, the two decimals of that many digits around the number are tried;
   the first length with one inside the interval wins, of two the nearer, of two
   equally near the one whose last digit is even. -/
namespace NotebookKernels.Decimal

/-- The magnitude `mantissa * 2 ^ exponent` of a finite double. -/
structure Binary where
  mantissa : Nat
  exponent : Int
  deriving DecidableEq, Repr

/-- The bit that the mantissa of a normal double begins with; the bits below it are stored. -/
def Binary.leadingBit : Nat := 4503599627370496

/-- The magnitude with these bits; nothing for an infinity or a value that is no number. -/
def Binary.ofBits? (bits : UInt64) : Option Binary :=
  let n := bits.toNat
  let field : Nat := n / Binary.leadingBit % 2048
  let fraction : Nat := n % Binary.leadingBit
  if field = 2047 then none
  else if field = 0 then some ⟨fraction, -1074⟩
  else some ⟨Binary.leadingBit + fraction, (field : Int) - 1075⟩

/-- A decimal magnitude `digits * 10 ^ exponent`. -/
structure Magnitude where
  digits : Nat
  exponent : Int
  deriving DecidableEq, Repr

/-- A fraction: the quotient of two natural numbers. -/
structure Ratio where
  num : Nat
  den : Nat

/-- `m * 2 ^ q` as a fraction. -/
def Ratio.scaled (m : Nat) (q : Int) : Ratio := ⟨m * Nat.pow 2 q.toNat, Nat.pow 2 (-q).toNat⟩

/-- `r * 10 ^ e` as a fraction. -/
def Ratio.shift (r : Ratio) (e : Int) : Ratio :=
  ⟨r.num * Nat.pow 10 e.toNat, r.den * Nat.pow 10 (-e).toNat⟩

/-- Drops factors of ten from the digits, at most `fuel` of them. -/
def Magnitude.dropZeros : Nat → Magnitude → Magnitude
  | 0, x => x
  | fuel + 1, x =>
    if x.digits ≠ 0 ∧ x.digits % 10 = 0 then dropZeros fuel ⟨x.digits / 10, x.exponent + 1⟩ else x

/-- The number of digits before the point, found among `fuel` candidates from `k` downwards: the
least one with `r < 10 ^ k`. -/
def Ratio.magnitude (r : Ratio) : Nat → Int → Int
  | 0, k => k
  | fuel + 1, k =>
    let s := r.shift (1 - k)
    if s.num < s.den then magnitude r fuel (k - 1) else k

/-- Is the decimal `d * 10 ^ e` in the interval of the double? -/
def Binary.covers (b : Binary) (d : Nat) (e : Int) : Bool :=
  let below := if b.mantissa = leadingBit ∧ b.exponent > -1074 then 1 else 2
  let lo := (Ratio.scaled (4 * b.mantissa - below) (b.exponent - 2)).shift (-e)
  let hi := (Ratio.scaled (4 * b.mantissa + 2) (b.exponent - 2)).shift (-e)
  if b.mantissa % 2 = 0 then lo.num ≤ d * lo.den && d * hi.den ≤ hi.num
  else lo.num < d * lo.den && d * hi.den < hi.num

/-- The decimal of a grid of step `10 ^ e` that names the double, if there is one. -/
def Binary.onGrid? (b : Binary) (e : Int) : Option Magnitude :=
  let v := (Ratio.scaled b.mantissa b.exponent).shift (-e)
  let d := v.num / v.den
  match b.covers d e, b.covers (d + 1) e with
  | false, false => none
  | true, false => some ⟨d, e⟩
  | false, true => some ⟨d + 1, e⟩
  | true, true =>
    let twice := 2 * (v.num - d * v.den)
    if twice < v.den ∨ (twice = v.den ∧ d % 2 = 0) then some ⟨d, e⟩ else some ⟨d + 1, e⟩

/-- Tries `n`, `n + 1`, … digits, `fuel` lengths in all; `k` is the number of digits before the
point. -/
def Binary.shortestFrom (b : Binary) (k : Int) : Nat → Nat → Magnitude
  | 0, _ => ⟨b.mantissa, 0⟩
  | fuel + 1, n =>
    match b.onGrid? (k - n) with
    | some x => x.dropZeros 20
    | none => shortestFrom b k fuel (n + 1)

/-- The shortest decimal that rounds to the double. -/
def Binary.shortest (b : Binary) : Magnitude :=
  if b.mantissa = 0 then ⟨0, 0⟩
  else b.shortestFrom ((Ratio.scaled b.mantissa b.exponent).magnitude 700 310) 17 1

end NotebookKernels.Decimal
