import NotebookKernels.Text.Blank

/- UTF-8.

   `encode` writes text as bytes. `decodeChar?` reads one character in its
   shortest form; surrogates and code points beyond the last plane have none. -/
namespace NotebookKernels.Text

/-- Bytes in order. -/
abbrev Bytes := List UInt8

namespace Utf8

/-- The byte that carries the lowest six bits of `n`. -/
def continuation (n : Nat) : UInt8 := UInt8.ofNat (0x80 + n % 64)

def encodeChar (c : Char) : Bytes :=
  let n := c.toNat
  if n < 0x80 then [UInt8.ofNat n]
  else if n < 0x800 then [UInt8.ofNat (0xC0 + n / 64), continuation n]
  else if n < 0x10000 then [UInt8.ofNat (0xE0 + n / 4096), continuation (n / 64), continuation n]
  else [UInt8.ofNat (0xF0 + n / 262144), continuation (n / 4096), continuation (n / 64),
    continuation n]

def encode (t : Text) : Bytes := t.flatMap encodeChar

/-- The six bits that a continuation byte carries. -/
def payload? (b : UInt8) : Option Nat :=
  if 0x80 ≤ b.toNat ∧ b.toNat < 0xC0 then some (b.toNat - 0x80) else none

/-- The code point, if it is one that needs at least the length it was written in. -/
def charFrom? (least n : Nat) : Option Char :=
  if least ≤ n ∧ n.isValidChar then some (Char.ofNat n) else none

def decodeChar? : Bytes → Option (Char × Bytes)
  | [] => none
  | a :: r =>
    let n := a.toNat
    if n < 0x80 then some (Char.ofNat n, r)
    else if n < 0xC0 then none
    else if n < 0xE0 then match r with
      | b :: r => do
        return (← charFrom? 0x80 ((n - 0xC0) * 64 + (← payload? b)), r)
      | _ => none
    else if n < 0xF0 then match r with
      | b :: c :: r => do
        return (← charFrom? 0x800 ((n - 0xE0) * 4096 + (← payload? b) * 64 + (← payload? c)), r)
      | _ => none
    else match r with
      | b :: c :: d :: r => do
        return (← charFrom? 0x10000 ((n - 0xF0) * 262144 + (← payload? b) * 4096 +
          (← payload? c) * 64 + (← payload? d)), r)
      | _ => none

/-- What stands for a byte that begins no character: as part of a JSON text it is a fault outside a
string, and inside one it is half of a surrogate pair, so that the string has no value. -/
def fault : Text := "x\\udc00".toList

/-- Reads all bytes, at most `fuel` characters; every byte that begins no character becomes a
`fault`. -/
def decodeMarked : Nat → Bytes → Text
  | 0, _ => []
  | _, [] => []
  | fuel + 1, b :: r =>
    match decodeChar? (b :: r) with
    | some (c, rest) => c :: decodeMarked fuel rest
    | none => fault ++ decodeMarked fuel r

end Utf8

def ofBytes (bs : Bytes) : Text := Utf8.decodeMarked bs.length bs

end NotebookKernels.Text
