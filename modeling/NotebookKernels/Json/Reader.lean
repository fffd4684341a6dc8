import NotebookKernels.Json.Source
import NotebookKernels.Json.Numeral

/- Reading JSON text.

   `Json.Source.read?` reads a whole text, with blanks around it; `Json.read?`
   also makes its value. Numbers have no leading zeros, at least one digit after
   a point and in an exponent; strings hold no control characters, and escapes of
   code units above the basic plane come in pairs. -/
namespace NotebookKernels.Json
open Decimal

namespace Reader

/-- The text after the blanks that JSON allows between its parts. -/
def skip (t : Text) : Text := t.dropWhile fun c => c = ' ' || c = '\n' || c = '\t' || c = '\r'

/-- One unit of a string: a character, or the code unit of a `\u` escape. -/
inductive Unit where
  | char (c : Char)
  | code (n : Nat)

/-- The character that a one-letter escape stands for. -/
def escaped? : Char → Option Char
  | '"' => some '"'
  | '\\' => some '\\'
  | '/' => some '/'
  | 'b' => some '\x08'
  | 'f' => some '\x0c'
  | 'n' => some '\n'
  | 'r' => some '\r'
  | 't' => some '\t'
  | _ => none

/-- The value of four hexadecimal digits. -/
def code? (a b c d : Char) : Option Nat := do
  return ((← hexDigit? a) * 16 + (← hexDigit? b)) * 256 + ((← hexDigit? c) * 16 + (← hexDigit? d))

/-- Reads the units of a string up to its closing quote, and the text after it. -/
def units? : Text → Option (List Unit × Text)
  | [] => none
  | '"' :: r => some ([], r)
  | '\\' :: 'u' :: a :: b :: c :: d :: r => do
    let n ← code? a b c d
    let (us, rest) ← units? r
    return (.code n :: us, rest)
  | '\\' :: e :: r => do
    let c ← escaped? e
    let (us, rest) ← units? r
    return (.char c :: us, rest)
  | c :: r =>
    if c.toNat < 0x20 then none
    else do
      let (us, rest) ← units? r
      return (.char c :: us, rest)

/-- The characters that the units stand for: a code unit is a character by itself unless it is half
of a pair; a half without its other half stands for nothing. -/
def assemble? : List Unit → Option Text
  | [] => some []
  | .char c :: r => (assemble? r).map (c :: ·)
  | .code hi :: .code lo :: r =>
    if 0xD800 ≤ hi ∧ hi < 0xDC00 ∧ 0xDC00 ≤ lo ∧ lo < 0xE000 then
      (assemble? r).map (Char.ofNat (0x10000 + (hi - 0xD800) * 0x400 + (lo - 0xDC00)) :: ·)
    else if 0xD800 ≤ hi ∧ hi < 0xE000 then none
    else (assemble? (.code lo :: r)).map (Char.ofNat hi :: ·)
  | .code n :: r =>
    if 0xD800 ≤ n ∧ n < 0xE000 then none else (assemble? r).map (Char.ofNat n :: ·)

def string? (t : Text) : Option (Option String × Text) := do
  let (us, rest) ← units? t
  return ((assemble? us).map String.ofList, rest)

/-- The digits that the text opens with, and the text after them. -/
def digits (t : Text) : List Nat × Text :=
  ((t.takeWhile fun c => (digit? c).isSome).filterMap digit?,
    t.dropWhile fun c => (digit? c).isSome)

/-- Reads the digits before the point: a single zero, or digits that do not start with one. -/
def whole? (t : Text) : Option (List Nat × Text) :=
  match digits t with
  | ([], _) => none
  | ([d], rest) => some ([d], rest)
  | (0 :: _, _) => none
  | (ds, rest) => some (ds, rest)

def fraction? : Text → Option (Option (List Nat) × Text)
  | '.' :: r => match digits r with
    | ([], _) => none
    | (ds, rest) => some (some ds, rest)
  | t => some (none, t)

/-- Reads the sign of an exponent: is it negative? -/
def exponentSign : Text → Bool × Text
  | '-' :: r => (true, r)
  | '+' :: r => (false, r)
  | t => (false, t)

def exponent? : Text → Option (Option (Bool × List Nat) × Text)
  | c :: r =>
    if c = 'e' ∨ c = 'E' then
      let (down, r) := exponentSign r
      match digits r with
      | ([], _) => none
      | (ds, rest) => some (some (down, ds), rest)
    else some (none, c :: r)
  | [] => some (none, [])

def numeral? (t : Text) : Option (Numeral × Text) := do
  let (negative, t) := match t with
    | '-' :: r => (true, r)
    | _ => (false, t)
  let (whole, t) ← whole? t
  let (fraction, t) ← fraction? t
  let (exponent, t) ← exponent? t
  return (⟨negative, whole, fraction, exponent⟩, t)

mutual
def value? : Nat → Text → Option (Source × Text)
  | 0, _ => none
  | fuel + 1, t =>
    match skip t with
    | 'n' :: 'u' :: 'l' :: 'l' :: r => some (.null, r)
    | 't' :: 'r' :: 'u' :: 'e' :: r => some (.bool true, r)
    | 'f' :: 'a' :: 'l' :: 's' :: 'e' :: r => some (.bool false, r)
    | '"' :: r => (string? r).map fun (s, rest) => (.string s, rest)
    | '[' :: r => match skip r with
      | ']' :: rest => some (.array [], rest)
      | _ => (items? fuel r).map fun (xs, rest) => (.array xs, rest)
    | '\x7b' :: r => match skip r with
      | '\x7d' :: rest => some (.object [], rest)
      | _ => (fields? fuel r).map fun (fs, rest) => (.object fs, rest)
    | t => (numeral? t).map fun (n, rest) => (.number n.value?, rest)
/-- Reads the items of an array up to its closing bracket; there is at least one. -/
def items? : Nat → Text → Option (List Source × Text)
  | 0, _ => none
  | fuel + 1, t => do
    let (x, t) ← value? fuel t
    match skip t with
    | ',' :: r =>
      let (xs, rest) ← items? fuel r
      return (x :: xs, rest)
    | ']' :: rest => some ([x], rest)
    | _ => none
/-- Reads the fields of an object up to its closing brace; there is at least one. -/
def fields? : Nat → Text → Option (List (Option String × Source) × Text)
  | 0, _ => none
  | fuel + 1, t =>
    match skip t with
    | '"' :: r => do
      let (name, t) ← string? r
      match skip t with
      | ':' :: r =>
        let (x, t) ← value? fuel r
        match skip t with
        | ',' :: r =>
          let (fs, rest) ← fields? fuel r
          return ((name, x) :: fs, rest)
        | '\x7d' :: rest => some ([(name, x)], rest)
        | _ => none
      | _ => none
    | _ => none
end

end Reader

/-- Reads a text that holds one value and nothing else. Two units of fuel for each character are
more than the nested calls can use. -/
def Source.read? (t : Text) : Option Source := do
  let (s, rest) ← Reader.value? (2 * t.length + 2) t
  if Reader.skip rest = [] then some s else none

/-- Reads a text that holds one value and nothing else. -/
def read? (t : Text) : Option Json := do (← Source.read? t).valueWithin? nestingLimit

end NotebookKernels.Json
