import NotebookKernels.Wire.Message
import NotebookKernels.Json.Reader
import NotebookKernels.Json.Printer
import NotebookKernels.Text.Utf8

/- Frames: JSON texts on a byte stream.

   A frame is the length of its body, as four bytes with the lowest first, and
   the body, a compact JSON text in UTF-8. -/
namespace NotebookKernels.Frame
open Text (Bytes)

def maxBody : Nat := 100 * 1024 * 1024

/-- The failure for a body of `n` bytes, which is more than the largest. -/
def tooLarge (n : Nat) : Failure :=
  .protocol ("IPC message too large: " ++ String.ofList (Decimal.text n) ++ " bytes")

/-- The four bytes that give the length of a body. -/
def header (n : Nat) : Bytes :=
  [UInt8.ofNat n, UInt8.ofNat (n / 256), UInt8.ofNat (n / 65536), UInt8.ofNat (n / 16777216)]

def bodyLength (a b c d : UInt8) : Nat :=
  a.toNat + 256 * b.toNat + 65536 * c.toNat + 16777216 * d.toNat

/-- The body of a frame for a value. -/
def body (v : Json) : Bytes := Text.Utf8.encode v.print

/-- The frame for a value; a body that is too large is refused. -/
def write (v : Json) : Except Failure Bytes :=
  let bytes := body v
  if maxBody < bytes.length then .error (tooLarge bytes.length)
  else .ok (header bytes.length ++ bytes)

/-- What reading one frame comes to. -/
inductive Reading (α : Type) where
  /-- The stream ended before a whole header. -/
  | ended
  | message (value : α) (rest : Bytes)
  | failed (f : Failure)

/-- Reads one frame. The failure for a body that does not read ends where a reader of JSON would add
its own words. -/
def read {α : Type} (ofSource? : Json.Source → Option α) : Bytes → Reading α
  | a :: b :: c :: d :: rest =>
    let n := bodyLength a b c d
    if maxBody < n then .failed (tooLarge n)
    else if rest.length < n then .failed (.channel "Failed to read IPC message body: early eof")
    else match (Json.Source.read? (Text.ofBytes (rest.take n))).bind ofSource? with
      | some value => .message value (rest.drop n)
      | none => .failed (.protocol "Failed to decode IPC message")
  | _ => .ended

theorem length_of_read {α : Type} {ofSource? : Json.Source → Option α} {bs rest : Bytes} {v : α}
    (h : read ofSource? bs = .message v rest) : rest.length < bs.length := by
  unfold read at h
  split at h
  · simp only at h
    split at h
    · cases h
    · split at h
      · cases h
      · split at h
        · injection h with _ h
          subst h
          simp only [List.length_drop, List.length_cons]
          omega
        · cases h
  · cases h

/-- Reads frames up to the end of the stream or the first failure. -/
def readAll {α : Type} (ofSource? : Json.Source → Option α) (bs : Bytes) :
    List α × Except Failure Unit :=
  match _h : read ofSource? bs with
  | .ended => ([], .ok ())
  | .failed f => ([], .error f)
  | .message v rest =>
    let (vs, last) := readAll ofSource? rest
    (v :: vs, last)
termination_by bs.length
decreasing_by exact length_of_read _h

/-- Does the stream begin with a frame that can be read now, be it only to refuse it? -/
def isWhole : Bytes → Bool
  | a :: b :: c :: d :: rest =>
    let n := bodyLength a b c d
    maxBody < n || n ≤ rest.length
  | _ => false

/-- Reads the frames that can be read now; the bytes after them are left for later. After a frame
that does not read nothing is left. -/
def readWhole {α : Type} (ofSource? : Json.Source → Option α) (bs : Bytes) :
    List α × Option Bytes :=
  if isWhole bs then
    match _h : read ofSource? bs with
    | .message v rest =>
      let (vs, left) := readWhole ofSource? rest
      (v :: vs, left)
    | _ => ([], none)
  else ([], some bs)
termination_by bs.length
decreasing_by exact length_of_read _h

end NotebookKernels.Frame
