import NotebookKernels.Proofs.Wire.Frames

/- Reading a stream that was cut off.

   A stream of whole frames is cut after some number of bytes, as when the process at its other end
   dies while it writes.

   1. A proper beginning of a frame is never a message (`IsFrame.readAll_take`): with fewer than four of
      its bytes there is no header yet, and with more the body is too short.
   2. By induction on the frames, the whole frames before the cut are read, and then what is left of the
      next one decides how the reading ends (`readAll_cut`).

   So an early end is told from a cut in a body, and not from a cut in a header: there the stream just
   ends (`cut_in_header`). -/
namespace NotebookKernels.Frame

open Json
open Text (Bytes)

variable {α : Type} {ofSource? : Source → Option α} {x : α} {xs : List α} {frame : Bytes}
  {frames : List Bytes}

/-- The failure of a stream that ends in a body. -/
def cutShort : Failure := .channel "Failed to read IPC message body: early eof"

/-- The number of bytes in the first `k` frames. -/
def boundary (frames : List Bytes) (k : Nat) : Nat := (frames.take k).flatten.length

@[simp] theorem boundary_zero (frames : List Bytes) : boundary frames 0 = 0 := by simp [boundary]

@[simp] theorem boundary_cons (frame : Bytes) (frames : List Bytes) (k : Nat) :
    boundary (frame :: frames) (k + 1) = frame.length + boundary frames k := by
  simp [boundary]

/-! ## One frame -/

theorem read_of_length_lt {bytes : Bytes} (h : bytes.length < 4) :
    read ofSource? bytes = .ended := by
  obtain _ | ⟨a, _ | ⟨b, _ | ⟨c, _ | ⟨d, rest⟩⟩⟩⟩ := bytes
  · rfl
  · rfl
  · rfl
  · rfl
  · simp only [List.length_cons] at h
    omega

/-- A whole header and less than the body. -/
theorem IsFrame.read_take (h : IsFrame ofSource? x frame) {n : Nat} (hn : 4 ≤ n)
    (short : n < frame.length) : read ofSource? (frame.take n) = .failed cutShort := by
  obtain ⟨text, rfl, size, -⟩ := h
  obtain ⟨n, rfl⟩ := Nat.exists_eq_add_of_le' hn
  have hlength := bodyLength_header (Nat.lt_of_le_of_lt size (by decide))
  have htext : n < text.length := by
    simp only [header, List.cons_append, List.nil_append, List.length_cons] at short
    omega
  simp only [header, List.cons_append, List.nil_append, List.take_succ_cons, read, hlength]
  rw [if_neg (Nat.not_lt.mpr size), if_pos (by rw [List.length_take]; omega), cutShort]

/-- A proper beginning of a frame holds no message. -/
theorem IsFrame.readAll_take (h : IsFrame ofSource? x frame) {n : Nat} (short : n < frame.length) :
    readAll ofSource? (frame.take n) = ([], if n < 4 then .ok () else .error cutShort) := by
  by_cases hn : n < 4
  · rw [if_pos hn, readAll_of_ended (read_of_length_lt (by rw [List.length_take]; omega))]
  · rw [if_neg hn, readAll_of_failed (h.read_take (Nat.not_lt.mp hn) short)]

theorem isFrame_of_sendable {m : WireMessage} (h : Sendable m.json m.content) :
    IsFrame WireMessage.ofSource? m (header (body m.json).length ++ body m.json) :=
  isFrame_write (m.integral_json h.integral) h.size (WireMessage.ofSource?_json h)

/-! ## A stream of frames -/

/-- A stream of frames that is cut off: the whole frames before the cut are read. If the cut is at
their end or in the header of the next frame, the stream has ended; if it is in a body, that is an
error. -/
theorem readAll_cut (wellFormed : List.Forall₂ (IsFrame ofSource?) xs frames) {cut : Nat}
    (within : cut ≤ frames.flatten.length) :
    ∃ k ≤ frames.length, boundary frames k ≤ cut ∧
      (k < frames.length → cut < boundary frames (k + 1)) ∧
      readAll ofSource? (frames.flatten.take cut) =
        (xs.take k, if cut < boundary frames k + 4 then .ok () else .error cutShort) := by
  induction wellFormed generalizing cut with
  | nil =>
    obtain rfl : cut = 0 := by simpa using within
    exact ⟨0, Nat.le_refl _, by simp, by simp, by simpa using readAll_of_ended rfl⟩
  | @cons x frame xs frames hframe _ ih =>
    rw [List.flatten_cons, List.length_append] at within
    by_cases short : cut < frame.length
    · refine ⟨0, Nat.zero_le _, by simp, by simp [short], ?_⟩
      rw [List.flatten_cons, List.take_append_of_le_length (Nat.le_of_lt short),
        hframe.readAll_take short]
      simp
    · obtain ⟨d, rfl⟩ := Nat.exists_eq_add_of_le (Nat.not_lt.mp short)
      obtain ⟨k, hk, hle, hlt, hread⟩ := @ih d (by omega)
      refine ⟨k + 1, Nat.succ_le_succ hk, ?_, ?_, ?_⟩
      · rw [boundary_cons]
        omega
      · intro hk
        rw [boundary_cons]
        exact Nat.add_lt_add_left (hlt (Nat.lt_of_succ_lt_succ hk)) _
      · rw [List.flatten_cons, List.take_length_add_append, hframe.readAll_append, hread, boundary_cons]
        simp only [List.take_succ_cons, Nat.add_assoc, Nat.add_lt_add_iff_left]

/-- Two frames, and the second ends in its body. -/
theorem readAll_cut_in_body :
    let status : WireMessage := ⟨.iopub, "", "status", none, .null⟩
    let frame := header (body status.json).length ++ body status.json
    List.Forall₂ (IsFrame WireMessage.ofSource?) [status, status] [frame, frame] ∧
      frame.length + 10 ≤ [frame, frame].flatten.length ∧
      readAll WireMessage.ofSource? ([frame, frame].flatten.take (frame.length + 10)) =
        ([status], .error cutShort) := by
  intro status frame
  have sendable : Sendable status.json status.content :=
    ⟨rfl, by decide +kernel, by decide +kernel, by decide +kernel⟩
  have hframe : IsFrame WireMessage.ofSource? status frame := isFrame_of_sendable sendable
  have wellFormed : List.Forall₂ (IsFrame WireMessage.ofSource?) [status, status] [frame, frame] :=
    .cons hframe (.cons hframe .nil)
  have hlength : 10 < frame.length := by decide +kernel
  have hboundary : boundary [frame, frame] 1 = frame.length := by simp
  have hend : boundary [frame, frame] 2 = frame.length + frame.length := by simp
  have within : frame.length + 10 ≤ [frame, frame].flatten.length := by simp [hlength.le]
  obtain ⟨k, hk, hle, hlt, hread⟩ := readAll_cut wellFormed within
  refine ⟨wellFormed, within, ?_⟩
  obtain rfl : k = 1 := by
    obtain _ | _ | _ | k := k
    · have early : frame.length + 10 < boundary [frame, frame] 1 := hlt (by simp)
      omega
    · rfl
    · have late : boundary [frame, frame] 2 ≤ frame.length + 10 := hle
      omega
    · simp at hk
  rw [hread, hboundary, if_neg (by omega)]
  rfl

/-- One, two or three bytes of a header pass for the end of the stream. -/
theorem cut_in_header :
    let status : WireMessage := ⟨.iopub, "", "status", none, .null⟩
    let frame := header (body status.json).length ++ body status.json
    IsFrame WireMessage.ofSource? status frame ∧
      ∀ n ∈ [1, 2, 3], readAll WireMessage.ofSource? ([frame, frame].flatten.take (frame.length + n)) =
        ([status], .ok ()) := by
  intro status frame
  have sendable : Sendable status.json status.content :=
    ⟨rfl, by decide +kernel, by decide +kernel, by decide +kernel⟩
  have hframe : IsFrame WireMessage.ofSource? status frame := isFrame_of_sendable sendable
  refine ⟨hframe, fun n hn => ?_⟩
  have hlt : n < 4 := by
    simp only [List.mem_cons, List.not_mem_nil, or_false] at hn
    omega
  rw [List.flatten_cons, List.take_length_add_append, hframe.readAll_append,
    readAll_of_ended (read_of_length_lt (by rw [List.length_take]; omega))]

end NotebookKernels.Frame
