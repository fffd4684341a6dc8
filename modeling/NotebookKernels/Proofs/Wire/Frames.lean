import NotebookKernels.Proofs.Json.Reading
import NotebookKernels.Proofs.Text.Utf8
import NotebookKernels.Wire.Frame

/- Messages that were written as frames read back.

   1. A header gives the length of its body back (`bodyLength_header`), so a frame is read to its last
      byte and no further, and the next one starts where it ends (`IsFrame.read_append`).
   2. The body is the printed message, which reads as the message's own source (`isFrame_write`); from
      that a request and a message are made again, field by field (`ofSource?_json`).
   3. By induction on the messages, what was written is what is read, and then the stream ends
      (`readAll_writeAll`). -/
namespace NotebookKernels

open Json

namespace Frame

open Text (Bytes)

/-- The frames for these values, one after the other; the first that is too large is refused. -/
def writeAll (vs : List Json) : Except Failure Bytes := (vs.mapM write).map List.flatten

/-- A message with this content can be sent: the content is free-form data without doubles, and the
message neither nests too deep nor is too large. -/
structure Sendable (message content : Json) : Prop where
  integral : content.integral = true
  ordered : content.ordered = true
  nesting : (Source.ofValue message).depth ≤ nestingLimit
  size : (body message).length ≤ maxBody

variable {α : Type} {ofSource? : Source → Option α} {v : Json} {x : α}

/-! ## One frame -/

theorem bodyLength_header {n : Nat} (h : n < 4294967296) :
    bodyLength (.ofNat n) (.ofNat (n / 256)) (.ofNat (n / 65536)) (.ofNat (n / 16777216)) = n := by
  simp only [bodyLength, UInt8.toNat_ofNat']
  omega

theorem write_eq (size : (body v).length ≤ maxBody) :
    write v = .ok (header (body v).length ++ body v) := by
  simp [write, Nat.not_lt.mpr size]

/-- The bytes are a frame for the value: the length of a body that is not too large, and the body,
which reads as the value. -/
def IsFrame (ofSource? : Source → Option α) (x : α) (frame : Bytes) : Prop :=
  ∃ text, frame = header text.length ++ text ∧ text.length ≤ maxBody ∧
    (Source.read? (Text.ofBytes text)).bind ofSource? = some x

theorem isFrame_write (integral : v.integral = true) (size : (body v).length ≤ maxBody)
    (decodes : ofSource? (.ofValue v) = some x) :
    IsFrame ofSource? x (header (body v).length ++ body v) := by
  refine ⟨body v, rfl, size, ?_⟩
  rw [body, Text.Utf8.ofBytes_encode, read?_print v integral, Option.bind_some, decodes]

/-- A frame is read to its end, whatever follows. -/
theorem IsFrame.read_append {frame : Bytes} (h : IsFrame ofSource? x frame) (rest : Bytes) :
    read ofSource? (frame ++ rest) = .message x rest := by
  obtain ⟨text, rfl, size, decodes⟩ := h
  have hlength := bodyLength_header (Nat.lt_of_le_of_lt size (by decide))
  simp only [header, List.cons_append, List.nil_append, read, hlength]
  rw [if_neg (Nat.not_lt.mpr size), if_neg (by rw [List.length_append]; omega),
    List.take_left, List.drop_left, decodes]

/-! ## Many frames -/

section

variable {bytes rest : Bytes}

theorem readAll_of_ended (h : read ofSource? bytes = .ended) :
    readAll ofSource? bytes = ([], .ok ()) := by
  rw [readAll]
  split <;> simp_all

theorem readAll_of_failed {f : Failure} (h : read ofSource? bytes = .failed f) :
    readAll ofSource? bytes = ([], .error f) := by
  rw [readAll]
  split <;> simp_all

theorem readAll_of_message (h : read ofSource? bytes = .message x rest) :
    readAll ofSource? bytes = (x :: (readAll ofSource? rest).1, (readAll ofSource? rest).2) := by
  rw [readAll]
  split <;> simp_all

end

theorem IsFrame.readAll_append {frame : Bytes} (h : IsFrame ofSource? x frame) (rest : Bytes) :
    readAll ofSource? (frame ++ rest) =
      (x :: (readAll ofSource? rest).1, (readAll ofSource? rest).2) :=
  readAll_of_message (h.read_append rest)

theorem writeAll_cons {vs : List Json} {bytes : Bytes} (size : (body v).length ≤ maxBody)
    (tail : writeAll vs = .ok bytes) :
    writeAll (v :: vs) = .ok (header (body v).length ++ body v ++ bytes) := by
  unfold writeAll at tail ⊢
  rw [List.mapM_cons, write_eq size]
  cases hvs : vs.mapM write with
  | error f =>
    rw [hvs] at tail
    cases tail
  | ok frames =>
    rw [hvs] at tail
    obtain rfl : frames.flatten = bytes := Except.ok.inj tail
    rfl

/-- Whatever a value is made from: if each of the messages can be written and made again, all of them
read back. -/
theorem readAll_of_decodes (json : α → Json) (xs : List α)
    (each : ∀ x ∈ xs, (json x).integral = true ∧ (body (json x)).length ≤ maxBody ∧
      ofSource? (.ofValue (json x)) = some x) :
    ∃ bytes, writeAll (xs.map json) = .ok bytes ∧ readAll ofSource? bytes = (xs, .ok ()) := by
  induction xs with
  | nil => exact ⟨[], rfl, readAll_of_ended rfl⟩
  | cons x xs ih =>
    obtain ⟨integral, size, decodes⟩ := each x (List.mem_cons_self ..)
    obtain ⟨bytes, written, reads⟩ := ih fun y hy => each y (List.mem_cons_of_mem _ hy)
    refine ⟨_, writeAll_cons size written, ?_⟩
    rw [(isFrame_write integral size decodes).readAll_append, reads]

end Frame

/-! ## Requests and messages -/

theorem Json.valueWithin?_ofValue {v : Json} {room : Nat} (ordered : v.ordered = true)
    (nesting : (Source.ofValue v).depth ≤ room) :
    (Source.ofValue v).valueWithin? room = some v := by
  rw [Source.valueWithin?, if_pos nesting, value?_ofValue v ordered]

namespace WireRequest

theorem integral_json (r : WireRequest) (h : r.content.integral = true) :
    r.json.integral = true := by
  simp [json, integral, integralFields, h]

/-- The bracket of the request is one of those that may nest. -/
theorem depth_content {r : WireRequest} (h : (Source.ofValue r.json).depth ≤ nestingLimit) :
    (Source.ofValue r.content).depth ≤ nestingLimit - 1 := by
  simp only [json, Source.ofValue, Source.ofFields, Source.depth, Source.depthFields] at h
  omega

theorem ofSource?_json {r : WireRequest} (h : Frame.Sendable r.json r.content) :
    ofSource? (.ofValue r.json) = some r := by
  have content := Json.valueWithin?_ofValue h.ordered (depth_content h.nesting)
  have fields : (Source.ofValue r.json).record? ["msg_id", "msg_type", "content"] =
      some ⟨false, [("msg_id", .string (some r.id.text)), ("msg_type", .string (some r.type)),
        ("content", .ofValue r.content)]⟩ := rfl
  simp [ofSource?, fields, Record.required, List.lookup_cons, Source.string?, content]

end WireRequest

namespace WireMessage

theorem integral_json (m : WireMessage) (h : m.content.integral = true) :
    m.json.integral = true := by
  cases hp : m.parent <;> simp [json, integral, integralFields, ofOption, hp, h]

theorem depth_content {m : WireMessage} (h : (Source.ofValue m.json).depth ≤ nestingLimit) :
    (Source.ofValue m.content).depth ≤ nestingLimit - 1 := by
  simp only [json, Source.ofValue, Source.ofFields, Source.depth, Source.depthFields] at h
  omega

theorem ofSource?_json {m : WireMessage} (h : Frame.Sendable m.json m.content) :
    ofSource? (.ofValue m.json) = some m := by
  obtain ⟨channel, id, type, parent, content⟩ := m
  have hcontent := Json.valueWithin?_ofValue h.ordered (depth_content h.nesting)
  have fields : (Source.ofValue (json ⟨channel, id, type, parent, content⟩)).record?
      ["channel", "msg_id", "msg_type", "parent_id", "content"] =
      some ⟨false, [("channel", .string (some channel.text)), ("msg_id", .string (some id)),
        ("msg_type", .string (some type)),
        ("parent_id", .ofValue (ofOption (.string ·.text) parent)),
        ("content", .ofValue content)]⟩ := rfl
  have hchannel : WireChannel.ofText? channel.text = some channel := by cases channel <;> rfl
  have hparent : (Record.nullable Source.string? (.ofValue (ofOption (.string ·.text) parent))) =
      some (parent.map RequestId.text) := by cases parent <;> rfl
  have hmap : (parent.map RequestId.text).map RequestId.mk = parent := by cases parent <;> rfl
  simp [ofSource?, fields, Record.required, Record.orElse, List.lookup_cons, Source.string?,
    Source.choice?, hchannel, hparent, hmap, hcontent]

end WireMessage

namespace Frame

/-- What is written frame by frame is read back message by message, with nothing left over. -/
theorem readAll_writeAll :
    (∀ rs : List WireRequest, (∀ r ∈ rs, Sendable r.json r.content) →
      ∃ bytes, writeAll (rs.map WireRequest.json) = .ok bytes ∧
        readAll WireRequest.ofSource? bytes = (rs, .ok ())) ∧
    (∀ ms : List WireMessage, (∀ m ∈ ms, Sendable m.json m.content) →
      ∃ bytes, writeAll (ms.map WireMessage.json) = .ok bytes ∧
        readAll WireMessage.ofSource? bytes = (ms, .ok ())) := by
  constructor
  · intro rs sendable
    refine readAll_of_decodes WireRequest.json rs fun r hr => ?_
    exact ⟨r.integral_json (sendable r hr).integral, (sendable r hr).size,
      WireRequest.ofSource?_json (sendable r hr)⟩
  · intro ms sendable
    refine readAll_of_decodes WireMessage.json ms fun m hm => ?_
    exact ⟨m.integral_json (sendable m hm).integral, (sendable m hm).size,
      WireMessage.ofSource?_json (sendable m hm)⟩

/-- A request, and a reply to it and output of nobody's whose content nests and is escaped. -/
theorem readAll_writeAll_nested :
    let run : WireRequest := ⟨⟨"r1"⟩, "execute_request",
      .object [("code", .string "print(\"é\")\n"), ("silent", .bool false)]⟩
    let output : WireMessage := ⟨.iopub, "", "stream", none,
      .object [("data", .array [.number (.int (-3)), .null, .object []])]⟩
    let reply : WireMessage := ⟨.shell, "m2", "execute_reply", some ⟨"r1"⟩, .null⟩
    (∃ bytes, writeAll [run.json, run.json] = .ok bytes ∧
      readAll WireRequest.ofSource? bytes = ([run, run], .ok ())) ∧
    (∃ bytes, writeAll [output.json, reply.json] = .ok bytes ∧
      readAll WireMessage.ofSource? bytes = ([output, reply], .ok ())) := by
  intro run output reply
  refine ⟨readAll_writeAll.1 [run, run] ?_, readAll_writeAll.2 [output, reply] ?_⟩
  · simp only [List.mem_cons, List.not_mem_nil, or_false, or_self, forall_eq]
    exact ⟨rfl, by decide +kernel, by decide +kernel, by decide +kernel⟩
  · simp only [List.mem_cons, List.not_mem_nil, or_false, forall_eq_or_imp, forall_eq]
    exact ⟨⟨rfl, by decide +kernel, by decide +kernel, by decide +kernel⟩,
      ⟨rfl, by decide +kernel, by decide +kernel, by decide +kernel⟩⟩

end Frame
end NotebookKernels
