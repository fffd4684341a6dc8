import NotebookKernels.Execution.Result
import NotebookKernels.Proofs.Event.Decoding

/- Results read back.

   A result is written with its fields in any order, its events and its error too, and all of them may
   have fields that are not declared (`ExecutionResult.WrittenAs`). The text itself leaves the freedom that
   the syntax of JSON leaves. Whichever text it is, the result is read from it, and the printed texts are
   among them (`read_back`).
   What is needed of the result is what its types say in the program (`isProper`); free-form data nests as
   deep as the reader goes, and fields that are not declared inside an event have to keep to that too. -/
namespace NotebookKernels

open Json Json.Source

namespace OutputEvent

/-- The fields of an event with the name of its form, as they are written. -/
def sources (e : OutputEvent) : List (String × Source) :=
  (tagField, .string (some e.tag)) :: e.fields.map fun f => (f.1, ofValue f.2)

/-- The ways to write an event inside a result. All of it has a value, also what is not declared, and the
two brackets that are open around it count. -/
structure WrittenAs (e : OutputEvent) (s : Source) : Prop where
  scattered : Scattered (tagField :: fieldNames e.tag) e.sources s
  valid : ∃ w, s.value? = some w
  depth : s.depth + 2 ≤ nestingLimit

variable {e : OutputEvent}

theorem names_sources (e : OutputEvent) : e.sources.map (·.1) = tagField :: fieldNames e.tag := by
  rw [← names_fields e, sources, List.map_cons, List.map_map]
  rfl

theorem nodup_names (e : OutputEvent) : (tagField :: fieldNames e.tag).Nodup := by
  refine List.nodup_cons.mpr ⟨tagField_not_mem e.tag, ?_⟩
  cases e <;> simp [fieldNames, tag]

theorem output?_of_writtenAs {s : Source} (proper : e.isProper = true) (h : e.WrittenAs s) :
    ExecutionResult.output? s = some e := by
  obtain ⟨fs, rfl, once, hown⟩ := h.scattered.fields (names_sources e ▸ nodup_names e)
  rw [ExecutionResult.output?, if_pos h.depth]
  refine ofSource?_named proper once h.valid (hown _ (List.mem_cons_self ..)) fun f hf => ?_
  exact hown _ (List.mem_cons_of_mem _ (List.mem_map_of_mem hf))

theorem ofValue_json (e : OutputEvent) : ofValue e.json = .object (named e.sources) :=
  congrArg Source.object (ofFields_eq_named _)

/-- An event may be written as it is printed. -/
theorem writtenAs_json (depth : (ofValue e.json).depth + 2 ≤ nestingLimit) :
    e.WrittenAs (ofValue e.json) where
  scattered := by
    rw [ofValue_json]
    exact .plain ..
  valid := exists_value?_ofValue _
  depth := depth

end OutputEvent

namespace ExecutionError

/-- The fields of an error as they are written. -/
def sources (e : ExecutionError) : List (String × Source) := e.fields.map fun f => (f.1, ofValue f.2)

/-- The ways to write an error, or that there is none. -/
inductive WrittenAs : Option ExecutionError → Source → Prop
  | none : WrittenAs none .null
  | some {e : ExecutionError} {s : Source} (h : Scattered fieldNames e.sources s) :
    WrittenAs (some e) s

theorem ofSource?_of_scattered {e : ExecutionError} {s : Source}
    (h : Scattered fieldNames e.sources s) : ofSource? s = some e := by
  have names : e.sources.map (·.1) = fieldNames := rfl
  obtain ⟨r, hr, given⟩ := h.record? (names ▸ by decide) fun f hf => names ▸ List.mem_map_of_mem hf
  have hename := given ("ename", ofValue (.string e.ename)) (by simp [sources, fields])
  have hevalue := given ("evalue", ofValue (.string e.evalue)) (by simp [sources, fields])
  have htraceback := given ("traceback", ofValue (.array (e.traceback.map .string)))
    (by simp [sources, fields])
  simp only [ofSource?, hr, Option.bind_eq_bind, Option.bind_some, Option.pure_def,
    required_of_lookup hename (OutputEvent.string?_ofValue _),
    required_of_lookup hevalue (OutputEvent.string?_ofValue _),
    orElse_of_lookup htraceback [] (OutputEvent.list?_strings _)]

theorem nullable_of_writtenAs {e : Option ExecutionError} {s : Source} (h : WrittenAs e s) :
    Record.nullable ofSource? s = some e := by
  cases h with
  | none => rfl
  | @some e s h =>
    have hread := ofSource?_of_scattered h
    obtain @⟨fs, _, _, _⟩ := h
    show (ofSource? (.object (named fs))).map some = _
    rw [hread]
    rfl

end ExecutionError

namespace ExecutionResult

variable {r : ExecutionResult}

/-- Times and counts have 64 bits, and free-form data is in the order of its names. -/
def isProper (r : ExecutionResult) : Bool :=
  r.outputs.all OutputEvent.isProper && decide (r.startedAt < Decimal.wordLimit) &&
    r.completedAt.all (· < Decimal.wordLimit) && r.duration.all (· < Decimal.wordLimit) &&
    r.executionCount.all (· < Decimal.wordLimit)

/-- The fields of a result with its output and its error written in this way. -/
def sources (r : ExecutionResult) (outputs error : Source) : List (String × Source) :=
  r.fields.map fun f =>
    (f.1, if f.1 = "outputs" then outputs else if f.1 = "error" then error else ofValue f.2)

/-- The ways to write a result. -/
def WrittenAs (r : ExecutionResult) (s : Source) : Prop :=
  ∃ events error, List.Forall₂ OutputEvent.WrittenAs r.outputs events ∧
    ExecutionError.WrittenAs r.error error ∧
    Scattered fieldNames (r.sources (.array events) error) s

/-- Reads the text of a result. -/
def read? (t : Text) : Option ExecutionResult := (Source.read? t).bind ofSource?

theorem list?_of_writtenAs {events : List OutputEvent} {items : List Source}
    (proper : events.all OutputEvent.isProper = true)
    (h : List.Forall₂ OutputEvent.WrittenAs events items) :
    list? output? (.array items) = some events := by
  show items.mapM output? = some events
  induction h with
  | nil => rfl
  | @cons e s events items he hrest ih =>
    obtain ⟨hproper, hproper'⟩ := Bool.and_eq_true_iff.mp (List.all_cons ▸ proper)
    rw [List.mapM_cons, OutputEvent.output?_of_writtenAs hproper he, ih hproper']
    rfl

theorem choice?_status (s : ExecutionStatus) :
    choice? ExecutionStatus.ofText? (ofValue (.string s.text)) = some s := by
  cases s <;> decide

theorem nullable_string (s : Option String) :
    Record.nullable string? (ofValue (Json.ofOption .string s)) = some s := by
  cases s <;> rfl

/-- A result is read, however it is written. -/
theorem ofSource?_of_writtenAs {s : Source} (proper : r.isProper = true) (h : r.WrittenAs s) :
    ofSource? s = some r := by
  obtain ⟨events, error, hevents, herror, hscattered⟩ := h
  simp only [isProper, Bool.and_eq_true, decide_eq_true_eq] at proper
  obtain ⟨⟨⟨⟨hproper, hstarted⟩, hcompleted⟩, hduration⟩, hcount⟩ := proper
  have names : (r.sources (.array events) error).map (·.1) = fieldNames := rfl
  obtain ⟨x, hx, given⟩ := hscattered.record? (names ▸ by decide)
    fun f hf => names ▸ List.mem_map_of_mem hf
  simp only [sources, fields, List.map_cons, List.map_nil, List.forall_mem_cons, String.reduceEq,
    reduceIte, List.not_mem_nil, false_implies, implies_true, and_true] at given
  obtain ⟨hid, hkernel, hstatus, hcell, hread, hfailed, hfrom, hto, htook, hnumber⟩ := given
  simp only [ofSource?, hx, Option.bind_eq_bind, Option.bind_some, Option.pure_def,
    required_of_lookup hid (OutputEvent.string?_ofValue _),
    required_of_lookup hkernel (OutputEvent.string?_ofValue _),
    required_of_lookup hstatus (choice?_status _), orElse_of_lookup hcell none (nullable_string _),
    required_of_lookup hread (list?_of_writtenAs hproper hevents),
    optional_of_lookup hfailed (ExecutionError.nullable_of_writtenAs herror),
    required_of_lookup hfrom (OutputEvent.nat?_ofValue hstarted),
    optional_of_lookup hto (OutputEvent.nullable_count hcompleted),
    optional_of_lookup htook (OutputEvent.nullable_count hduration),
    optional_of_lookup hnumber (OutputEvent.nullable_count hcount)]

/-- A result may be written as it is printed. -/
theorem writtenAs_json (hdepth : (ofValue r.json).depth ≤ nestingLimit) :
    r.WrittenAs (ofValue r.json) := by
  let events := ofItems (r.outputs.map OutputEvent.json)
  let error := ofValue (Json.ofOption ExecutionError.json r.error)
  have hsources : ofValue r.json = .object (named (r.sources (.array events) error)) :=
    congrArg Source.object (ofFields_eq_named _)
  have hevents : List.Forall₂ OutputEvent.WrittenAs r.outputs events := by
    have hfield : depthItems events + 1 ≤ depthFields (named (r.sources (.array events) error)) :=
      depth_le_depthFields (s := .array events) (n := some "outputs")
        (by simp [sources, fields, named])
    have htop : depthFields (named (r.sources (.array events) error)) + 1 ≤ nestingLimit := by
      rwa [hsources] at hdepth
    have hmap : events = r.outputs.map fun e => ofValue e.json :=
      (ofItems_eq_map _).trans List.map_map
    rw [hmap, List.forall₂_map_right_iff, List.forall₂_same]
    intro e he
    have hitem : (ofValue e.json).depth ≤ depthItems events :=
      depth_le_depthItems (hmap ▸ List.mem_map_of_mem he)
    exact OutputEvent.writtenAs_json (by omega)
  have herror : ExecutionError.WrittenAs r.error error := by
    dsimp only [error]
    cases r.error with
    | none => exact .none
    | some e =>
      have hfields : ofValue e.json = .object (named e.sources) :=
        congrArg Source.object (ofFields_eq_named _)
      refine .some ?_
      show Scattered _ _ (ofValue e.json)
      rw [hfields]
      exact .plain ..
  refine ⟨_, _, hevents, herror, ?_⟩
  rw [hsources]
  exact .plain ..

/-- A result reads back from its text, on one line or on several, if there is no other number in its
free-form data than integers and the data does not nest too deep. It also reads back from every other
text of it: with its fields in another order, those of its events and of its error too, with more fields
in any of them, and in whatever way the syntax allows to write all this. -/
theorem read_back (r : ExecutionResult) (proper : r.isProper = true) :
    (r.json.integral = true → (ofValue r.json).depth ≤ nestingLimit →
      read? r.json.print = some r ∧ read? (r.json.printIndented 0) = some r) ∧
    ∀ s t, r.WrittenAs s → s.Spaced t → read? t = some r := by
  have hread : ∀ s, r.WrittenAs s → ofSource? s = some r := fun s => ofSource?_of_writtenAs proper
  refine ⟨fun integral depth => ⟨?_, ?_⟩, fun s t hs ht => ?_⟩
  · rw [read?, read?_print _ integral, Option.bind_some, hread _ (writtenAs_json depth)]
  · rw [read?, read?_printIndented _ integral, Option.bind_some, hread _ (writtenAs_json depth)]
  · rw [read?, read?_of_spaced ht, Option.bind_some, hread s hs]

/-- A record with its fields the other way round, and one more before them. -/
def turned (fields : List (String × Json)) : Json :=
  .object (fields ++ [("more", Json.array [.bool true])]).reverse

theorem scattered_turned (names : List String) (unknown : "more" ∉ names)
    (fields : List (String × Json)) :
    Scattered names (fields.map fun f => (f.1, ofValue f.2)) (ofValue (turned fields)) := by
  have hturned : ofValue (turned fields) = .object (named ((fields.map fun f => (f.1, ofValue f.2)) ++
      [("more", ofValue (Json.array [.bool true]))]).reverse) := by
    refine congrArg Source.object ((ofFields_eq_named _).trans ?_)
    rw [List.map_reverse, List.map_append]
    rfl
  rw [hturned]
  exact .mk (List.reverse_perm _) (by simpa using unknown)

/-- A result with output of every form, and with counts that could not be larger. -/
def crowded : ExecutionResult where
  id := ⟨"e"⟩
  kernel := ⟨"k"⟩
  status := .error
  cell := none
  outputs := [.stream .stderr "a\n", .executeResult [("text/plain", .nat 3)] (some 18446744073709551615),
    .displayData [], .error "E" "" ["t"]]
  error := some ⟨"E", "", ["t"]⟩
  startedAt := 18446744073709551615
  completedAt := none
  duration := some 0
  executionCount := some 18446744073709551615

/-- It reads back from its text, and from a text with everything in it the other way round. -/
theorem read_back_turned :
    let error := turned (ExecutionError.mk "E" "" ["t"]).fields
    let events := crowded.outputs.map fun e =>
      turned ((OutputEvent.tagField, .string e.tag) :: e.fields)
    let other := turned (crowded.fields.map fun f =>
      (f.1, if f.1 = "outputs" then .array events else if f.1 = "error" then error else f.2))
    read? crowded.json.print = some crowded ∧ read? other.print = some crowded := by
  intro error events other
  obtain ⟨printed, written⟩ := read_back crowded (by decide)
  refine ⟨(printed (by decide) (by decide)).1, written (ofValue other) _ ?_ ?_⟩
  · have hsources : crowded.sources (.array (ofItems events)) (ofValue error) =
        (crowded.fields.map fun f => (f.1, if f.1 = "outputs" then .array events
          else if f.1 = "error" then error else f.2)).map fun f => (f.1, ofValue f.2) := by
      rw [sources, List.map_map]
      refine List.map_congr_left fun f _ => ?_
      simp only [Function.comp_apply, apply_ite ofValue]
      rfl
    refine ⟨ofItems events, ofValue error, ?_, .some (scattered_turned _ (by decide) _), ?_⟩
    · rw [ofItems_eq_map, List.forall₂_map_right_iff, List.forall₂_map_right_iff, List.forall₂_same]
      intro e he
      have hscattered := (scattered_turned (OutputEvent.tagField :: OutputEvent.fieldNames e.tag) ·
        ((OutputEvent.tagField, .string e.tag) :: e.fields))
      simp only [crowded, List.mem_cons, List.not_mem_nil, or_false] at he
      rcases he with rfl | rfl | rfl | rfl <;>
        exact ⟨hscattered (by decide), exists_value?_ofValue _, by decide⟩
    · rw [hsources]
      exact scattered_turned fieldNames (by decide) _
  · exact spaced_of_writtenAs blanks_nil (writtenAs_print other (by decide +kernel))

end ExecutionResult
end NotebookKernels
