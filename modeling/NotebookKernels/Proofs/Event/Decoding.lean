import NotebookKernels.Event.Message
import NotebookKernels.Proofs.Json.Records

/- Output events read back.

   An object that names the form of an event, and has its fields, reads as that event, whatever else it
   has (`ofSource?_named`). A message names the form itself: its type is put in the place of anything that
   the content says about the form, so that the type alone decides what a message can be
   (`decoded_by_type`). -/
namespace NotebookKernels
open Json Source

namespace OutputEvent

variable {e : OutputEvent} {r : Record} {tag : String} {fs : List (String × Source)}

/-- Counters have 64 bits, and the fields of free-form data are in the order of their names. -/
def isProper : OutputEvent → Bool
  | .stream .. | .error .. => true
  | .executeResult data count => (Json.object data).ordered && count.all (· < Decimal.wordLimit)
  | .displayData data => (Json.object data).ordered

/-! ## Fields -/

theorem string?_ofValue (s : String) : string? (ofValue (.string s)) = some s := rfl

theorem choiceWithin?_name (n : StreamName) :
    choiceWithin? StreamName.ofText? (ofValue (.string n.text)) = some n := by
  cases n <;> decide

theorem bundle?_ofValue {data : MimeBundle} (h : (Json.object data).ordered = true) :
    bundle? (ofValue (.object data)) = some data := by
  rw [bundle?, value?_ofValue _ h]

theorem nat?_ofValue {n : Nat} (h : n < Decimal.wordLimit) : nat? (ofValue (.nat n)) = some n := by
  have hfits : 0 ≤ (n : Int) ∧ (n : Int) < Decimal.wordLimit := by omega
  show nat? (.number (some (.int n))) = _
  rw [nat?, if_pos hfits]
  rfl

theorem nullable_count {count : Option Nat} (h : count.all (· < Decimal.wordLimit) = true) :
    Record.nullable nat? (ofValue (Json.ofOption Json.nat count)) = some count := by
  cases count with
  | none => rfl
  | some n =>
    show (nat? (ofValue (.nat n))).map some = _
    rw [nat?_ofValue (by simpa using h)]
    rfl

theorem list?_strings (texts : List String) :
    list? string? (ofValue (.array (texts.map .string))) = some texts := by
  show (ofItems (texts.map .string)).mapM string? = some texts
  induction texts with
  | nil => rfl
  | cons t ts ih =>
    rw [List.map_cons, ofItems, List.mapM_cons, string?_ofValue, ih]
    rfl

/-- A record with an event's fields reads as the event. -/
theorem ofRecord?_of_given (proper : e.isProper = true)
    (given : ∀ f ∈ e.fields, r.given.lookup f.1 = some (ofValue f.2)) :
    ofRecord? e.tag r = some e := by
  cases e with
  | stream name text =>
    have hname := given ("name", .string name.text) (by simp [fields])
    have htext := given ("text", .string text) (by simp [fields])
    simp [ofRecord?, tag, Record.required, hname, htext, choiceWithin?_name, string?_ofValue]
  | executeResult data count =>
    obtain ⟨hdata, hcount⟩ := Bool.and_eq_true_iff.mp proper
    have hbundle := given ("data", .object data) (by simp [fields])
    have hnumber := given ("execution_count", Json.ofOption Json.nat count) (by simp [fields])
    simp [ofRecord?, tag, Record.required, Record.optional, hbundle, hnumber,
      bundle?_ofValue hdata, nullable_count hcount]
  | displayData data =>
    have hbundle := given ("data", .object data) (by simp [fields])
    simp [ofRecord?, tag, Record.required, hbundle, bundle?_ofValue proper]
  | error ename evalue traceback =>
    have hename := given ("ename", .string ename) (by simp [fields])
    have hevalue := given ("evalue", .string evalue) (by simp [fields])
    have htraceback := given ("traceback", .array (traceback.map .string)) (by simp [fields])
    simp [ofRecord?, tag, Record.required, Record.orElse, hename, hevalue, htraceback,
      list?_strings, string?_ofValue]

/-- The form of what is read is the one that was named. -/
theorem tag_of_ofRecord? (h : ofRecord? tag r = some e) : e.tag = tag := by
  rw [ofRecord?] at h
  simp only [Option.bind_eq_bind, Option.pure_def] at h
  split at h
  · next htag =>
    obtain ⟨name, -, h⟩ := Option.bind_eq_some_iff.mp h
    obtain ⟨text, -, h⟩ := Option.bind_eq_some_iff.mp h
    cases h
    exact htag.symm
  split at h
  · next htag =>
    obtain ⟨data, -, h⟩ := Option.bind_eq_some_iff.mp h
    obtain ⟨count, -, h⟩ := Option.bind_eq_some_iff.mp h
    cases h
    exact htag.symm
  split at h
  · next htag =>
    obtain ⟨data, -, h⟩ := Option.bind_eq_some_iff.mp h
    cases h
    exact htag.symm
  split at h
  · next htag =>
    obtain ⟨ename, -, h⟩ := Option.bind_eq_some_iff.mp h
    obtain ⟨evalue, -, h⟩ := Option.bind_eq_some_iff.mp h
    obtain ⟨traceback, -, h⟩ := Option.bind_eq_some_iff.mp h
    cases h
    exact htag.symm
  · cases h

/-! ## Objects -/

/-- The fields of an event are those that its form declares. -/
theorem names_fields (e : OutputEvent) : e.fields.map (·.1) = fieldNames e.tag := by
  cases e <;> rfl

theorem tagField_not_mem (tag : String) : tagField ∉ fieldNames tag := by
  rw [fieldNames]
  repeat' split
  all_goals decide

/-- No field of an event has the name of the field for its form. -/
theorem name_of_mem_fields {f : String × Json} (hf : f ∈ e.fields) :
    f.1 ∈ fieldNames e.tag ∧ f.1 ≠ tagField := by
  have hname : f.1 ∈ fieldNames e.tag := names_fields e ▸ List.mem_map_of_mem hf
  exact ⟨hname, fun heq => tagField_not_mem e.tag (heq ▸ hname)⟩

theorem filter_named (p : String → Bool) (fs : List (String × Source)) (q : Option String → Bool)
    (h : ∀ k, q (some k) = p k) :
    (named fs).filter (fun f => q f.1) = named (fs.filter fun f => p f.1) := by
  rw [named, List.filter_map]
  congr 2
  exact funext fun f => h f.1

/-- The form that an object names once. -/
theorem tag?_named (once : ((among [tagField] fs).map (·.1)).Nodup)
    (form : (tagField, .string (some tag)) ∈ fs) : tag? (named fs) = some tag := by
  have hfilter : (named fs).filter (·.1 = some tagField) = named (among [tagField] fs) :=
    filter_named (fun k => [tagField].contains k) fs (· = some tagField) (by simp)
  rw [tag?, hfilter, among_singleton once form]
  rfl

/-- An object with an event's fields and its form, none of them repeated, reads as the event. -/
theorem ofSource?_named (proper : e.isProper = true)
    (once : ((among (tagField :: fieldNames e.tag) fs).map (·.1)).Nodup)
    (valid : ∃ w, (Source.object (named fs)).value? = some w)
    (form : (tagField, .string (some e.tag)) ∈ fs)
    (given : ∀ f ∈ e.fields, (f.1, ofValue f.2) ∈ fs) :
    ofSource? (.object (named fs)) = some e := by
  obtain ⟨w, hw⟩ := valid
  have honly : ((among [tagField] fs).map (·.1)).Nodup :=
    once.sublist ((among_sublist (by simp) fs).map _)
  have hrest : (named fs).filter (·.1 ≠ some tagField) = named (fs.filter (·.1 ≠ tagField)) :=
    filter_named (· ≠ tagField) fs (· ≠ some tagField) (by simp)
  have hdeclared : ((among (fieldNames e.tag) (fs.filter (·.1 ≠ tagField))).map (·.1)).Nodup :=
    once.sublist (((List.filter_sublist.filter _).trans
      (among_sublist (List.subset_cons_self ..) fs)).map _)
  obtain ⟨r, hr, hgiven⟩ := record?_named hdeclared
  have hread : ofRecord? e.tag r = some e := by
    apply ofRecord?_of_given proper
    intro f hf
    obtain ⟨hname, hne⟩ := name_of_mem_fields hf
    exact hgiven f.1 hname _ (List.mem_filter.mpr ⟨given f hf, by simpa using hne⟩)
  have hopen : ofSource? (.object (named fs)) = (tag? (named fs)).bind fun tag =>
      ((Source.object ((named fs).filter (·.1 ≠ some tagField))).record? (fieldNames tag)).bind
        (ofRecord? tag) := by
    rw [ofSource?, hw]
    rfl
  rw [hopen, tag?_named honly form, Option.bind_some, hrest, hr, Option.bind_some, hread]

/-- An object is read as the form that it names. -/
theorem tag?_of_ofSource? {fs : List (Option String × Source)} (h : ofSource? (.object fs) = some e) :
    tag? fs = some e.tag := by
  rw [ofSource?] at h
  split at h
  · cases h
  · obtain ⟨tag, htag, h⟩ := Option.bind_eq_some_iff.mp h
    obtain ⟨r, -, h⟩ := Option.bind_eq_some_iff.mp h
    rw [htag, tag_of_ofRecord? h]

end OutputEvent

namespace RawMessage
open OutputEvent

variable {m : RawMessage} {e : OutputEvent} {fields : List (String × Json)}

/-- The content of a message with its form put into it. -/
def tagged (m : RawMessage) (fields : List (String × Json)) : List (String × Json) :=
  (tagField, .string m.type) :: fields.filter (·.1 ≠ tagField)

theorem decode?_of_output (h : m.type ∈ outputTypes) (hcontent : m.content = .object fields) :
    m.decode? = (OutputEvent.ofSource? (ofValue (.object (m.tagged fields)))).map .event := by
  rw [decode?, if_pos (by simpa using h), hcontent]
  rfl

theorem tag_mem (e : OutputEvent) : e.tag ∈ outputTypes := by
  cases e <;> simp [OutputEvent.tag, outputTypes]

theorem decode?_of_no_object (h : m.type ∈ outputTypes)
    (hcontent : ∀ fields, m.content ≠ .object fields) : m.decode? = none := by
  rw [decode?, if_pos (by simpa using h)]
  split
  · next fields heq => exact absurd heq (hcontent fields)
  · rfl

theorem decode?_of_other (h : m.type ∉ outputTypes) :
    m.decode? = if m.type = "status" then (KernelState.ofContent? m.content).map .status
      else none := by
  rw [decode?, if_neg (by simpa using h)]

/-- The content as it is read, once the form is in it. -/
def source (m : RawMessage) (fields : List (String × Json)) : List (String × Source) :=
  (m.tagged fields).map fun f => (f.1, ofValue f.2)

theorem ofValue_tagged (m : RawMessage) (fields : List (String × Json)) :
    ofValue (.object (m.tagged fields)) = .object (named (m.source fields)) :=
  congrArg Source.object (ofFields_eq_named (m.tagged fields))

theorem names_source (m : RawMessage) (fields : List (String × Json)) :
    (m.source fields).map (·.1) = tagField :: (fields.filter (·.1 ≠ tagField)).map (·.1) := by
  rw [source, List.map_map]
  rfl

theorem tagField_not_mem_kept (fields : List (String × Json)) :
    tagField ∉ (fields.filter (·.1 ≠ tagField)).map (·.1) := by
  intro hmem
  obtain ⟨f, hf, hname⟩ := List.mem_map.mp hmem
  exact absurd hname (by simpa using (List.mem_filter.mp hf).2)

/-- Nothing but the type of a message names its form, whatever the content has. -/
theorem tag?_source (m : RawMessage) (fields : List (String × Json)) :
    tag? (named (m.source fields)) = some m.type := by
  apply tag?_named
  · have hsingle : (among [tagField] (m.source fields)).map (·.1) =
        (tagField :: (fields.filter (·.1 ≠ tagField)).map (·.1)).filter ([tagField].contains ·) := by
      rw [← names_source, among, List.filter_map]
      rfl
    have hrest : ((fields.filter (·.1 ≠ tagField)).map (·.1)).filter ([tagField].contains ·) = [] := by
      rw [List.filter_eq_nil_iff]
      intro k hk hcontains
      have hk' : k = tagField := by simpa using hcontains
      exact tagField_not_mem_kept fields (hk' ▸ hk)
    rw [hsingle, List.filter_cons_of_pos (by simp), hrest]
    exact List.nodup_singleton _
  · exact List.mem_cons_self ..

/-- A message with an event's form and fields means the event. -/
theorem decode?_of_fields (proper : e.isProper = true) (once : (fields.map (·.1)).Nodup)
    (given : ∀ f ∈ e.fields, f ∈ fields) (parent : Option RequestId) :
    decode? ⟨parent, e.tag, .object fields⟩ = some (.event e) := by
  let m : RawMessage := ⟨parent, e.tag, .object fields⟩
  have hall : ((m.source fields).map (·.1)).Nodup := by
    rw [names_source]
    exact List.nodup_cons.mpr
      ⟨tagField_not_mem_kept fields, once.sublist (List.filter_sublist.map _)⟩
  have hgiven : ∀ f ∈ e.fields, (f.1, ofValue f.2) ∈ m.source fields := by
    intro f hf
    obtain ⟨-, hne⟩ := name_of_mem_fields hf
    have hkept : f ∈ m.tagged fields :=
      List.mem_cons_of_mem _ (List.mem_filter.mpr ⟨given f hf, by simpa using hne⟩)
    exact List.mem_map_of_mem hkept
  have hread : OutputEvent.ofSource? (ofValue (.object (m.tagged fields))) = some e := by
    rw [ofValue_tagged]
    exact ofSource?_named proper (hall.sublist (List.filter_sublist.map _))
      (ofValue_tagged m fields ▸ exists_value?_ofValue _) (List.mem_cons_self ..) hgiven
  rw [decode?_of_output (tag_mem e) rfl, hread]
  rfl

/-- What a message means is of the form that its type says. -/
theorem type_of_decode? {k : KernelMessage} (h : m.decode? = some k) :
    (∃ e, k = .event e ∧ e.tag = m.type) ∨ (∃ s, k = .status s ∧ m.type = "status") := by
  by_cases htype : m.type ∈ outputTypes
  · by_cases hcontent : ∃ fields, m.content = .object fields
    · obtain ⟨fields, hcontent⟩ := hcontent
      rw [decode?_of_output htype hcontent, ofValue_tagged] at h
      obtain ⟨e, hread, rfl⟩ := Option.map_eq_some_iff.mp h
      have htag := (tag?_of_ofSource? hread).symm.trans (tag?_source m fields)
      exact .inl ⟨e, rfl, Option.some.inj htag⟩
    · rw [decode?_of_no_object htype (not_exists.mp hcontent)] at h
      cases h
  · rw [decode?_of_other htype] at h
    split at h
    · next hstatus =>
      obtain ⟨s, -, rfl⟩ := Option.map_eq_some_iff.mp h
      exact .inr ⟨s, rfl, hstatus⟩
    · cases h

/-- A message whose type is the form of an event and whose content has what the event has as JSON,
its form apart, means that event, whatever else the content has and whatever it says of the form. No
message means output of another form than its type, or a status where its type is another; and one of
another type, or of output without an object, means nothing. -/
theorem decoded_by_type :
    (∀ (e : OutputEvent) (own fields : List (String × Json)) (parent : Option RequestId),
      e.isProper = true → e.json = .object own → (fields.map (·.1)).Nodup →
      (∀ f ∈ own, f.1 ≠ tagField → f ∈ fields) →
      decode? ⟨parent, e.tag, .object fields⟩ = some (.event e)) ∧
    (∀ m e, decode? m = some (.event e) → e.tag = m.type) ∧
    (∀ m s, decode? m = some (.status s) → m.type = "status") ∧
    (∀ m, m.type ∉ outputTypes → m.type ≠ "status" → decode? m = none) ∧
    (∀ m, m.type ∈ outputTypes → (∀ fields, m.content ≠ .object fields) → decode? m = none) := by
  refine ⟨?_, ?_, ?_, ?_, fun m => decode?_of_no_object⟩
  · intro e own fields parent proper hown once given
    obtain rfl := Json.object.inj hown
    apply decode?_of_fields proper once
    intro f hf
    exact given f (List.mem_cons_of_mem _ hf) (name_of_mem_fields hf).2
  · intro m e h
    rcases type_of_decode? h with ⟨d, hd, htag⟩ | ⟨s, hs, -⟩
    · exact KernelMessage.event.inj hd ▸ htag
    · cases hs
  · intro m s h
    rcases type_of_decode? h with ⟨e, he, -⟩ | ⟨s, -, htype⟩
    · cases he
    · exact htype
  · intro m houtput hstatus
    rw [decode?_of_other houtput, if_neg hstatus]

/-- Content of an error that calls itself a stream, with a field that no event has. -/
def disguised : List (String × Json) :=
  [("ename", .string "E"), ("evalue", .string ""), ("name", .string "stdout"),
    ("output_type", .string "stream"), ("traceback", .array [])]

/-- It is an error if its message says so, and nothing else. -/
theorem decoded_by_type_disguised :
    decode? ⟨none, "error", .object disguised⟩ = some (.event (.error "E" "" [])) ∧
    (∀ e, decode? ⟨none, "stream", .object disguised⟩ = some (.event e) → e.tag = "stream") ∧
    decode? ⟨none, "display_data", .string "nope"⟩ = none := by
  obtain ⟨events, outputs, -, -, shapeless⟩ := decoded_by_type
  refine ⟨?_, fun e => outputs _ e, ?_⟩
  · refine events (.error "E" "" []) _ disguised none rfl rfl (by decide) ?_
    intro f hf hne
    simp only [OutputEvent.fields, List.mem_cons, List.not_mem_nil, or_false] at hf
    rcases hf with rfl | rfl | rfl | rfl
    · exact absurd rfl hne
    · simp [disguised]
    · simp [disguised]
    · simp [disguised]
  · exact shapeless _ (by decide) (by simp)

end RawMessage
end NotebookKernels
