import Mathlib.Data.List.ReduceOption
import NotebookKernels.Listing.Inspector
import NotebookKernels.Proofs.Event.Decoding
import NotebookKernels.Proofs.Json.Acceptance

/- The variables that the output of a listing names.

   `Variable.IsRecord v item` says what it is for a JSON value to be a record of a variable, in either form
   in which records are written; nothing else reads as a variable (`ofSource?_ofValue`). The list is the
   last line that is a JSON array (`lastArray?_eq_some_iff`): what stands before it does not matter, and
   what stands after it must not be such a line (`Closing`). -/
namespace NotebookKernels

open Json Json.Source

namespace Variable

variable {v : Variable} {item : Json} {r : Record} {given : List (String × Json)} {k : String}

/-- The fields that these are give the variable. All but its name and its type may be left out. -/
structure HasFields (v : Variable) (given : List (String × Json)) : Prop where
  name : given.lookup "name" = some (.string v.name)
  type : given.lookup "type" = some (.string v.typeName)
  shape : (given.lookup "shape").getD (.string "") = .string v.shape
  preview : (given.lookup "preview").getD (.string "") = .string v.preview
  size : (given.lookup "size").getD (.nat 0) = .nat v.size
  word : v.size < Decimal.wordLimit

/-- The value is a record of the variable: an object with its fields, or an array of them in the order of
declaration, of which the last ones may be left out. -/
inductive IsRecord (v : Variable) : Json → Prop
  | object {fields : List (String × Json)} (h : v.HasFields fields) : IsRecord v (.object fields)
  | array {items : List Json} (few : items.length ≤ fieldNames.length)
    (h : v.HasFields (fieldNames.zip items)) : IsRecord v (.array items)

theorem string?_eq_some_iff {s : String} : string? (ofValue item) = some s ↔ item = .string s := by
  cases item <;> simp [ofValue, string?]

theorem nat?_eq_some_iff {n : Nat} :
    nat? (ofValue item) = some n ↔ item = .nat n ∧ n < Decimal.wordLimit := by
  constructor
  · intro h
    cases item with
    | number x =>
      cases x with
      | double bits => simp [ofValue, nat?] at h
      | int i =>
        simp only [ofValue, nat?] at h
        split at h
        · next hi =>
          obtain rfl := Option.some.inj h
          have habs : (i.toNat : Int) = i := Int.toNat_of_nonneg hi.1
          exact ⟨by rw [Json.nat, habs], by omega⟩
        · cases h
    | _ => simp [ofValue, nat?] at h
  · rintro ⟨rfl, h⟩
    exact OutputEvent.nat?_ofValue h

theorem required_iff {s : String} (h : r.given.lookup k = (given.lookup k).map ofValue) :
    r.required k string? = some s ↔ given.lookup k = some (.string s) := by
  rw [Record.required, h]
  cases given.lookup k with
  | none => simp
  | some item => simpa using string?_eq_some_iff

theorem orElse_string_iff {s d : String} (h : r.given.lookup k = (given.lookup k).map ofValue) :
    r.orElse k d string? = some s ↔ (given.lookup k).getD (.string d) = .string s := by
  rw [Record.orElse, h]
  cases given.lookup k with
  | none => simp
  | some item => simpa using string?_eq_some_iff

theorem orElse_nat_iff {n : Nat} (h : r.given.lookup k = (given.lookup k).map ofValue) :
    r.orElse k 0 nat? = some n ↔
      (given.lookup k).getD (.nat 0) = .nat n ∧ n < Decimal.wordLimit := by
  rw [Record.orElse, h]
  cases given.lookup k with
  | none =>
    constructor
    · intro hn
      obtain rfl := Option.some.inj hn
      exact ⟨rfl, by decide⟩
    · rintro ⟨hn, -⟩
      have : n = 0 := by simpa [Json.nat] using hn.symm
      exact congrArg some this.symm
  | some item => simpa using nat?_eq_some_iff

/-- A record with these fields reads as the variable that they give. -/
theorem ofSource?_of_record? {s : Source} (given : List (String × Json))
    (hr : s.record? fieldNames = some r)
    (h : ∀ k ∈ fieldNames, r.given.lookup k = (given.lookup k).map ofValue) :
    ofSource? s = some v ↔ v.HasFields given := by
  have hname := required_iff (s := v.name) (h "name" (by decide))
  have htype := required_iff (s := v.typeName) (h "type" (by decide))
  have hshape := orElse_string_iff (s := v.shape) (d := "") (h "shape" (by decide))
  have hpreview := orElse_string_iff (s := v.preview) (d := "") (h "preview" (by decide))
  have hsize := orElse_nat_iff (n := v.size) (h "size" (by decide))
  simp only [ofSource?, hr, Option.bind_eq_bind, Option.bind_some, Option.pure_def]
  constructor
  · intro hread
    obtain ⟨name, h₁, hread⟩ := Option.bind_eq_some_iff.mp hread
    obtain ⟨type, h₂, hread⟩ := Option.bind_eq_some_iff.mp hread
    obtain ⟨shape, h₃, hread⟩ := Option.bind_eq_some_iff.mp hread
    obtain ⟨preview, h₄, hread⟩ := Option.bind_eq_some_iff.mp hread
    obtain ⟨size, h₅, hread⟩ := Option.bind_eq_some_iff.mp hread
    obtain rfl := Option.some.inj hread
    obtain ⟨h₅, word⟩ := hsize.mp h₅
    exact ⟨hname.mp h₁, htype.mp h₂, hshape.mp h₃, hpreview.mp h₄, h₅, word⟩
  · rintro ⟨name, type, shape, preview, size, word⟩
    rw [hname.mpr name, htype.mpr type, hshape.mpr shape, hpreview.mpr preview,
      hsize.mpr ⟨size, word⟩]
    rfl

/-- A value reads as a variable if it is a record of it, and else not. -/
theorem ofSource?_ofValue (once : ∀ fields, item = .object fields → (fields.map (·.1)).Nodup) :
    ofSource? (ofValue item) = some v ↔ v.IsRecord item := by
  have other (h : (ofValue item).record? fieldNames = none) (hnot : ¬v.IsRecord item) :
      ofSource? (ofValue item) = some v ↔ v.IsRecord item := by
    simp [ofSource?, h, hnot]
  cases item with
  | object fields =>
    have hnamed : ofValue (.object fields) = .object (named (fields.map fun f => (f.1, ofValue f.2))) :=
      congrArg Source.object (ofFields_eq_named fields)
    have hnames : (fields.map fun f => (f.1, ofValue f.2)).map (·.1) = fields.map (·.1) :=
      List.map_map
    have honce : ((among fieldNames (fields.map fun f => (f.1, ofValue f.2))).map (·.1)).Nodup :=
      (hnames ▸ once fields rfl).sublist (List.filter_sublist.map _)
    rw [hnamed, ofSource?_of_record? fields (record?_object honce) fun k hk =>
      (lookup_among hk _).trans (lookup_ofValue fields k)]
    constructor
    · exact .object
    · rintro ⟨h⟩
      exact h
  | array items =>
    have hitems : ofValue (.array items) = .array (items.map ofValue) :=
      congrArg Source.array (ofItems_eq_map items)
    by_cases few : items.length ≤ fieldNames.length
    · have hr : (Source.array (items.map ofValue)).record? fieldNames =
          some ⟨true, fieldNames.zip (items.map ofValue)⟩ := if_pos (by simpa using few)
      have hzip : fieldNames.zip (items.map ofValue) =
          (fieldNames.zip items).map fun f => (f.1, ofValue f.2) := List.zip_map_right
      rw [hitems, ofSource?_of_record? (fieldNames.zip items) hr fun k hk =>
        hzip ▸ lookup_ofValue (fieldNames.zip items) k]
      constructor
      · exact .array few
      · rintro (_ | ⟨-, h⟩)
        exact h
    · refine other ?_ ?_
      · rw [hitems]
        exact if_neg (by simpa using few)
      · rintro (_ | ⟨hfew, -⟩)
        exact few hfew
  | null | bool | number | string => exact other rfl (by rintro ⟨⟩)

/-- What an item of a listing gives: the variable that it is a record of, if it is one. -/
inductive Entry (item : Json) : Option Variable → Prop
  | record {v : Variable} (h : v.IsRecord item) : Entry item (some v)
  | other (h : ∀ v : Variable, ¬v.IsRecord item) : Entry item none

theorem Entry.ofSource? {v? : Option Variable} (h : Entry item v?)
    (once : ∀ fields, item = .object fields → (fields.map (·.1)).Nodup) :
    Variable.ofSource? (ofValue item) = v? := by
  cases h with
  | record h => exact (ofSource?_ofValue once).mpr h
  | other h =>
    rw [Option.eq_none_iff_forall_ne_some]
    exact fun v hv => h v ((ofSource?_ofValue once).mp hv)

/-- The value that the JSON of a variable reads as: its fields are put in order. -/
def value (v : Variable) : Json :=
  .object [("name", .string v.name), ("preview", .string v.preview), ("shape", .string v.shape),
    ("size", .nat v.size), ("type", .string v.typeName)]

theorem value?_json (v : Variable) : (ofValue v.json).value? = some v.value := by
  have order : ¬"type" < "name" ∧ ¬"shape" < "name" ∧ "shape" < "type" ∧ ¬"preview" < "name" ∧
      "preview" < "shape" ∧ ¬"size" < "name" ∧ ¬"size" < "preview" ∧ ¬"size" < "shape" ∧
      "size" < "type" := by decide
  show some (Json.ofFields [("name", .string v.name), ("type", .string v.typeName),
    ("shape", .string v.shape), ("preview", .string v.preview), ("size", .nat v.size)]) = _
  simp [value, Json.ofFields, setField, order]

theorem isRecord_value (word : v.size < Decimal.wordLimit) : v.IsRecord v.value :=
  .object ⟨rfl, rfl, rfl, rfl, rfl, word⟩

/-- The JSON of some variables, however it is written, is an array of their records. -/
theorem writtenIn_of_spaced {vs : List Variable} {t : Text}
    (h : (ofValue (.array (vs.map json))).Spaced t) :
    (Json.array (vs.map value)).WrittenIn t := by
  have hitems : items? (ofItems (vs.map json)) = some (vs.map value) := by
    clear h
    induction vs with
    | nil => rfl
    | cons v vs ih => simp [ofItems, items?, value?_json, ih]
  have hdepth : depthItems (ofItems (vs.map json)) ≤ 1 := by
    clear h hitems
    induction vs with
    | nil => exact Nat.zero_le 1
    | cons v vs ih => exact Nat.max_le.mpr ⟨Nat.le_refl 1, ih⟩
  refine ⟨_, h, ?_, ?_⟩
  · exact Nat.le_trans (Nat.succ_le_succ hdepth) (by decide)
  · simp [ofValue, value?, hitems]

end Variable

namespace Inspector

variable {text line : Text} {items : List Json}

/-- The line is one of the text, and none after it is a JSON array. -/
inductive Closing (line text : Text) : Prop
  | mk {before after : List Text} (lines : Text.scriptLines text = before ++ line :: after)
    (last : ∀ l ∈ after, ∀ items, ¬(Json.array items).WrittenIn l.trim)

theorem arrayLine?_eq_some_iff :
    arrayLine? line = some items ↔ (Json.array items).WrittenIn line.trim := by
  rw [arrayLine?, ← Json.read?_eq_some_iff]
  cases h : Json.read? line.trim with
  | none => simp
  | some v => cases v <;> simp

/-- The items are those of the last line that is an array, whatever stands before it. -/
theorem lastArray?_eq_some_iff :
    lastArray? text = some items ↔
      ∃ line, Closing line text ∧ (Json.array items).WrittenIn line.trim := by
  have array_iff (l : Text) : arrayLine? l = none ↔ ∀ items, ¬(Json.array items).WrittenIn l.trim := by
    simp only [Option.eq_none_iff_forall_ne_some, ← arrayLine?_eq_some_iff, ne_eq]
  rw [lastArray?, List.findSome?_eq_some_iff]
  constructor
  · rintro ⟨after, line, before, lines, array, last⟩
    have hlines : Text.scriptLines text = before.reverse ++ line :: after.reverse := by
      simpa using congrArg List.reverse lines
    refine ⟨line, ⟨hlines, fun l hl => ?_⟩, arrayLine?_eq_some_iff.mp array⟩
    exact (array_iff l).mp (last l (List.mem_reverse.mp hl))
  · rintro ⟨line, closing, array⟩
    obtain @⟨before, after, lines, last⟩ := closing
    refine ⟨after.reverse, line, before.reverse, by simp [lines], arrayLine?_eq_some_iff.mpr array, ?_⟩
    exact fun l hl => (array_iff l).mpr (last l (List.mem_reverse.mp hl))

/-- A name that no user gives: one with an underscore at the front, or one of the interpreter's. -/
def Internal (name : String) : Prop := name.toList.head? = some '_' ∨ name ∈ pythonInternals

theorem isExcluded_iff (name : String) : python.isExcluded name = true ↔ Internal name := by
  simp [isExcluded, Internal]

instance (name : String) : Decidable (Internal name) := inferInstanceAs (Decidable (_ ∨ _))

/-- No internal name is listed. -/
theorem not_internal_of_mem_parse {stdout : String} {v : Variable} (h : v ∈ python.parse stdout) :
    ¬Internal v.name := by
  rw [parse] at h
  split at h
  · cases h
  · have hkept := (List.mem_filter.mp h).2
    rw [← isExcluded_iff]
    simpa using hkept

/-- The variables are those of the records in the last line that is an array, in order, but for internal
names. -/
theorem parse_of_closing {stdout : String} {vs : List (Option Variable)}
    (closing : Closing line stdout.toList) (array : (Json.array items).WrittenIn line.trim)
    (entries : List.Forall₂ Variable.Entry items vs) :
    python.parse stdout = vs.reduceOption.filter fun v => ¬Internal v.name := by
  have hdecode : items.map (fun item => Variable.ofSource? (ofValue item)) = vs := by
    obtain ⟨s, -, -, hvalue⟩ := array
    have once := nodup_of_array hvalue
    clear hvalue closing
    induction entries with
    | nil => rfl
    | @cons item v? items vs h hrest ih =>
      obtain ⟨hfirst, hothers⟩ := List.forall_mem_cons.mp once
      rw [List.map_cons, ih hothers, h.ofSource? hfirst]
  have hlist : items.filterMap (fun item => Variable.ofSource? (ofValue item)) = vs.reduceOption := by
    rw [← hdecode, List.reduceOption, List.filterMap_map]
    rfl
  rw [parse, lastArray?_eq_some_iff.mpr ⟨line, closing, array⟩]
  show (items.filterMap _).filter _ = _
  rw [hlist]
  apply List.filter_congr
  intro v _
  simp [← isExcluded_iff]

/-- The listing of variables that are written as JSON is these variables, but for internal names. -/
theorem parse_of_json {stdout : String} {vs : List Variable} (closing : Closing line stdout.toList)
    (written : (ofValue (.array (vs.map Variable.json))).Spaced line.trim)
    (words : ∀ v ∈ vs, v.size < Decimal.wordLimit) :
    python.parse stdout = vs.filter fun v => ¬Internal v.name := by
  have hentries : List.Forall₂ Variable.Entry (vs.map Variable.value) (vs.map some) := by
    rw [List.forall₂_map_left_iff, List.forall₂_map_right_iff, List.forall₂_same]
    exact fun v hv => .record (Variable.isRecord_value (words v hv))
  have hparse := parse_of_closing closing (Variable.writtenIn_of_spaced written) hentries
  have hall : (vs.map some).reduceOption = vs := by simp [List.reduceOption]
  rwa [hall] at hparse

end Inspector
end NotebookKernels
