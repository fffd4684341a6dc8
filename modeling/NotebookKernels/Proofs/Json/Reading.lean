import Mathlib.Data.String.Basic
import NotebookKernels.Proofs.Identifier
import NotebookKernels.Proofs.Json.Syntax

/- A value that was printed reads back as the same value.

   Both printers keep to the syntax (`writtenAs_print`, `writtenAs_printIndented`), so that what they print
   reads as the value's own source, with its fields in the order in which they stand (`read?_print`,
   `read?_printIndented`). Numbers have to be integers of 64 bits (`integral`).
   From its source a value is made again if the fields of its objects are in order (`ordered`), as those of
   free-form data are (`value?_ofValue`). -/
namespace NotebookKernels.Json

open Decimal

mutual
/-- Are all numbers in the value integers of 64 bits? -/
def integral : Json → Bool
  | .number n => n.isWord
  | .array items => integralItems items
  | .object fields => integralFields fields
  | .null | .bool _ | .string _ => true
def integralItems : List Json → Bool
  | [] => true
  | v :: r => integral v && integralItems r
def integralFields : List (String × Json) → Bool
  | [] => true
  | (_, v) :: r => integral v && integralFields r
end

mutual
/-- Are the fields of all objects in the value in the order of their names, each name once? -/
def ordered : Json → Bool
  | .array items => orderedItems items
  | .object fields => decide ((fields.map (·.1)).Pairwise (· < ·)) && orderedFields fields
  | .null | .bool _ | .number _ | .string _ => true
def orderedItems : List Json → Bool
  | [] => true
  | v :: r => ordered v && orderedItems r
def orderedFields : List (String × Json) → Bool
  | [] => true
  | (_, v) :: r => ordered v && orderedFields r
end

/-! ## Printed texts -/

open Reader (Blanks StringText)
open Source (WrittenAs Spaced ItemsWrittenAs FieldWrittenAs FieldsWrittenAs named)

theorem code?_control {n : Nat} (h : n < 0x20) :
    Reader.code? '0' '0' (digitChar (n / 16)) (digitChar (n % 16)) = some n := by
  have high : hexDigit? (digitChar (n / 16)) = some (n / 16) := hexDigit?_digitChar (by omega)
  have low : hexDigit? (digitChar (n % 16)) = some (n % 16) := hexDigit?_digitChar (by omega)
  have zero : hexDigit? '0' = some 0 := rfl
  simp only [Reader.code?, zero, high, low, Option.bind_eq_bind, Option.bind_some, Option.pure_def,
    Nat.zero_mul, Nat.zero_add, Option.some.injEq]
  omega

/-- Every character of a string is written in one of the ways. -/
theorem stringText_escape (c : Char) {s t : Text} (tail : StringText s t) :
    StringText (c :: s) (escape c ++ t) := by
  unfold escape
  split
  · next h => subst h; exact .short rfl tail
  split
  · next h => subst h; exact .short rfl tail
  split
  · next h => subst h; exact .short rfl tail
  split
  · next h => subst h; exact .short rfl tail
  split
  · next h => subst h; exact .short rfl tail
  split
  · next h => subst h; exact .short rfl tail
  split
  · next h => subst h; exact .short rfl tail
  split
  · next control => exact .code (code?_control control) tail
  · next quote slash _ _ _ _ _ printable => exact .plain quote slash printable tail

theorem stringText_quote (s : Text) : StringText s (s.flatMap escape) := by
  induction s with
  | nil => exact .nil
  | cons c s ih => exact stringText_escape c ih

theorem ofFields_eq_named (fs : List (String × Json)) :
    Source.ofFields fs = named (fs.map fun f => (f.1, .ofValue f.2)) := by
  induction fs with
  | nil => rfl
  | cons f fs ih =>
    rw [Source.ofFields, ih]
    rfl

theorem ofItems_eq_map (xs : List Json) : Source.ofItems xs = xs.map .ofValue := by
  induction xs with
  | nil => rfl
  | cons x xs ih =>
    rw [Source.ofItems, ih]
    rfl

theorem blanks_nil : Blanks [] := by simp [Blanks]

theorem blanks_newLine (level : Nat) : Blanks (newLine level) := by
  intro c hc
  rcases List.mem_cons.mp hc with rfl | hc
  · simp
  · simp [List.eq_of_mem_replicate hc]

/-- A value needs no blanks around it. -/
theorem spaced_of_writtenAs {s : Source} {b t : Text} (before : Blanks b) (h : s.WrittenAs t) :
    s.Spaced (b ++ t) := by
  have hspaced := Spaced.mk before h blanks_nil
  rwa [List.append_nil] at hspaced

/-- A field with blanks before its name, and perhaps around its value. -/
theorem fieldWrittenAs_quote {b t : Text} (before : Blanks b) (k : String) {x : Source}
    (h : x.Spaced t) : FieldWrittenAs (k, x) (b ++ (quote k ++ ':' :: t)) := by
  have hfield := FieldWrittenAs.mk before (stringText_quote k.toList) blanks_nil h
  simpa [quote] using hfield

/-- The text of a value is written by the syntax. -/
theorem writtenAs_print (v : Json) (integral : v.integral = true) :
    (Source.ofValue v).WrittenAs v.print := by
  have field (k : String) {x : Source} {t : Text} (h : x.WrittenAs t) :
      FieldWrittenAs (k, x) (quote k ++ ':' :: t) :=
    fieldWrittenAs_quote blanks_nil k (spaced_of_writtenAs blanks_nil h)
  have key := print.mutual_induct
    (fun v => v.integral = true → (Source.ofValue v).WrittenAs v.print)
    (fun fs => ∀ f t, FieldWrittenAs f t → integralFields fs = true →
      FieldsWrittenAs (f :: fs.map fun f => (f.1, .ofValue f.2)) (t ++ printFields fs))
    (fun xs => ∀ x t, Source.WrittenAs x t → integralItems xs = true →
      ItemsWrittenAs (x :: Source.ofItems xs) (t ++ printItems xs))
    (fun _ => .null) (fun _ => .true) (fun _ => .false) ?_
    (fun s _ => .string (stringText_quote s.toList)) (fun _ => .emptyArray blanks_nil) ?_
    (fun _ => .emptyObject blanks_nil) ?_
    (fun x t h _ => .last (spaced_of_writtenAs blanks_nil h)) ?_ (fun f t h _ => .last h) ?_
  · exact key.1 v integral
  · intro n word
    obtain ⟨m, hm, hvalue⟩ := Numeral.exists_writtenAs_text word
    show (Source.number (some n)).WrittenAs n.text
    exact hvalue ▸ .number hm
  · intro x xs hx hxs h
    obtain ⟨hx', hxs'⟩ := Bool.and_eq_true_iff.mp h
    exact .array (hxs _ _ (hx hx') hxs')
  · intro k v fs hv hfs h
    obtain ⟨hv', hfs'⟩ := Bool.and_eq_true_iff.mp h
    have hfields := hfs _ _ (field k (hv hv')) hfs'
    rw [List.append_assoc] at hfields
    rw [Source.ofValue, ofFields_eq_named]
    exact .object hfields
  · intro y ys hy hys x t hx h
    obtain ⟨hy', hys'⟩ := Bool.and_eq_true_iff.mp h
    exact .cons (spaced_of_writtenAs blanks_nil hx) (hys _ _ (hy hy') hys')
  · intro k v fs hv hfs f t hf h
    obtain ⟨hv', hfs'⟩ := Bool.and_eq_true_iff.mp h
    have hfields := hfs _ _ (field k (hv hv')) hfs'
    rw [List.append_assoc] at hfields
    exact .cons hf hfields

/-- So is the text with one item or field on a line. -/
theorem writtenAs_printIndented (level : Nat) (v : Json) (integral : v.integral = true) :
    (Source.ofValue v).WrittenAs (v.printIndented level) := by
  have field (level : Nat) (k : String) {x : Source} {t b : Text} (h : x.WrittenAs t)
      (behind : Blanks b) :
      FieldWrittenAs (k, x) (newLine level ++ (quote k ++ ':' :: ' ' :: (t ++ b))) := by
    have blank : Blanks [' '] := by simp [Reader.Blanks]
    exact fieldWrittenAs_quote (blanks_newLine level) k (.mk blank h behind)
  have key := printIndented.mutual_induct
    (fun level v => v.integral = true → (Source.ofValue v).WrittenAs (v.printIndented level))
    (fun level fs => ∀ k x t, Source.WrittenAs x t → integralFields fs = true →
      FieldsWrittenAs ((k, x) :: fs.map fun f => (f.1, .ofValue f.2))
        (newLine (level + 1) ++ (quote k ++ ':' :: ' ' :: (t ++ printIndentedFields level fs))))
    (fun level xs => ∀ x t, Source.WrittenAs x t → integralItems xs = true →
      ItemsWrittenAs (x :: Source.ofItems xs)
        (newLine (level + 1) ++ (t ++ printIndentedItems level xs)))
    ?_ ?_ ?_ ?_ ?_ ?_ ?_
  · exact key.1 level v integral
  · intro level x xs hx hxs h
    obtain ⟨hx', hxs'⟩ := Bool.and_eq_true_iff.mp h
    exact .array (hxs _ _ (hx hx') hxs')
  · intro level k v fs hv hfs h
    obtain ⟨hv', hfs'⟩ := Bool.and_eq_true_iff.mp h
    rw [Source.ofValue, ofFields_eq_named]
    exact .object (hfs k _ _ (hv hv') hfs')
  · intro level v harray hobject h
    rw [printIndented.eq_3 level v harray hobject]
    exact writtenAs_print v h
  · intro level x t hx h
    have hlast := ItemsWrittenAs.last (.mk (blanks_newLine (level + 1)) hx (blanks_newLine level))
    simpa [printIndentedItems, Source.ofItems] using hlast
  · intro level y ys hy hys x t hx h
    obtain ⟨hy', hys'⟩ := Bool.and_eq_true_iff.mp h
    have hcons := ItemsWrittenAs.cons (spaced_of_writtenAs (blanks_newLine (level + 1)) hx)
      (hys _ _ (hy hy') hys')
    simpa [printIndentedItems, Source.ofItems] using hcons
  · intro level k x t hx h
    have hlast := FieldsWrittenAs.last (field (level + 1) k hx (blanks_newLine level))
    simpa [printIndentedFields] using hlast
  · intro level l v fs hv hfs k x t hx h
    obtain ⟨hv', hfs'⟩ := Bool.and_eq_true_iff.mp h
    have hcons := FieldsWrittenAs.cons (field (level + 1) k hx blanks_nil)
      (hfs l _ _ (hv hv') hfs')
    simpa [printIndentedFields] using hcons

/-- The text of a value reads as the value's own source. -/
theorem read?_print (v : Json) (integral : v.integral = true) :
    Source.read? v.print = some (.ofValue v) :=
  Source.read?_of_spaced (spaced_of_writtenAs blanks_nil (writtenAs_print v integral))

theorem read?_printIndented (v : Json) (integral : v.integral = true) :
    Source.read? (v.printIndented 0) = some (.ofValue v) :=
  Source.read?_of_spaced (spaced_of_writtenAs blanks_nil (writtenAs_printIndented 0 v integral))

/-! ## From the source to the value -/

/-- A field whose name comes after all others comes last. -/
theorem setField_append {k : String} {fs : List (String × Json)} (v : Json)
    (last : ∀ l ∈ fs.map (·.1), l < k) : setField k v fs = fs ++ [(k, v)] := by
  induction fs with
  | nil => rfl
  | cons f fs ih =>
    obtain ⟨l, w⟩ := f
    have hl : l < k := last l (List.mem_cons_self ..)
    rw [setField, if_neg (String.lt_asymm hl), if_neg (String.ne_of_lt hl).symm,
      ih fun m hm => last m (List.mem_cons_of_mem _ hm)]
    rfl

/-- Fields in the order of their names stay as they are. -/
theorem ofFields_eq {fs : List (String × Json)} (h : (fs.map (·.1)).Pairwise (· < ·)) :
    ofFields fs = .object fs := by
  have key : ∀ done : List (String × Json), ((done ++ fs).map (·.1)).Pairwise (· < ·) →
      fs.foldl (fun acc f => setField f.1 f.2 acc) done = done ++ fs := by
    clear h
    induction fs with
    | nil =>
      intro done _
      exact (List.append_nil done).symm
    | cons f fs ih =>
      intro done h
      have hlast : ∀ l ∈ done.map (·.1), l < f.1 := by
        intro l hl
        rw [List.map_append, List.pairwise_append] at h
        exact h.2.2 l hl f.1 (List.mem_cons_self ..)
      rw [List.foldl_cons, setField_append f.2 hlast]
      have hnext := ih (done ++ [f]) (by rwa [List.append_assoc])
      rwa [List.append_assoc] at hnext
  exact congrArg Json.object (key [] h)

/-- Setting a field keeps the fields in the order of their names. -/
theorem pairwise_setField (k : String) (v : Json) {fs : List (String × Json)}
    (h : (fs.map (·.1)).Pairwise (· < ·)) : ((setField k v fs).map (·.1)).Pairwise (· < ·) := by
  have mem : ∀ (fs : List (String × Json)) l, l ∈ (setField k v fs).map (·.1) →
      l = k ∨ l ∈ fs.map (·.1) := by
    intro fs
    induction fs with
    | nil => simp [setField]
    | cons f fs ih =>
      intro l hl
      rw [setField] at hl
      split at hl
      · simpa using hl
      split at hl
      · simp at hl ⊢; tauto
      · rw [List.map_cons, List.mem_cons] at hl
        rcases hl with rfl | hl
        · simp
        · rcases ih l hl with rfl | hl
          · exact .inl rfl
          · exact .inr (List.mem_cons_of_mem _ hl)
  induction fs with
  | nil => simp [setField]
  | cons f fs ih =>
    obtain ⟨l, w⟩ := f
    obtain ⟨hfirst, hrest⟩ := List.pairwise_cons.mp h
    rw [setField]
    split
    · next hlt =>
      refine List.pairwise_cons.mpr ⟨?_, h⟩
      intro m hm
      rcases List.mem_cons.mp hm with rfl | hm
      · exact hlt
      · exact String.lt_trans hlt (hfirst m hm)
    split
    · next heq =>
      subst heq
      exact h
    · next hnot hne =>
      refine List.pairwise_cons.mpr ⟨?_, ih hrest⟩
      intro m hm
      rcases mem fs m hm with rfl | hm
      · exact lt_of_le_of_ne (not_lt.mp hnot) (Ne.symm hne)
      · exact hfirst m hm

/-- The fields of an object that was read stand in the order of their names. -/
theorem pairwise_of_ofFields {fs gs : List (String × Json)} (h : Json.ofFields fs = .object gs) :
    (gs.map (·.1)).Pairwise (· < ·) := by
  obtain rfl := Json.object.inj h
  have key : ∀ done : List (String × Json), (done.map (·.1)).Pairwise (· < ·) →
      ((fs.foldl (fun acc f => setField f.1 f.2 acc) done).map (·.1)).Pairwise (· < ·) := by
    clear h
    induction fs with
    | nil => exact fun _ hdone => hdone
    | cons f fs ih => exact fun done hdone => ih _ (pairwise_setField f.1 f.2 hdone)
  exact key [] List.Pairwise.nil

theorem Source.exists_of_mem_items? {xs : List Source} {items : List Json}
    (h : items? xs = some items) {item : Json} (hitem : item ∈ items) :
    ∃ x ∈ xs, x.value? = some item := by
  induction xs generalizing items with
  | nil =>
    obtain rfl := Option.some.inj h
    cases hitem
  | cons x xs ih =>
    obtain ⟨v, hv, h⟩ := Option.bind_eq_some_iff.mp h
    obtain ⟨vs, hvs, h⟩ := Option.bind_eq_some_iff.mp h
    obtain rfl := Option.some.inj h
    rcases List.mem_cons.mp hitem with rfl | hitem
    · exact ⟨x, List.mem_cons_self .., hv⟩
    · obtain ⟨y, hy, hitem⟩ := ih hvs hitem
      exact ⟨y, List.mem_cons_of_mem _ hy, hitem⟩

theorem Source.nodup_of_value? {s : Source} {fields : List (String × Json)}
    (h : s.value? = some (.object fields)) : (fields.map (·.1)).Nodup := by
  cases s with
  | object fs =>
    obtain ⟨gs, -, hgs⟩ := Option.map_eq_some_iff.mp h
    exact (pairwise_of_ofFields hgs).imp fun hlt => String.ne_of_lt hlt
  | null | bool => cases h
  | number | string | array =>
    obtain ⟨_, -, h⟩ := Option.map_eq_some_iff.mp h
    cases h

/-- No item of an array that was read has a name twice. -/
theorem Source.nodup_of_array {s : Source} {items : List Json} (h : s.value? = some (.array items)) :
    ∀ item ∈ items, ∀ fields, item = .object fields → (fields.map (·.1)).Nodup := by
  cases s with
  | array xs =>
    obtain ⟨items, hitems, h⟩ := Option.map_eq_some_iff.mp h
    obtain rfl := Json.array.inj h
    rintro item hitem fields rfl
    obtain ⟨x, -, hx⟩ := Source.exists_of_mem_items? hitems hitem
    exact Source.nodup_of_value? hx
  | null | bool => cases h
  | number | string | object =>
    obtain ⟨_, -, h⟩ := Option.map_eq_some_iff.mp h
    cases h

theorem value?_ofValue (v : Json) (h : v.ordered = true) : (Source.ofValue v).value? = some v := by
  have key := Source.ofValue.mutual_induct
    (fun v => v.ordered = true → (Source.ofValue v).value? = some v)
    (fun fs => orderedFields fs = true → Source.fields? (Source.ofFields fs) = some fs)
    (fun xs => orderedItems xs = true → Source.items? (Source.ofItems xs) = some xs)
    (fun _ => rfl) (fun _ _ => rfl) (fun _ _ => rfl) (fun _ _ => rfl) ?_ ?_ (fun _ => rfl) ?_
    (fun _ => rfl) ?_
  · exact key.1 v h
  · intro items ih h
    simp [Source.ofValue, Source.value?, ih h]
  · intro fields ih h
    obtain ⟨sorted, h⟩ := Bool.and_eq_true_iff.mp h
    simp [Source.ofValue, Source.value?, ih h, ofFields_eq (of_decide_eq_true sorted)]
  · intro v r ihv ihr h
    obtain ⟨hv, hr⟩ := Bool.and_eq_true_iff.mp h
    simp [Source.ofItems, Source.items?, ihv hv, ihr hr]
  · intro name v r ihv ihr h
    obtain ⟨hv, hr⟩ := Bool.and_eq_true_iff.mp h
    simp [Source.ofFields, Source.fields?, ihv hv, ihr hr]

end NotebookKernels.Json
