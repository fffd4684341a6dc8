import Mathlib.Data.Fintype.Basic
import Mathlib.Tactic.FinCases
import NotebookKernels.Proofs.Json.Numeral

/- The syntax of JSON, and that the reader reads it.

   `Source.WrittenAs s t` says that the text `t` is a way to write `s`. It leaves every freedom that there is:
   blanks between the parts, escapes for characters that need none, pairs of code units, exponents. The
   reader reads each of these texts as `s` (`read?_of_spaced`). The proof goes by the reader's fuel, of
   which every character pays for one unit: `ReadsValues`, `ReadsItems` and `ReadsFields` say what one
   unit more can read. -/
namespace NotebookKernels.Json

namespace Reader

/-- Blanks between the parts of a text. -/
def Blanks (t : Text) : Prop := ∀ c ∈ t, c ∈ [' ', '\n', '\t', '\r']

/-- The ways to write the characters of a string: most of them stand for themselves. -/
inductive StringText : Text → Text → Prop
  | nil : StringText [] []
  | plain {c : Char} {s t : Text} (quote : c ≠ '"') (slash : c ≠ '\\') (printable : ¬c.toNat < 0x20)
    (tail : StringText s t) : StringText (c :: s) (c :: t)
  | short {c e : Char} {s t : Text} (escaped : escaped? e = some c) (tail : StringText s t) :
    StringText (c :: s) ('\\' :: e :: t)
  | code {c x y z w : Char} {s t : Text} (unit : code? x y z w = some c.toNat)
    (tail : StringText s t) : StringText (c :: s) ('\\' :: 'u' :: x :: y :: z :: w :: t)
  | pair {c x y z w x' y' z' w' : Char} {hi lo : Nat} {s t : Text} (high : code? x y z w = some hi)
    (low : code? x' y' z' w' = some lo) (first : 0xD800 ≤ hi ∧ hi < 0xDC00)
    (second : 0xDC00 ≤ lo ∧ lo < 0xE000)
    (value : c.toNat = 0x10000 + (hi - 0xD800) * 0x400 + (lo - 0xDC00)) (tail : StringText s t) :
    StringText (c :: s)
      ('\\' :: 'u' :: x :: y :: z :: w :: '\\' :: 'u' :: x' :: y' :: z' :: w' :: t)

end Reader

namespace Source

/-- The fields of an object in which every name is text. -/
def named (fs : List (String × Source)) : List (Option String × Source) :=
  fs.map fun f => (some f.1, f.2)

open Reader (Blanks StringText)

mutual
/-- The ways to write a value. -/
inductive WrittenAs : Source → Text → Prop
  | null : WrittenAs .null "null".toList
  | true : WrittenAs (.bool true) "true".toList
  | false : WrittenAs (.bool false) "false".toList
  | number {n : Numeral} {t : Text} (h : n.WrittenAs t) : WrittenAs (.number n.value?) t
  | string {s : String} {t : Text} (h : StringText s.toList t) :
    WrittenAs (.string (some s)) ('"' :: (t ++ ['"']))
  | emptyArray {b : Text} (hb : Blanks b) : WrittenAs (.array []) ('[' :: (b ++ [']']))
  | array {xs : List Source} {t : Text} (h : ItemsWrittenAs xs t) :
    WrittenAs (.array xs) ('[' :: t)
  | emptyObject {b : Text} (hb : Blanks b) : WrittenAs (.object []) ('\x7b' :: (b ++ ['\x7d']))
  | object {fs : List (String × Source)} {t : Text} (h : FieldsWrittenAs fs t) :
    WrittenAs (.object (named fs)) ('\x7b' :: t)
/-- The ways to write a value with blanks around it. -/
inductive Spaced : Source → Text → Prop
  | mk {s : Source} {b t b' : Text} (before : Blanks b) (h : WrittenAs s t) (behind : Blanks b') :
    Spaced s (b ++ (t ++ b'))
/-- The ways to write the items of an array that is not empty, and the closing bracket. -/
inductive ItemsWrittenAs : List Source → Text → Prop
  | last {x : Source} {t : Text} (h : Spaced x t) : ItemsWrittenAs [x] (t ++ [']'])
  | cons {x : Source} {xs : List Source} {t u : Text} (h : Spaced x t) (hxs : ItemsWrittenAs xs u) :
    ItemsWrittenAs (x :: xs) (t ++ ',' :: u)
/-- The ways to write a field, with blanks around it. -/
inductive FieldWrittenAs : String × Source → Text → Prop
  | mk {k : String} {x : Source} {b n b' t : Text} (before : Blanks b) (name : StringText k.toList n)
    (behind : Blanks b') (h : Spaced x t) :
    FieldWrittenAs (k, x) (b ++ '"' :: (n ++ '"' :: (b' ++ ':' :: t)))
/-- The ways to write the fields of an object that is not empty, and the closing brace. -/
inductive FieldsWrittenAs : List (String × Source) → Text → Prop
  | last {f : String × Source} {t : Text} (h : FieldWrittenAs f t) :
    FieldsWrittenAs [f] (t ++ ['\x7d'])
  | cons {f : String × Source} {fs : List (String × Source)} {t u : Text} (h : FieldWrittenAs f t)
    (hfs : FieldsWrittenAs fs u) : FieldsWrittenAs (f :: fs) (t ++ ',' :: u)
end

end Source

namespace Reader

open Source

variable {rest b t : Text}

/-! ## Strings -/

/-- A code unit that is a character by itself adds it, whatever units come after. -/
theorem assemble?_code {c : Char} {us : List Unit} {s : Text} (tail : assemble? us = some s) :
    assemble? (.code c.toNat :: us) = some (c :: s) := by
  have basic : ¬(0xD800 ≤ c.toNat ∧ c.toNat < 0xE000) := by
    have hvalid := c.valid
    simp only [UInt32.isValidChar, Nat.isValidChar] at hvalid
    have hval : c.toNat = c.val.toNat := rfl
    omega
  have single : ∀ lo, ¬(0xD800 ≤ c.toNat ∧ c.toNat < 0xDC00 ∧ 0xDC00 ≤ lo ∧ lo < 0xE000) := by
    intro lo
    omega
  have alone : (if 0xD800 ≤ c.toNat ∧ c.toNat < 0xE000 then none
      else (assemble? us).map (Char.ofNat c.toNat :: ·)) = some (c :: s) := by
    rw [if_neg basic, tail, Char.ofNat_toNat]
    rfl
  cases us with
  | nil => exact alone
  | cons u us =>
    cases u with
    | char d => exact alone
    | code lo =>
      rw [assemble?, if_neg (single lo)]
      exact alone

/-- However a string is written, it is read, and its closing quote is the first that is not escaped. -/
theorem string?_of_stringText {s : Text} (h : StringText s t) (rest : Text) :
    string? (t ++ '"' :: rest) = some (some (String.ofList s), rest) := by
  have key : ∃ us, units? (t ++ '"' :: rest) = some (us, rest) ∧ assemble? us = some s := by
    induction h with
    | nil => exact ⟨[], rfl, rfl⟩
    | @plain c s t quote slash printable tail ih =>
      obtain ⟨us, hus, hs⟩ := ih
      refine ⟨.char c :: us, ?_, by simp [assemble?, hs]⟩
      rw [List.cons_append, units?.eq_def]
      simp [slash, printable, hus]
    | @short c e s t escaped tail ih =>
      obtain ⟨us, hus, hs⟩ := ih
      have hu : e ≠ 'u' := by
        rintro rfl
        cases escaped
      exact ⟨.char c :: us, by simp [units?, escaped, hu, hus], by simp [assemble?, hs]⟩
    | @code c x y z w s t unit tail ih =>
      obtain ⟨us, hus, hs⟩ := ih
      exact ⟨.code c.toNat :: us, by simp [units?, unit, hus], assemble?_code hs⟩
    | @pair c x y z w x' y' z' w' hi lo s t high low first second value tail ih =>
      obtain ⟨us, hus, hs⟩ := ih
      refine ⟨.code hi :: .code lo :: us, by simp [units?, high, low, hus], ?_⟩
      rw [assemble?, if_pos ⟨first.1, first.2, second.1, second.2⟩, hs, ← value, Char.ofNat_toNat]
      rfl
  obtain ⟨us, hus, hs⟩ := key
  simp [string?, hus, hs]

/-! ## Blanks -/

theorem skip_append (hb : Blanks b) (t : Text) : skip (b ++ t) = skip t := by
  have key : [' ', '\n', '\t', '\r'].all fun c => c = ' ' || c = '\n' || c = '\t' || c = '\r' := by
    decide
  exact List.dropWhile_append_of_pos fun c hc => List.all_eq_true.mp key c (hb c hc)

theorem skip_of_blanks (hb : Blanks b) : skip b = [] := by
  have hskip := skip_append hb []
  rwa [List.append_nil] at hskip

theorem value?_append (hb : Blanks b) (fuel : Nat) (t : Text) :
    value? fuel (b ++ t) = value? fuel t := by
  cases fuel with
  | zero => rfl
  | succ fuel => rw [value?, value?, skip_append hb]

/-- What follows a value: blanks, and then nothing or what is between values. -/
theorem follows_blanks (hb : Blanks b) (h : Follows rest) : Follows (b ++ rest) := by
  cases b with
  | nil => exact h
  | cons c b =>
    have hc : c ∈ [' ', '\n', '\t', '\r'] := hb c (List.mem_cons_self ..)
    exact .cons (List.mem_append_left _ hc) _

/-! ## Values -/

/-- May a value begin with this character? It is no blank, and closes no array. -/
def opens (c : Char) : Bool := !([' ', '\n', '\t', '\r', ']'].contains c)

theorem skip_of_opens {c : Char} (h : opens c = true) (r : Text) : skip (c :: r) = c :: r := by
  have hblank : (c = ' ' || c = '\n' || c = '\t' || c = '\r') = false := by
    simp_all [opens]
  rw [skip, List.dropWhile_cons, hblank]
  rfl

theorem opens_of_writtenAs {s : Source} (h : s.WrittenAs t) : ∃ c r, opens c = true ∧ t = c :: r := by
  cases h with
  | null => exact ⟨'n', _, rfl, rfl⟩
  | true => exact ⟨'t', _, rfl, rfl⟩
  | false => exact ⟨'f', _, rfl, rfl⟩
  | number h =>
    have digit : ∀ d : Fin 10, opens (Decimal.digitChar d) = true := by decide
    obtain ⟨c, r, rfl, rfl | ⟨d, rfl⟩⟩ := h.head
    · exact ⟨'-', r, rfl, rfl⟩
    · exact ⟨_, r, digit d, rfl⟩
  | string h => exact ⟨'"', _, rfl, rfl⟩
  | emptyArray | array => exact ⟨'[', _, rfl, rfl⟩
  | emptyObject | object => exact ⟨'\x7b', _, rfl, rfl⟩

/-- A value that begins like a number is read as one. -/
theorem value?_number {n : Numeral} (h : n.WrittenAs t) (follows : Follows rest) (fuel : Nat) :
    value? (fuel + 1) (t ++ rest) = some (.number n.value?, rest) := by
  have hread := numeral?_of_writtenAs h follows
  obtain ⟨c, r, rfl, first⟩ := h.head
  have hdispatch : value? (fuel + 1) (c :: r ++ rest) =
      (numeral? (c :: r ++ rest)).map fun p => (.number p.1.value?, p.2) := by
    rcases first with rfl | ⟨d, rfl⟩
    · rfl
    · fin_cases d <;> rfl
  rw [hdispatch, hread, Option.map_some]

/-- A bracket before something that begins a value opens an array that is not empty. -/
theorem value?_bracket {c : Char} (h : opens c = true) (hb : Blanks b) (fuel : Nat) (r : Text) :
    value? (fuel + 1) ('[' :: (b ++ c :: r)) =
      (items? fuel (b ++ c :: r)).map fun p => (.array p.1, p.2) := by
  have outer : skip ('[' :: (b ++ c :: r)) = '[' :: (b ++ c :: r) := rfl
  have close : c ≠ ']' := by
    rintro rfl
    cases h
  simp [value?, outer, skip_append hb, skip_of_opens h, close]

/-- A brace before a quote opens an object that is not empty. -/
theorem value?_brace (hb : Blanks b) (fuel : Nat) (r : Text) :
    value? (fuel + 1) ('\x7b' :: (b ++ '"' :: r)) =
      (fields? fuel (b ++ '"' :: r)).map fun p => (.object p.1, p.2) := by
  have outer : skip ('\x7b' :: (b ++ '"' :: r)) = '\x7b' :: (b ++ '"' :: r) := rfl
  have inner : skip ('"' :: r) = '"' :: r := rfl
  simp [value?, outer, skip_append hb, inner]

/-- The reader reads values whose text has at most so many characters. -/
def ReadsValues (fuel : Nat) : Prop :=
  ∀ (s : Source) (t rest : Text), s.WrittenAs t → t.length ≤ fuel → Follows rest →
    value? fuel (t ++ rest) = some (s, rest)

/-- The same for the items of an array. -/
def ReadsItems (fuel : Nat) : Prop :=
  ∀ (xs : List Source) (t rest : Text), ItemsWrittenAs xs t → t.length ≤ fuel →
    items? fuel (t ++ rest) = some (xs, rest)

/-- The same for the fields of an object. -/
def ReadsFields (fuel : Nat) : Prop :=
  ∀ (fs : List (String × Source)) (t rest : Text), FieldsWrittenAs fs t → t.length ≤ fuel →
    fields? fuel (t ++ rest) = some (named fs, rest)

/-- The items of an array begin like a value. -/
theorem opens_of_items {xs : List Source} (h : ItemsWrittenAs xs t) :
    ∃ b c r, Blanks b ∧ opens c = true ∧ t = b ++ c :: r := by
  have key {x : Source} {t : Text} (h : Spaced x t) :
      ∃ b c r, Blanks b ∧ opens c = true ∧ t = b ++ c :: r := by
    obtain @⟨_, b, t, b', before, h, -⟩ := h
    obtain ⟨c, r, hc, rfl⟩ := opens_of_writtenAs h
    exact ⟨b, c, r ++ b', before, hc, rfl⟩
  cases h with
  | last h =>
    obtain ⟨b, c, r, hb, hc, rfl⟩ := key h
    exact ⟨b, c, r ++ [']'], hb, hc, by simp⟩
  | @cons _ _ _ u h =>
    obtain ⟨b, c, r, hb, hc, rfl⟩ := key h
    exact ⟨b, c, r ++ ',' :: u, hb, hc, by simp⟩

/-- The fields of an object begin with the quote of a name. -/
theorem quote_of_fields {fs : List (String × Source)} (h : FieldsWrittenAs fs t) :
    ∃ b r, Blanks b ∧ t = b ++ '"' :: r := by
  have key {f : String × Source} {t : Text} (h : FieldWrittenAs f t) :
      ∃ b r, Blanks b ∧ t = b ++ '"' :: r := by
    obtain ⟨before, name, behind, h⟩ := h
    exact ⟨_, _, before, rfl⟩
  cases h with
  | last h =>
    obtain ⟨b, r, hb, rfl⟩ := key h
    exact ⟨b, r ++ ['\x7d'], hb, by simp⟩
  | @cons _ _ _ u h =>
    obtain ⟨b, r, hb, rfl⟩ := key h
    exact ⟨b, r ++ ',' :: u, hb, by simp⟩

theorem readsValues_succ {fuel : Nat} (items : ReadsItems fuel) (fields : ReadsFields fuel) :
    ReadsValues (fuel + 1) := by
  intro s t rest h enough follows
  cases h with
  | null | true | false => rfl
  | number h => exact value?_number h follows fuel
  | @string s t h =>
    have htext : '"' :: (t ++ ['"']) ++ rest = '"' :: (t ++ '"' :: rest) := by simp
    rw [htext]
    show (string? (t ++ '"' :: rest)).map _ = _
    rw [string?_of_stringText h, String.ofList_toList]
    rfl
  | @emptyArray b hb =>
    have outer : skip ('[' :: (b ++ ']' :: rest)) = '[' :: (b ++ ']' :: rest) := rfl
    have close : skip (']' :: rest) = ']' :: rest := rfl
    simp [value?, outer, skip_append hb, close]
  | @array xs t h =>
    have hread := items xs t rest h (Nat.le_of_succ_le_succ enough)
    obtain ⟨b, c, r, hb, hc, rfl⟩ := opens_of_items h
    rw [List.append_assoc, List.cons_append] at hread
    rw [List.cons_append, List.append_assoc, List.cons_append, value?_bracket hc hb, hread]
    rfl
  | @emptyObject b hb =>
    have outer : skip ('\x7b' :: (b ++ '\x7d' :: rest)) = '\x7b' :: (b ++ '\x7d' :: rest) := rfl
    have close : skip ('\x7d' :: rest) = '\x7d' :: rest := rfl
    simp [value?, outer, skip_append hb, close]
  | @object fs t h =>
    have hread := fields fs t rest h (Nat.le_of_succ_le_succ enough)
    obtain ⟨b, r, hb, rfl⟩ := quote_of_fields h
    rw [List.append_assoc, List.cons_append] at hread
    rw [List.cons_append, List.append_assoc, List.cons_append, value?_brace hb, hread]
    rfl

/-- A value with blanks around it is read up to the blanks behind it. -/
theorem value?_spaced {fuel : Nat} (values : ReadsValues fuel) {x : Source} (h : Spaced x t)
    (enough : t.length ≤ fuel) {c : Char} (mark : c ∈ [',', ']', '\x7d']) (r : Text) :
    ∃ rest, value? fuel (t ++ c :: r) = some (x, rest) ∧ skip rest = c :: r := by
  obtain @⟨_, b, t, b', before, h, behind⟩ := h
  have hlen : t.length ≤ fuel := by simp at enough; omega
  have follows : Follows (c :: r) := .cons (List.mem_append_right [' ', '\n', '\t', '\r'] mark) r
  have key : [',', ']', '\x7d'].all fun c => !(c = ' ' || c = '\n' || c = '\t' || c = '\r') := by
    decide
  refine ⟨b' ++ c :: r, ?_, ?_⟩
  · rw [List.append_assoc, List.append_assoc, value?_append before]
    exact values x t _ h hlen (follows_blanks behind follows)
  · have hmark := List.all_eq_true.mp key c mark
    rw [Bool.not_eq_true'] at hmark
    rw [skip_append behind, skip, List.dropWhile_cons, hmark]
    rfl

theorem readsItems_succ {fuel : Nat} (values : ReadsValues fuel) (items : ReadsItems fuel) :
    ReadsItems (fuel + 1) := by
  intro xs t rest h enough
  cases h with
  | @last x t h =>
    have hlen : t.length ≤ fuel := by simpa using enough
    obtain ⟨r, hread, hskip⟩ := value?_spaced values h hlen (c := ']') (by simp) rest
    rw [List.append_assoc, List.singleton_append]
    simp [items?, hread, hskip]
  | @cons x xs t u h hxs =>
    have hlen : t.length + u.length ≤ fuel := by simp at enough; omega
    obtain ⟨r, hread, hskip⟩ := value?_spaced values h (by omega) (c := ',') (by simp) (u ++ rest)
    have hrest := items xs u rest hxs (by omega)
    rw [List.append_assoc, List.cons_append]
    simp [items?, hread, hskip, hrest]

/-- A field is read part by part: its name, the colon, its value and the blanks behind it. -/
theorem parts_of_field {fuel : Nat} (values : ReadsValues fuel) {f : String × Source}
    (h : FieldWrittenAs f t) (enough : t.length ≤ fuel) {c : Char}
    (mark : c ∈ [',', ']', '\x7d']) (r : Text) :
    ∃ n t' u rest, skip (t ++ c :: r) = '"' :: n ∧ string? n = some (some f.1, t') ∧
      skip t' = ':' :: u ∧ value? fuel u = some (f.2, rest) ∧ skip rest = c :: r := by
  obtain @⟨k, x, b, n, b', t, before, name, behind, h⟩ := h
  have hlen : t.length ≤ fuel := by simp at enough; omega
  obtain ⟨rest, hread, hskip⟩ := value?_spaced values h hlen mark r
  refine ⟨n ++ '"' :: (b' ++ ':' :: (t ++ c :: r)), b' ++ ':' :: (t ++ c :: r), t ++ c :: r, rest,
    ?_, ?_, ?_, hread, hskip⟩
  · have htext : b ++ '"' :: (n ++ '"' :: (b' ++ ':' :: t)) ++ c :: r =
        b ++ '"' :: (n ++ '"' :: (b' ++ ':' :: (t ++ c :: r))) := by simp
    rw [htext, skip_append before]
    rfl
  · rw [string?_of_stringText name, String.ofList_toList]
  · rw [skip_append behind]
    rfl

theorem readsFields_succ {fuel : Nat} (values : ReadsValues fuel) (fields : ReadsFields fuel) :
    ReadsFields (fuel + 1) := by
  intro fs t rest h enough
  cases h with
  | @last f t h =>
    have hlen : t.length ≤ fuel := by simpa using enough
    obtain ⟨n, t', u, r, hquote, hname, hcolon, hread, hskip⟩ :=
      parts_of_field values h hlen (c := '\x7d') (by simp) rest
    rw [List.append_assoc, List.singleton_append]
    simp [fields?, hquote, hname, hcolon, hread, hskip, named]
  | @cons f fs t u h hfs =>
    have hlen : t.length + u.length ≤ fuel := by simp at enough; omega
    obtain ⟨n, t', v, r, hquote, hname, hcolon, hread, hskip⟩ :=
      parts_of_field values h (by omega) (c := ',') (by simp) (u ++ rest)
    have hrest := fields fs u rest hfs (by omega)
    rw [List.append_assoc, List.cons_append]
    simp [fields?, hquote, hname, hcolon, hread, hskip, hrest, named]

/-- Whatever is written by the syntax is read, with one unit of fuel for each character. -/
theorem reads_writtenAs (fuel : Nat) : ReadsValues fuel ∧ ReadsItems fuel ∧ ReadsFields fuel := by
  induction fuel with
  | zero =>
    refine ⟨?_, ?_, ?_⟩
    · intro s t rest h enough
      obtain ⟨c, r, -, rfl⟩ := opens_of_writtenAs h
      cases enough
    · intro xs t rest h enough
      obtain ⟨b, c, r, -, -, rfl⟩ := opens_of_items h
      simp at enough
    · intro fs t rest h enough
      obtain ⟨b, r, -, rfl⟩ := quote_of_fields h
      simp at enough
  | succ fuel ih =>
    obtain ⟨values, items, fields⟩ := ih
    exact ⟨readsValues_succ items fields, readsItems_succ values items,
      readsFields_succ values fields⟩

end Reader

/-- However a value is written, and whatever blanks are around it, it is read. -/
theorem Source.read?_of_spaced {s : Source} {t : Text} (h : s.Spaced t) : read? t = some s := by
  obtain @⟨_, b, t, b', before, h, behind⟩ := h
  have hread := (Reader.reads_writtenAs (2 * (b ++ (t ++ b')).length + 2)).1 s t b' h
    (by simp only [List.length_append]; omega)
    (List.append_nil b' ▸ Reader.follows_blanks behind .nil)
  rw [← Reader.value?_append before] at hread
  exact Option.bind_eq_some_iff.mpr ⟨(s, b'), hread, if_pos (Reader.skip_of_blanks behind)⟩

end NotebookKernels.Json
