import NotebookKernels.Json.Printer
import NotebookKernels.Json.Reader

/- Numbers as they are written.

   `Numeral.WrittenAs n t` is the syntax of numbers: `t` is a way to write `n`. The reader reads every such
   text, unless what comes after it goes on with the number (`numeral?_of_writtenAs`).
   `IsDecimal n ds` says that the digits `ds` are those that `n` is printed with: they are below ten, there
   is at least one, only zero itself starts with a zero, and read from left to right they come to `n`. The
   first three are what the syntax asks for, the last is what the significand is gathered from. Integers of
   64 bits, signed or unsigned, lose nothing on the way (`exists_writtenAs_text`). -/
namespace NotebookKernels

namespace JsonNumber

/-- Is the number an integer of 64 bits, signed or unsigned? -/
def isWord : JsonNumber → Bool
  | .int i => decide (-Numeral.negativeLimit ≤ i ∧ i < Decimal.wordLimit)
  | .double _ => false

end JsonNumber

namespace Decimal

/-- The number that digits stand for, after the number `n`. -/
def valueFrom (n : Nat) (ds : List Nat) : Nat := ds.foldl (fun n d => 10 * n + d) n

/-- The digits that the number is printed with. -/
structure IsDecimal (n : Nat) (ds : List Nat) : Prop where
  below : ∀ d ∈ ds, d < 10
  leading : ds = [0] ∨ ∃ d r, ds = (d + 1) :: r
  value : valueFrom 0 ds = n

/-- One more digit after those of a number that is not zero. -/
theorem IsDecimal.snoc {n d : Nat} {ds : List Nat} (h : IsDecimal n ds) (positive : 0 < n)
    (digit : d < 10) : IsDecimal (10 * n + d) (ds ++ [d]) where
  below c hc := by
    rcases List.mem_append.mp hc with hc | hc
    · exact h.below c hc
    · exact List.mem_singleton.mp hc ▸ digit
  leading := by
    rcases h.leading with rfl | ⟨e, r, rfl⟩
    · exact absurd h.value (Nat.ne_of_lt positive)
    · exact .inr ⟨e, r ++ [d], rfl⟩
  value := by
    have hval := h.value
    rw [valueFrom] at hval ⊢
    rw [List.foldl_append, hval]
    rfl

/-- The digits are written before what has been written. -/
theorem digitsOnto_eq (fuel n : Nat) (enough : n < fuel) (acc : Text) :
    ∃ ds, IsDecimal n ds ∧ digitsOnto 10 fuel n acc = ds.map digitChar ++ acc := by
  induction fuel generalizing n acc with
  | zero => omega
  | succ fuel ih =>
    unfold digitsOnto
    split
    · next small =>
      refine ⟨[n], ⟨by simpa using small, ?_, Nat.zero_add n⟩, rfl⟩
      cases n with
      | zero => exact .inl rfl
      | succ n => exact .inr ⟨n, [], rfl⟩
    · next large =>
      obtain ⟨ds, hds, htext⟩ := ih (n / 10) (by omega) (digitChar (n % 10) :: acc)
      have hsnoc := hds.snoc (d := n % 10) (by omega) (Nat.mod_lt _ (by decide))
      rw [Nat.div_add_mod] at hsnoc
      refine ⟨ds ++ [n % 10], hsnoc, ?_⟩
      rw [htext, List.map_append, List.append_assoc]
      rfl

theorem text_eq (n : Nat) : ∃ ds, IsDecimal n ds ∧ text n = ds.map digitChar := by
  obtain ⟨ds, hds, htext⟩ := digitsOnto_eq (n + 1) n (Nat.lt_succ_self n) []
  rw [List.append_nil] at htext
  exact ⟨ds, hds, htext⟩

theorem digit?_digitChar {d : Nat} (h : d < 10) : digit? (digitChar d) = some d := by
  have key : ∀ d : Fin 10, digit? (digitChar d) = some d.val := by decide
  exact key ⟨d, h⟩

end Decimal

namespace Numeral

open Decimal

theorem le_valueFrom (n : Nat) (ds : List Nat) : n ≤ valueFrom n ds := by
  induction ds generalizing n with
  | nil => exact Nat.le_refl n
  | cons d ds ih =>
    have hstep : n ≤ 10 * n + d := by omega
    exact Nat.le_trans hstep (ih _)

/-- Digits of a number that fits a word are gathered to the last. -/
theorem gather_eq (n : Nat) (ds : List Nat) (fits : valueFrom n ds < wordLimit) :
    gather n ds = (valueFrom n ds, []) := by
  induction ds generalizing n with
  | nil => rfl
  | cons d ds ih =>
    have hfirst : 10 * n + d < wordLimit := Nat.lt_of_le_of_lt (le_valueFrom _ ds) fits
    rw [gather, if_pos hfirst]
    exact ih (10 * n + d) fits

theorem value?_whole {ds : List Nat} {n : Nat} (h : IsDecimal n ds) (fits : n < wordLimit) :
    value? ⟨false, ds, none, none⟩ = some (.int n) := by
  have hgather := gather_eq 0 ds (h.value.symm ▸ fits)
  rw [h.value] at hgather
  simp [value?, hgather]

theorem value?_negated {ds : List Nat} {n : Nat} (h : IsDecimal n ds) (positive : 0 < n)
    (fits : n ≤ negativeLimit) : value? ⟨true, ds, none, none⟩ = some (.int (-n)) := by
  have hword : n < wordLimit := Nat.lt_of_le_of_lt fits (by decide)
  have hgather := gather_eq 0 ds (h.value.symm ▸ hword)
  rw [h.value] at hgather
  simp [value?, hgather, positive, fits]

/-! ## The syntax -/

/-- The ways to write what comes after a point, and the point. -/
inductive FractionText : Option (List Nat) → Text → Prop
  | none : FractionText none []
  | some {ds : List Nat} (nonempty : ds ≠ []) (below : ∀ d ∈ ds, d < 10) :
    FractionText (some ds) ('.' :: ds.map digitChar)

/-- The ways to write the sign of an exponent. -/
inductive SignText : Bool → Text → Prop
  | minus : SignText true ['-']
  | plus : SignText false ['+']
  | absent : SignText false []

/-- The ways to write an exponent. -/
inductive ExponentText : Option (Bool × List Nat) → Text → Prop
  | none : ExponentText none []
  | some {e : Char} {down : Bool} {sign : Text} {ds : List Nat} (mark : e = 'e' ∨ e = 'E')
    (signed : SignText down sign) (nonempty : ds ≠ []) (below : ∀ d ∈ ds, d < 10) :
    ExponentText (some (down, ds)) (e :: (sign ++ ds.map digitChar))

/-- The ways to write a number. -/
inductive WrittenAs : Numeral → Text → Prop
  | mk {negative : Bool} {whole : List Nat} {fraction : Option (List Nat)}
    {exponent : Option (Bool × List Nat)} {f e : Text} (below : ∀ d ∈ whole, d < 10)
    (leading : whole = [0] ∨ ∃ d r, whole = (d + 1) :: r) (hf : FractionText fraction f)
    (he : ExponentText exponent e) :
    WrittenAs ⟨negative, whole, fraction, exponent⟩
      ((if negative then ['-'] else []) ++ (whole.map digitChar ++ (f ++ e)))

/-- A number is written with a minus sign or a digit first. -/
theorem WrittenAs.head {n : Numeral} {t : Text} (h : n.WrittenAs t) :
    ∃ c r, t = c :: r ∧ (c = '-' ∨ ∃ d : Fin 10, c = digitChar d) := by
  obtain @⟨negative, whole, _, _, f, e, below, leading, -, -⟩ := h
  cases negative with
  | true => exact ⟨'-', _, rfl, .inl rfl⟩
  | false =>
    cases whole with
    | nil => exact absurd leading (by simp)
    | cons d r => exact ⟨digitChar d, _, rfl, .inr ⟨⟨d, below d (List.mem_cons_self ..)⟩, rfl⟩⟩

/-- An integer of 64 bits is printed as a number that has its value. -/
theorem exists_writtenAs_text {x : JsonNumber} (word : x.isWord = true) :
    ∃ n : Numeral, n.WrittenAs x.text ∧ n.value? = some x := by
  cases x with
  | double bits => cases word
  | int i =>
    obtain ⟨least, most⟩ := of_decide_eq_true word
    obtain ⟨ds, hds, htext⟩ := text_eq i.natAbs
    have hwritten (negative : Bool) := @WrittenAs.mk negative ds none none [] [] hds.below
      hds.leading .none .none
    rw [List.append_nil, List.append_nil] at hwritten
    by_cases negative : i < 0
    · refine ⟨⟨true, ds, none, none⟩, ?_, ?_⟩
      · rw [JsonNumber.text, signedText, if_pos negative, htext]
        exact hwritten true
      · have hvalue := value?_negated hds (by omega) (by omega)
        have habs : (-(i.natAbs : Int)) = i := by omega
        rwa [habs] at hvalue
    · refine ⟨⟨false, ds, none, none⟩, ?_, ?_⟩
      · rw [JsonNumber.text, signedText, if_neg negative, htext]
        exact hwritten false
      · have hvalue := value?_whole hds (by omega)
        have habs : (i.natAbs : Int) = i := by omega
        rwa [habs] at hvalue

end Numeral

namespace Json.Reader

open Decimal Numeral

variable {rest : Text}

/-! ## The reader -/

/-- The text does not begin with a digit. -/
def NoDigit (t : Text) : Prop := ∀ c r, t = c :: r → digit? c = none

/-- The text does not go on with a number. -/
def Follows (t : Text) : Prop :=
  ∀ c r, t = c :: r → digit? c = none ∧ c ≠ '.' ∧ c ≠ 'e' ∧ c ≠ 'E'

theorem Follows.nil : Follows [] := by simp [Follows]

theorem Follows.cons {c : Char} (h : c ∈ [' ', '\n', '\t', '\r', ',', ']', '\x7d']) (r : Text) :
    Follows (c :: r) := by
  have key : [' ', '\n', '\t', '\r', ',', ']', '\x7d'].all fun c =>
      digit? c = none ∧ c ≠ '.' ∧ c ≠ 'e' ∧ c ≠ 'E' := by decide
  rintro _ _ ⟨⟩
  exact of_decide_eq_true (List.all_eq_true.mp key c h)

theorem digits_noDigit (h : NoDigit rest) : digits rest = ([], rest) := by
  cases rest with
  | nil => rfl
  | cons c r => simp [digits, h c r rfl]

theorem digits_append {ds : List Nat} (below : ∀ d ∈ ds, d < 10) (h : NoDigit rest) :
    digits (ds.map digitChar ++ rest) = (ds, rest) := by
  have hcons {d : Nat} (hd : d < 10) (t : Text) :
      digits (digitChar d :: t) = (d :: (digits t).1, (digits t).2) := by
    simp [digits, digit?_digitChar hd]
  induction ds with
  | nil => exact digits_noDigit h
  | cons d ds ih =>
    rw [List.map_cons, List.cons_append, hcons (below d (List.mem_cons_self ..)),
      ih fun e he => below e (List.mem_cons_of_mem _ he)]

theorem whole?_append {ds : List Nat} (below : ∀ d ∈ ds, d < 10)
    (leading : ds = [0] ∨ ∃ d r, ds = (d + 1) :: r) (h : NoDigit rest) :
    whole? (ds.map digitChar ++ rest) = some (ds, rest) := by
  rw [whole?, digits_append below h]
  rcases leading with rfl | ⟨d, r, rfl⟩
  · rfl
  · cases r <;> rfl

theorem fraction?_append {fraction : Option (List Nat)} {f : Text} (hf : FractionText fraction f)
    (h : NoDigit rest) (point : ∀ r, rest ≠ '.' :: r) :
    fraction? (f ++ rest) = some (fraction, rest) := by
  cases hf with
  | none =>
    cases rest with
    | nil => rfl
    | cons c r =>
      simp [fraction?]
  | @some ds nonempty below =>
    have hdigits := digits_append below h
    cases ds with
    | nil => exact absurd rfl nonempty
    | cons d ds => simp only [List.cons_append, fraction?, hdigits]

theorem exponentSign_append {down : Bool} {sign : Text} (h : SignText down sign) {d : Nat}
    (hd : d < 10) (r : Text) :
    exponentSign (sign ++ digitChar d :: r) = (down, digitChar d :: r) := by
  have hfirst : ∀ d : Fin 10, digitChar d ≠ '-' ∧ digitChar d ≠ '+' := by decide
  obtain ⟨hminus, hplus⟩ := hfirst ⟨d, hd⟩
  cases h with
  | minus | plus => rfl
  | absent => simp [exponentSign, hminus, hplus]

theorem exponent?_append {exponent : Option (Bool × List Nat)} {e : Text}
    (he : ExponentText exponent e) (follows : Follows rest) :
    exponent? (e ++ rest) = some (exponent, rest) := by
  cases he with
  | none =>
    cases rest with
    | nil => rfl
    | cons c r =>
      obtain ⟨-, -, hlower, hupper⟩ := follows c r rfl
      simp [exponent?, hlower, hupper]
  | @some e down sign ds mark signed nonempty below =>
    have hdigits := digits_append below fun c r hr => (follows c r hr).1
    cases ds with
    | nil => exact absurd rfl nonempty
    | cons d ds =>
      have hsign := exponentSign_append signed (below d (List.mem_cons_self ..))
        (ds.map digitChar ++ rest)
      rw [List.map_cons, List.cons_append] at hdigits
      simp only [List.cons_append, List.append_assoc, List.map_cons, exponent?, if_pos mark, hsign,
        hdigits]

/-- What is after the digits before the point is no digit. -/
theorem noDigit_exponent {exponent : Option (Bool × List Nat)} {e : Text}
    (he : ExponentText exponent e) (follows : Follows rest) :
    NoDigit (e ++ rest) ∧ ∀ r, e ++ rest ≠ '.' :: r := by
  cases he with
  | none => exact ⟨fun c r hr => (follows c r hr).1, fun r hr => (follows '.' r hr).2.1 rfl⟩
  | some mark =>
    refine ⟨?_, ?_⟩
    · rintro c r ⟨⟩
      rcases mark with rfl | rfl <;> rfl
    · rintro r ⟨⟩
      rcases mark with hmark | hmark <;> cases hmark

theorem noDigit_fraction {fraction : Option (List Nat)} {f : Text} (hf : FractionText fraction f)
    (h : NoDigit rest) : NoDigit (f ++ rest) := by
  cases hf with
  | none => exact h
  | some =>
    rintro c r ⟨⟩
    rfl

/-- However a number is written, it is read. -/
theorem numeral?_of_writtenAs {n : Numeral} {t : Text} (h : n.WrittenAs t)
    (follows : Follows rest) : numeral? (t ++ rest) = some (n, rest) := by
  obtain @⟨negative, whole, fraction, exponent, f, e, below, leading, hf, he⟩ := h
  obtain ⟨hexp, point⟩ := noDigit_exponent he follows
  have hwhole := whole?_append below leading (noDigit_fraction hf hexp)
  have hfraction := fraction?_append hf hexp point
  have hexponent := exponent?_append he follows
  -- the first character of a number that is not negative is no minus sign
  have hfirst : ∀ d : Fin 10, digitChar d ≠ '-' := by decide
  simp only [List.append_assoc]
  cases negative with
  | true => simp [numeral?, hwhole, hfraction, hexponent]
  | false =>
    cases whole with
    | nil => exact absurd leading (by simp)
    | cons d r =>
      have hd := hfirst ⟨d, below d (List.mem_cons_self ..)⟩
      rw [List.map_cons, List.cons_append] at hwhole
      simp [numeral?, hd, hwhole, hfraction, hexponent]

end Json.Reader
end NotebookKernels
