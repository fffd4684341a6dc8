import NotebookKernels.Proofs.Json.Syntax

/- The reader accepts nothing that is not JSON.

   What the reader reads, and what has a value, is written by the syntax. With `Source.read?_of_spaced`, which
   says that it reads whatever is written so, this makes the texts that the reader takes and the texts
   of the syntax the same (`read?_eq_some_iff`). A source that has no value is left out: its strings may
   be halves of pairs, which the syntax does not write. -/
namespace NotebookKernels.Json

namespace Reader

open Decimal Numeral Source

/-! ## Strings -/

/-- How the units of a string are written. -/
inductive UnitsText : List Unit → Text → Prop
  | nil : UnitsText [] []
  | plain {c : Char} {us : List Unit} {t : Text} (quote : c ≠ '"') (slash : c ≠ '\\')
    (printable : ¬c.toNat < 0x20) (tail : UnitsText us t) : UnitsText (.char c :: us) (c :: t)
  | short {c e : Char} {us : List Unit} {t : Text} (escaped : escaped? e = some c)
    (tail : UnitsText us t) : UnitsText (.char c :: us) ('\\' :: e :: t)
  | code {n : Nat} {x y z w : Char} {us : List Unit} {t : Text} (unit : code? x y z w = some n)
    (tail : UnitsText us t) : UnitsText (.code n :: us) ('\\' :: 'u' :: x :: y :: z :: w :: t)

theorem unitsText_of_units? (t : Text) {us : List Unit} {rest : Text}
    (h : units? t = some (us, rest)) : ∃ u, t = u ++ '"' :: rest ∧ UnitsText us u := by
  fun_induction units? t generalizing us rest with
  | case1 => cases h
  | case2 r =>
    cases h
    exact ⟨[], rfl, .nil⟩
  | case3 x y z w r ih =>
    obtain ⟨n, hn, h⟩ := Option.bind_eq_some_iff.mp h
    obtain ⟨⟨vs, r'⟩, hvs, h⟩ := Option.bind_eq_some_iff.mp h
    cases h
    obtain ⟨u, rfl, hu⟩ := ih hvs
    exact ⟨'\\' :: 'u' :: x :: y :: z :: w :: u, rfl, .code hn hu⟩
  | case4 e r _ ih =>
    obtain ⟨c, hc, h⟩ := Option.bind_eq_some_iff.mp h
    obtain ⟨⟨vs, r'⟩, hvs, h⟩ := Option.bind_eq_some_iff.mp h
    cases h
    obtain ⟨u, rfl, hu⟩ := ih hvs
    exact ⟨'\\' :: e :: u, rfl, .short hc hu⟩
  | case5 => cases h
  | case6 c r quote _ slash printable ih =>
    obtain ⟨⟨vs, r'⟩, hvs, h⟩ := Option.bind_eq_some_iff.mp h
    cases h
    obtain ⟨u, rfl, hu⟩ := ih hvs
    -- a backslash would have had something after it
    have hslash : c ≠ '\\' := by
      intro hc
      cases u with
      | nil => exact slash '"' _ hc rfl
      | cons e u => exact slash e _ hc rfl
    exact ⟨c :: u, rfl, .plain quote hslash printable hu⟩

theorem hexDigit?_lt {c : Char} {d : Nat} (h : hexDigit? c = some d) : d < 16 := by
  have hzero : '0'.toNat = 48 := rfl
  have hnine : '9'.toNat = 57 := rfl
  have ha : 'a'.toNat = 97 := rfl
  have hf : 'f'.toNat = 102 := rfl
  have hA : 'A'.toNat = 65 := rfl
  have hF : 'F'.toNat = 70 := rfl
  simp only [hexDigit?, Char.le_def, UInt32.le_iff_toNat_le, Char.toNat_val] at h
  split at h
  · obtain rfl := Option.some.inj h
    omega
  split at h
  · obtain rfl := Option.some.inj h
    omega
  split at h
  · obtain rfl := Option.some.inj h
    omega
  · cases h

theorem code?_lt {x y z w : Char} {n : Nat} (h : code? x y z w = some n) : n < 0x10000 := by
  obtain ⟨a, ha, h⟩ := Option.bind_eq_some_iff.mp h
  obtain ⟨b, hb, h⟩ := Option.bind_eq_some_iff.mp h
  obtain ⟨c, hc, h⟩ := Option.bind_eq_some_iff.mp h
  obtain ⟨d, hd, h⟩ := Option.bind_eq_some_iff.mp h
  obtain rfl := Option.some.inj h
  have ha := hexDigit?_lt ha
  have hb := hexDigit?_lt hb
  have hc := hexDigit?_lt hc
  have hd := hexDigit?_lt hd
  omega

theorem toNat_ofNat {n : Nat} (h : n < 0xD800 ∨ 0xDFFF < n ∧ n < 0x110000) :
    (Char.ofNat n).toNat = n := by
  have hvalid : n.isValidChar := h
  rw [Char.ofNat, dif_pos hvalid]
  rfl

theorem stringText_of_assemble? {us : List Unit} {s t : Text} (h : UnitsText us t)
    (hs : assemble? us = some s) : StringText s t := by
  fun_induction assemble? us generalizing s t with
  | case1 =>
    cases hs
    cases h
    exact .nil
  | case2 c r ih =>
    obtain ⟨s, hr, rfl⟩ := Option.map_eq_some_iff.mp hs
    cases h with
    | plain quote slash printable tail => exact .plain quote slash printable (ih tail hr)
    | short escaped tail => exact .short escaped (ih tail hr)
  | case3 hi lo r hpair ih =>
    obtain ⟨s, hr, rfl⟩ := Option.map_eq_some_iff.mp hs
    cases h with
    | code high tail =>
      cases tail with
      | code low tail =>
        exact .pair high low ⟨hpair.1, hpair.2.1⟩ ⟨hpair.2.2.1, hpair.2.2.2⟩
          (toNat_ofNat (by omega)) (ih tail hr)
  | case4 => cases hs
  | case5 hi lo r _ basic ih =>
    obtain ⟨s, hr, rfl⟩ := Option.map_eq_some_iff.mp hs
    cases h with
    | code unit tail =>
      have hlt := code?_lt unit
      exact .code (by rwa [toNat_ofNat (by omega)]) (ih tail hr)
  | case6 => cases hs
  | case7 n r _ basic ih =>
    obtain ⟨s, hr, rfl⟩ := Option.map_eq_some_iff.mp hs
    cases h with
    | code unit tail =>
      have hlt := code?_lt unit
      exact .code (by rwa [toNat_ofNat (by omega)]) (ih tail hr)

/-- A string that is read, and is text, is written by the syntax. -/
theorem stringText_of_string? {t rest : Text} {s : String} (h : string? t = some (some s, rest)) :
    ∃ u, t = u ++ '"' :: rest ∧ StringText s.toList u := by
  obtain ⟨⟨us, r⟩, hus, h⟩ := Option.bind_eq_some_iff.mp h
  obtain ⟨hs, rfl⟩ := Prod.mk.inj (Option.some.inj h)
  obtain ⟨cs, hcs, rfl⟩ := Option.map_eq_some_iff.mp hs
  obtain ⟨u, rfl, hu⟩ := unitsText_of_units? t hus
  exact ⟨u, rfl, String.toList_ofList ▸ stringText_of_assemble? hu hcs⟩

/-! ## Numbers -/

theorem digitChar_of_digit? {c : Char} {d : Nat} (h : digit? c = some d) :
    c = digitChar d ∧ d < 10 := by
  have hzero : '0'.toNat = 48 := rfl
  have hnine : '9'.toNat = 57 := rfl
  have key : ∀ d : Fin 10, Char.ofNat (d + 48) = digitChar d := by decide
  simp only [digit?, Char.le_def, UInt32.le_iff_toNat_le, Char.toNat_val] at h
  split at h
  · obtain rfl := Option.some.inj h
    have hd : c.toNat - '0'.toNat < 10 := by omega
    have hc : c.toNat - '0'.toNat + 48 = c.toNat := by omega
    have hchar := key ⟨_, hd⟩
    rw [hc, Char.ofNat_toNat] at hchar
    exact ⟨hchar, hd⟩
  · cases h

/-- The digits that are read are those that the text begins with. -/
theorem digits_eq (t : Text) :
    t = (digits t).1.map digitChar ++ (digits t).2 ∧ ∀ d ∈ (digits t).1, d < 10 := by
  induction t with
  | nil => exact ⟨rfl, by simp [digits]⟩
  | cons c t ih =>
    cases hc : digit? c with
    | none =>
      have hnone : digits (c :: t) = ([], c :: t) := by simp [digits, hc]
      rw [hnone]
      exact ⟨rfl, by simp⟩
    | some d =>
      obtain ⟨rfl, hd⟩ := digitChar_of_digit? hc
      have hcons : digits (digitChar d :: t) = (d :: (digits t).1, (digits t).2) := by
        simp [digits, hc]
      rw [hcons]
      refine ⟨?_, List.forall_mem_cons.mpr ⟨hd, ih.2⟩⟩
      rw [List.map_cons, List.cons_append, ← ih.1]

theorem whole_of_whole? {t rest : Text} {ds : List Nat} (h : whole? t = some (ds, rest)) :
    t = ds.map digitChar ++ rest ∧ (∀ d ∈ ds, d < 10) ∧
      (ds = [0] ∨ ∃ d r, ds = (d + 1) :: r) := by
  obtain ⟨ht, hbelow⟩ := digits_eq t
  rw [whole?] at h
  generalize digits t = p at h ht hbelow
  obtain ⟨ds', rest'⟩ := p
  have key : ds' = ds ∧ rest' = rest ∧ (ds = [0] ∨ ∃ d r, ds = (d + 1) :: r) := by
    rcases ds' with _ | ⟨_ | d, _ | ⟨e, r⟩⟩
    · cases h
    · cases h
      exact ⟨rfl, rfl, .inl rfl⟩
    · cases h
    · cases h
      exact ⟨rfl, rfl, .inr ⟨d, [], rfl⟩⟩
    · cases h
      exact ⟨rfl, rfl, .inr ⟨d, e :: r, rfl⟩⟩
  obtain ⟨rfl, rfl, leading⟩ := key
  exact ⟨ht, hbelow, leading⟩

theorem fractionText_of_fraction? {t rest : Text} {fraction : Option (List Nat)}
    (h : fraction? t = some (fraction, rest)) : ∃ f, t = f ++ rest ∧ FractionText fraction f := by
  rw [fraction?.eq_def] at h
  split at h
  · next r =>
    obtain ⟨ht, hbelow⟩ := digits_eq r
    generalize digits r = p at h ht hbelow
    obtain ⟨_ | ⟨d, ds⟩, rest'⟩ := p
    · cases h
    · cases h
      exact ⟨'.' :: (d :: ds).map digitChar, congrArg ('.' :: ·) ht,
        .some (by simp) hbelow⟩
  · cases h
    exact ⟨[], rfl, .none⟩

theorem signText_of_exponentSign (t : Text) :
    ∃ sign, t = sign ++ (exponentSign t).2 ∧ SignText (exponentSign t).1 sign := by
  rw [exponentSign.eq_def]
  split
  · exact ⟨['-'], rfl, .minus⟩
  · exact ⟨['+'], rfl, .plus⟩
  · exact ⟨[], rfl, .absent⟩

theorem exponentText_of_exponent? {t rest : Text} {exponent : Option (Bool × List Nat)}
    (h : exponent? t = some (exponent, rest)) : ∃ e, t = e ++ rest ∧ ExponentText exponent e := by
  cases t with
  | nil =>
    cases h
    exact ⟨[], rfl, .none⟩
  | cons c r =>
    rw [exponent?] at h
    split at h
    · next mark =>
      obtain ⟨sign, hr, hsign⟩ := signText_of_exponentSign r
      obtain ⟨ht, hbelow⟩ := digits_eq (exponentSign r).2
      dsimp only at h
      generalize digits (exponentSign r).2 = p at h ht hbelow
      obtain ⟨_ | ⟨d, ds⟩, rest'⟩ := p
      · cases h
      · cases h
        refine ⟨c :: (sign ++ (d :: ds).map digitChar), ?_,
          .some mark hsign (by simp) hbelow⟩
        rw [List.cons_append, List.append_assoc, ← ht, ← hr]
    · cases h
      exact ⟨[], rfl, .none⟩

/-- A number that is read is written by the syntax. -/
theorem writtenAs_of_numeral? {t rest : Text} {n : Numeral} (h : numeral? t = some (n, rest)) :
    ∃ u, t = u ++ rest ∧ n.WrittenAs u := by
  unfold numeral? at h
  split at h
  next negative body hsign =>
  obtain ⟨⟨whole, t₁⟩, hwhole, h⟩ := Option.bind_eq_some_iff.mp h
  obtain ⟨⟨fraction, t₂⟩, hfraction, h⟩ := Option.bind_eq_some_iff.mp h
  obtain ⟨⟨exponent, t₃⟩, hexponent, h⟩ := Option.bind_eq_some_iff.mp h
  cases h
  have ht : t = (if negative then ['-'] else []) ++ body := by
    split at hsign <;> cases hsign <;> rfl
  obtain ⟨rfl, below, leading⟩ := whole_of_whole? hwhole
  obtain ⟨f, rfl, hf⟩ := fractionText_of_fraction? hfraction
  obtain ⟨e, rfl, he⟩ := exponentText_of_exponent? hexponent
  exact ⟨_, by simp [ht], .mk below leading hf he⟩

/-! ## Values -/

theorem exists_blanks (t : Text) : ∃ b, Blanks b ∧ t = b ++ skip t := by
  refine ⟨t.takeWhile fun c => c = ' ' || c = '\n' || c = '\t' || c = '\r', ?_, ?_⟩
  · intro c hc
    simpa [or_assoc] using List.all_eq_true.mp List.all_takeWhile c hc
  · exact List.takeWhile_append_dropWhile.symm

/-- What the reader reads with so much fuel is written by the syntax, after blanks, if it has a value. -/
def AcceptsValues (fuel : Nat) : Prop :=
  ∀ (t rest : Text) (s : Source) (v : Json), value? fuel t = some (s, rest) → s.value? = some v →
    ∃ b u, Blanks b ∧ t = b ++ (u ++ rest) ∧ s.WrittenAs u

/-- The same for the items of an array. -/
def AcceptsItems (fuel : Nat) : Prop :=
  ∀ (t rest : Text) (xs : List Source) (vs : List Json), items? fuel t = some (xs, rest) →
    Source.items? xs = some vs → ∃ u, t = u ++ rest ∧ ItemsWrittenAs xs u

/-- The same for the fields of an object. -/
def AcceptsFields (fuel : Nat) : Prop :=
  ∀ (t rest : Text) (fs : List (Option String × Source)) (vs : List (String × Json)),
    fields? fuel t = some (fs, rest) → Source.fields? fs = some vs →
    ∃ gs u, fs = named gs ∧ t = u ++ rest ∧ FieldsWrittenAs gs u

theorem acceptsValues_succ {fuel : Nat} (items : AcceptsItems fuel) (fields : AcceptsFields fuel) :
    AcceptsValues (fuel + 1) := by
  intro t rest s v h hv
  obtain ⟨b, hb, ht⟩ := exists_blanks t
  refine ⟨b, ?_⟩
  suffices hread : ∃ u, skip t = u ++ rest ∧ s.WrittenAs u by
    obtain ⟨u, hu, hs⟩ := hread
    exact ⟨u, hb, hu ▸ ht, hs⟩
  rw [value?] at h
  split at h
  · next r hskip =>
    cases h
    exact ⟨_, hskip, .null⟩
  · next r hskip =>
    cases h
    exact ⟨_, hskip, .true⟩
  · next r hskip =>
    cases h
    exact ⟨_, hskip, .false⟩
  · next r hskip =>
    obtain ⟨⟨s?, r'⟩, hs, h⟩ := Option.map_eq_some_iff.mp h
    cases h
    obtain ⟨str, hstr, -⟩ := Option.map_eq_some_iff.mp hv
    subst hstr
    obtain ⟨u, rfl, hu⟩ := stringText_of_string? hs
    exact ⟨'"' :: (u ++ ['"']), by simp [hskip], .string hu⟩
  · next r hskip =>
    obtain ⟨b', hb', hr⟩ := exists_blanks r
    split at h
    · next rest' hclose =>
      cases h
      exact ⟨'[' :: (b' ++ [']']), hskip.trans (by rw [hr, hclose]; simp), .emptyArray hb'⟩
    · obtain ⟨⟨xs, r'⟩, hxs, h⟩ := Option.map_eq_some_iff.mp h
      cases h
      obtain ⟨vs, hvs, -⟩ := Option.map_eq_some_iff.mp hv
      obtain ⟨u, rfl, hu⟩ := items _ _ _ _ hxs hvs
      exact ⟨'[' :: u, hskip, .array hu⟩
  · next r hskip =>
    obtain ⟨b', hb', hr⟩ := exists_blanks r
    split at h
    · next rest' hclose =>
      cases h
      exact ⟨'\x7b' :: (b' ++ ['\x7d']), hskip.trans (by rw [hr, hclose]; simp), .emptyObject hb'⟩
    · obtain ⟨⟨fs, r'⟩, hfs, h⟩ := Option.map_eq_some_iff.mp h
      cases h
      obtain ⟨vs, hvs, -⟩ := Option.map_eq_some_iff.mp hv
      obtain ⟨gs, u, rfl, rfl, hu⟩ := fields _ _ _ _ hfs hvs
      exact ⟨'\x7b' :: u, hskip, .object hu⟩
  · obtain ⟨⟨n, r'⟩, hn, h⟩ := Option.map_eq_some_iff.mp h
    cases h
    obtain ⟨u, hu, hwritten⟩ := writtenAs_of_numeral? hn
    exact ⟨u, hu, .number hwritten⟩

/-- A value that is read, up to the mark behind it, is written with blanks around it. -/
theorem spaced_of_value? {fuel : Nat} (values : AcceptsValues fuel) {t r rest : Text} {s : Source}
    {v : Json} {c : Char} (h : value? fuel t = some (s, r)) (hv : s.value? = some v)
    (mark : skip r = c :: rest) : ∃ u, t = u ++ c :: rest ∧ s.Spaced u := by
  obtain ⟨b, u, hb, rfl, hs⟩ := values t r s v h hv
  obtain ⟨b', hb', hr⟩ := exists_blanks r
  refine ⟨b ++ (u ++ b'), ?_, .mk hb hs hb'⟩
  rw [hr, mark]
  simp

theorem acceptsItems_succ {fuel : Nat} (values : AcceptsValues fuel) (items : AcceptsItems fuel) :
    AcceptsItems (fuel + 1) := by
  intro t rest xs vs h hvs
  obtain ⟨⟨x, r⟩, hx, h⟩ := Option.bind_eq_some_iff.mp h
  dsimp only at h
  split at h
  · next r' hskip =>
    obtain ⟨⟨ys, r''⟩, hys, h⟩ := Option.bind_eq_some_iff.mp h
    cases h
    obtain ⟨v, hv, hvs⟩ := Option.bind_eq_some_iff.mp hvs
    obtain ⟨ws, hws, -⟩ := Option.bind_eq_some_iff.mp hvs
    obtain ⟨u, rfl, hu⟩ := spaced_of_value? values hx hv hskip
    obtain ⟨w, rfl, hw⟩ := items _ _ _ _ hys hws
    exact ⟨u ++ ',' :: w, by simp, .cons hu hw⟩
  · next r' hskip =>
    cases h
    obtain ⟨v, hv, -⟩ := Option.bind_eq_some_iff.mp hvs
    obtain ⟨u, rfl, hu⟩ := spaced_of_value? values hx hv hskip
    exact ⟨u ++ [']'], by simp, .last hu⟩
  · cases h

theorem acceptsFields_succ {fuel : Nat} (values : AcceptsValues fuel) (fields : AcceptsFields fuel) :
    AcceptsFields (fuel + 1) := by
  intro t rest fs vs h hvs
  rw [fields?] at h
  split at h
  case h_2 => cases h
  next r hquote =>
  obtain ⟨⟨name, r₁⟩, hname, h⟩ := Option.bind_eq_some_iff.mp h
  dsimp only at h
  split at h
  case h_2 => cases h
  next r₂ hcolon =>
  obtain ⟨⟨x, r₃⟩, hx, h⟩ := Option.bind_eq_some_iff.mp h
  obtain ⟨b, hb, ht⟩ := exists_blanks t
  obtain ⟨b', hb', hr₁⟩ := exists_blanks r₁
  -- the field is written up to the mark behind it
  have field {k : String} {v : Json} {c : Char} {r₄ : Text} (hk : name = some k)
      (hv : x.value? = some v) (mark : skip r₃ = c :: r₄) :
      ∃ u, t = u ++ c :: r₄ ∧ FieldWrittenAs (k, x) u := by
    subst hk
    obtain ⟨n, rfl, hn⟩ := stringText_of_string? hname
    obtain ⟨u, rfl, hu⟩ := spaced_of_value? values hx hv mark
    refine ⟨b ++ '"' :: (n ++ '"' :: (b' ++ ':' :: u)), ?_, .mk hb hn hb' hu⟩
    rw [ht, hquote, hr₁, hcolon]
    simp
  dsimp only at h
  split at h
  · next r₄ hskip =>
    obtain ⟨⟨gs, r₅⟩, hgs, h⟩ := Option.bind_eq_some_iff.mp h
    cases h
    obtain ⟨k, hk, hvs⟩ := Option.bind_eq_some_iff.mp hvs
    obtain ⟨v, hv, hvs⟩ := Option.bind_eq_some_iff.mp hvs
    obtain ⟨ws, hws, -⟩ := Option.bind_eq_some_iff.mp hvs
    obtain ⟨u, rfl, hu⟩ := field hk hv hskip
    obtain ⟨gs, w, rfl, rfl, hw⟩ := fields _ _ _ _ hgs hws
    subst hk
    exact ⟨(k, x) :: gs, u ++ ',' :: w, rfl, by simp, .cons hu hw⟩
  · next r₄ hskip =>
    cases h
    obtain ⟨k, hk, hvs⟩ := Option.bind_eq_some_iff.mp hvs
    obtain ⟨v, hv, -⟩ := Option.bind_eq_some_iff.mp hvs
    obtain ⟨u, rfl, hu⟩ := field hk hv hskip
    subst hk
    exact ⟨[(k, x)], u ++ ['\x7d'], rfl, by simp, .last hu⟩
  · cases h

theorem accepts (fuel : Nat) : AcceptsValues fuel ∧ AcceptsItems fuel ∧ AcceptsFields fuel := by
  induction fuel with
  | zero =>
    refine ⟨?_, ?_, ?_⟩
    · intro t rest s v h
      cases h
    · intro t rest xs vs h
      cases h
    · intro t rest fs vs h
      cases h
  | succ fuel ih =>
    obtain ⟨values, items, fields⟩ := ih
    exact ⟨acceptsValues_succ items fields, acceptsItems_succ values items,
      acceptsFields_succ values fields⟩

end Reader

open Reader Source

/-- The text is JSON of the value: written by the syntax, and not too deep. -/
def WrittenIn (v : Json) (t : Text) : Prop :=
  ∃ s : Source, s.Spaced t ∧ s.depth ≤ nestingLimit ∧ s.value? = some v

/-- The reader reads the texts that are JSON, and no others. -/
theorem read?_eq_some_iff {t : Text} {v : Json} : read? t = some v ↔ v.WrittenIn t := by
  constructor
  · intro h
    obtain ⟨s, hread, hwithin⟩ := Option.bind_eq_some_iff.mp h
    obtain ⟨⟨s', rest⟩, hvalue, hread⟩ := Option.bind_eq_some_iff.mp hread
    obtain ⟨hend, hread⟩ := Option.ite_none_right_eq_some.mp hread
    obtain ⟨hdepth, hv⟩ := Option.ite_none_right_eq_some.mp hwithin
    obtain rfl := Option.some.inj hread
    obtain ⟨b, u, hb, rfl, hu⟩ := (accepts _).1 t rest s' v hvalue hv
    obtain ⟨b', hb', hrest⟩ := exists_blanks rest
    rw [hend, List.append_nil] at hrest
    exact ⟨s', .mk hb hu (hrest ▸ hb'), hdepth, hv⟩
  · rintro ⟨s, hs, hdepth, hv⟩
    rw [read?, Source.read?_of_spaced hs]
    exact (if_pos hdepth).trans hv

end NotebookKernels.Json
