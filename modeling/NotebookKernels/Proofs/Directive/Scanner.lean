import NotebookKernels.Directive.Literal
import NotebookKernels.Proofs.Identifier

/- Single-quoted literals, as Python reads them.

   `scan` goes through source text from left to right and takes it apart: the code outside the
   literals, in segments, and the values of the literals. It knows no other quoting, so it gives up
   where a double quote, a comment, a backslash in code, a prefixed or a triple-quoted literal would
   need other rules. `scan_render` is what it makes of a snippet: its code and its values. -/
namespace NotebookKernels.Python

/-! ## The scanner -/

/-- What the next character belongs to. -/
inductive Mode where
  | code
  /-- The first character after the quote that opens a literal. -/
  | opened
  /-- The character after two quotes. A third one opens a literal of another kind. -/
  | doubled
  /-- The inside of a literal. -/
  | inside
  /-- The character after a backslash. -/
  | escaped
  /-- The digits of a numbered character: their base, how many may follow, the number so far. -/
  | numbered (base left value : Nat)
  deriving DecidableEq, Repr

/-- What a scan has read. -/
structure Scan where
  /-- The code before each literal. -/
  outside : List Text
  /-- The values of the literals. -/
  values : List Text
  /-- The code since the last literal, or the value since the last opening quote. -/
  reading : Text
  mode : Mode
  deriving DecidableEq, Repr

/-- The character that a backslash and one other character stand for. -/
def simpleEscape? (c : Char) : Option Char :=
  if c = '\\' ∨ c = '\'' ∨ c = '"' then some c
  else if c = 'n' then some '\n'
  else if c = 'r' then some '\r'
  else if c = 't' then some '\t'
  else if c = 'a' then some '\x07'
  else if c = 'b' then some '\x08'
  else if c = 'f' then some '\x0c'
  else if c = 'v' then some '\x0b'
  else none

def digitOf? (base : Nat) (c : Char) : Option Nat := (Decimal.hexDigit? c).filter (· < base)

namespace Scan

/-- One more character of the value. -/
def put (σ : Scan) (c : Char) : Scan := { σ with reading := σ.reading ++ [c], mode := .inside }

/-- The character of this number, if there is one. -/
def putNumber (σ : Scan) (n : Nat) : Option Scan :=
  if n.isValidChar then some (σ.put (Char.ofNat n)) else none

/-- The literal ends. -/
def close (σ : Scan) : Scan := ⟨σ.outside, σ.values ++ [σ.reading], [], .code⟩

/-- A character of code. A quote opens a literal, unless the name before it would be its prefix. -/
def readCode (σ : Scan) (c : Char) : Option Scan :=
  if c = '\'' then
    if σ.reading.getLast?.all fun d => !isIdentifierPart d then
      some ⟨σ.outside ++ [σ.reading], σ.values, [], .opened⟩
    else none
  else if c = '"' ∨ c = '#' ∨ c = '\\' then none
  else some { σ with reading := σ.reading ++ [c] }

/-- A character inside a literal, which may not hold the end of a line or a null character. -/
def readValue (σ : Scan) (c : Char) : Option Scan :=
  if c = '\'' then some σ.close
  else if c = '\\' then some { σ with mode := .escaped }
  else if c = '\n' ∨ c = '\r' ∨ c = '\x00' then none
  else some (σ.put c)

/-- The character after a backslash. An escaped line feed stands for nothing, and a character that
means nothing special keeps its backslash. Characters by name are not read. -/
def readEscape (σ : Scan) (c : Char) : Option Scan :=
  match simpleEscape? c with
  | some d => some (σ.put d)
  | none =>
    if c = 'x' then some { σ with mode := .numbered 16 2 0 }
    else if c = 'u' then some { σ with mode := .numbered 16 4 0 }
    else if c = 'U' then some { σ with mode := .numbered 16 8 0 }
    else if c = '\n' then some { σ with mode := .inside }
    else if c = 'N' ∨ c = '\r' ∨ c = '\x00' then none
    else match digitOf? 8 c with
      | some d => some { σ with mode := .numbered 8 2 d }
      | none => some ((σ.put '\\').put c)

/-- A digit of a numbered character. An octal number may end early. -/
def readDigit (σ : Scan) (base left value : Nat) (c : Char) : Option Scan :=
  match digitOf? base c with
  | some d =>
    if left ≤ 1 then σ.putNumber (value * base + d)
    else some { σ with mode := .numbered base (left - 1) (value * base + d) }
  | none => if base = 8 then (σ.putNumber value).bind (·.readValue c) else none

def next (σ : Scan) (c : Char) : Option Scan :=
  match σ.mode with
  | .code => σ.readCode c
  | .opened => if c = '\'' then some { σ with mode := .doubled } else σ.readValue c
  | .doubled => if c = '\'' then none else σ.close.readCode c
  | .inside => σ.readValue c
  | .escaped => σ.readEscape c
  | .numbered base left value => σ.readDigit base left value c

/-- The source is at its end, which may not be inside a literal. -/
def finish (σ : Scan) : Option (List Text × List Text) :=
  match σ.mode with
  | .code => some (σ.outside ++ [σ.reading], σ.values)
  | .doubled => some (σ.outside ++ [[]], σ.values ++ [σ.reading])
  | .opened | .inside | .escaped | .numbered .. => none

/-- Reads on to the end of the source. -/
def readOn : Scan → Text → Option (List Text × List Text)
  | σ, [] => σ.finish
  | σ, c :: t => (σ.next c).bind (readOn · t)

end Scan

/-- The segments of code outside the literals, and the values of the literals; nothing if the source
does not end outside a literal, or if it needs other rules than those of single-quoted literals. -/
def scan (t : Text) : Option (List Text × List Text) := Scan.readOn ⟨[], [], [], .code⟩ t

/-! ## What a literal is worth -/

/-- Neither a control character nor the delete character. -/
def Printable (c : Char) : Prop := 0x20 ≤ c.toNat ∧ c.toNat ≠ 0x7f

theorem Printable.not_line_end {c : Char} (h : Printable c) : ¬(c = '\n' ∨ c = '\r' ∨ c = '\x00') := by
  rintro (rfl | rfl | rfl) <;> exact absurd h.1 (by decide)

theorem printable_digitChar {n : Nat} (h : n < 16) : Printable (Decimal.digitChar n) := by
  have key : ∀ n : Fin 16, 0x20 ≤ (Decimal.digitChar n.val).toNat ∧
      (Decimal.digitChar n.val).toNat ≠ 0x7f := by decide
  exact key ⟨n, h⟩

/-- The characters that `escape` writes after a backslash. -/
def escapeLetters : Text := ['\\', '\'', 'n', 'r', 't', 'x']

theorem printable_letter {c : Char} (h : c ∈ escapeLetters) : Printable c := by
  have key : escapeLetters.all (fun c => 0x20 ≤ c.toNat && c.toNat ≠ 0x7f) = true := by decide
  simpa [Printable] using List.all_eq_true.mp key c h

namespace Scan

variable {σ : Scan} {o vs : List Text} {x v t : Text} {c : Char}

theorem readOn_cons {τ : Scan} (h : σ.next c = some τ) : σ.readOn (c :: t) = τ.readOn t := by
  rw [readOn, h, Option.bind_some]

theorem digitOf?_digitChar {n : Nat} (h : n < 16) : digitOf? 16 (Decimal.digitChar n) = some n := by
  simp [digitOf?, Decimal.hexDigit?_digitChar h, h]

/-- A numbered escape of two digits is worth the character of that number. -/
theorem readOn_hex (h : c.toNat < 256) :
    readOn ⟨o, vs, x, .inside⟩
      ('\\' :: 'x' :: Decimal.digitChar (c.toNat / 16) :: Decimal.digitChar (c.toNat % 16) :: t) =
    readOn ⟨o, vs, x ++ [c], .inside⟩ t := by
  have hhigh : digitOf? 16 (Decimal.digitChar (c.toNat / 16)) = some (c.toNat / 16) :=
    digitOf?_digitChar (by omega)
  have hlow : digitOf? 16 (Decimal.digitChar (c.toNat % 16)) = some (c.toNat % 16) :=
    digitOf?_digitChar (by omega)
  have hnumber : c.toNat / 16 * 16 + c.toNat % 16 = c.toNat := by
    omega
  have hput : putNumber ⟨o, vs, x, .numbered 16 1 (c.toNat / 16)⟩ c.toNat =
      some ⟨o, vs, x ++ [c], .inside⟩ := by
    have hvalid : c.toNat.isValidChar := c.valid
    rw [putNumber, if_pos hvalid, Char.ofNat_toNat]
    rfl
  rw [readOn_cons rfl, readOn_cons rfl,
    readOn_cons (τ := ⟨o, vs, x, .numbered 16 1 (c.toNat / 16)⟩)]
  · apply readOn_cons
    simp only [next, readDigit, hlow, hnumber, hput]
    rfl
  · simp only [next, readDigit, hhigh]
    simp

/-- A character is written by a letter, by its number, or as itself. -/
theorem escape_forms (c : Char) :
    (∃ m ∈ escapeLetters, escape c = ['\\', m] ∧ simpleEscape? m = some c) ∨
    (escape c = ['\\', 'x', Decimal.digitChar (c.toNat / 16), Decimal.digitChar (c.toNat % 16)] ∧
      c.toNat < 256) ∨
    (escape c = [c] ∧ c ≠ '\\' ∧ c ≠ '\'' ∧ Printable c) := by
  by_cases hback : c = '\\'
  · subst hback
    exact .inl ⟨'\\', by decide, rfl, rfl⟩
  by_cases hquote : c = '\''
  · subst hquote
    exact .inl ⟨'\'', by decide, rfl, rfl⟩
  by_cases hfeed : c = '\n'
  · subst hfeed
    exact .inl ⟨'n', by decide, rfl, rfl⟩
  by_cases hreturn : c = '\r'
  · subst hreturn
    exact .inl ⟨'r', by decide, rfl, rfl⟩
  by_cases htab : c = '\t'
  · subst htab
    exact .inl ⟨'t', by decide, rfl, rfl⟩
  by_cases hcontrol : c.toNat < 0x20 ∨ c.toNat = 0x7f
  · refine .inr (.inl ⟨?_, by omega⟩)
    simp only [escape, hback, hquote, hfeed, hreturn, htab, hcontrol, if_true, if_false]
  · refine .inr (.inr ⟨?_, hback, hquote, by omega, by omega⟩)
    simp only [escape, hback, hquote, hfeed, hreturn, htab, hcontrol, if_false]

/-- What is written for a character is worth that character. -/
theorem readOn_escape (c : Char) (t : Text) :
    readOn ⟨o, vs, x, .inside⟩ (escape c ++ t) = readOn ⟨o, vs, x ++ [c], .inside⟩ t := by
  rcases escape_forms c with ⟨m, -, hc, hm⟩ | ⟨hc, hlt⟩ | ⟨hc, hback, hquote, printable⟩
  · rw [hc, List.cons_append, readOn_cons (τ := ⟨o, vs, x, .escaped⟩) rfl]
    apply readOn_cons
    simp only [next, readEscape, hm, put]
  · rw [hc]
    exact readOn_hex hlt
  · rw [hc]
    apply readOn_cons
    simp only [next, readValue, hback, hquote, printable.not_line_end, if_false, put]

theorem readOn_escapes (v t : Text) :
    readOn ⟨o, vs, x, .inside⟩ (v.flatMap escape ++ t) = readOn ⟨o, vs, x ++ v, .inside⟩ t := by
  induction v generalizing x with
  | nil => simp
  | cons c v ih =>
    calc readOn ⟨o, vs, x, .inside⟩ ((c :: v).flatMap escape ++ t)
        = readOn ⟨o, vs, x, .inside⟩ (escape c ++ (v.flatMap escape ++ t)) := by
          rw [List.flatMap_cons, List.append_assoc]
      _ = readOn ⟨o, vs, x ++ [c] ++ v, .inside⟩ t := by rw [readOn_escape, ih]
      _ = readOn ⟨o, vs, x ++ c :: v, .inside⟩ t := by rw [List.append_assoc, List.singleton_append]

/-- A value that is not empty is read in the same way from its first character on. -/
theorem readOn_opened (h : c ≠ '\'') :
    readOn ⟨o, vs, [], .opened⟩ (c :: t) = readOn ⟨o, vs, [], .inside⟩ (c :: t) := by
  simp only [readOn, next, if_neg h]
  rfl

/-- An empty literal ends unless a third quote follows. -/
theorem readOn_doubled (h : t.head? ≠ some '\'') :
    readOn ⟨o, vs, [], .doubled⟩ t = readOn ⟨o, vs ++ [[]], [], .code⟩ t := by
  cases t with
  | nil => rfl
  | cons c t =>
    have hc : c ≠ '\'' := by
      intro hc
      exact h (congrArg some hc)
    simp only [readOn, next, if_neg hc]
    rfl

theorem printable_of_mem_escape {d : Char} (h : d ∈ escape c) : Printable d := by
  rcases escape_forms c with ⟨m, hm, hc, -⟩ | ⟨hc, hlt⟩ | ⟨hc, -, -, printable⟩
  · simp only [hc, List.mem_cons, List.not_mem_nil, or_false] at h
    rcases h with rfl | rfl
    · exact printable_letter (by decide)
    · exact printable_letter hm
  · simp only [hc, List.mem_cons, List.not_mem_nil, or_false] at h
    rcases h with rfl | rfl | rfl | rfl
    · exact printable_letter (by decide)
    · exact printable_letter (by decide)
    · exact printable_digitChar (by omega)
    · exact printable_digitChar (by omega)
  · rw [hc] at h
    exact List.mem_singleton.mp h ▸ printable

/-- A literal is one line of printable characters. -/
theorem printable_of_mem_literal {d : Char} (h : d ∈ literal v) : Printable d := by
  simp only [literal, List.mem_append, List.mem_cons, List.mem_flatMap, List.not_mem_nil, or_false] at h
  rcases h with (rfl | ⟨c, -, hd⟩) | rfl
  · exact printable_letter (by decide)
  · exact printable_of_mem_escape hd
  · exact printable_letter (by decide)

theorem head?_escape (c : Char) : ∃ d r, escape c = d :: r ∧ d ≠ '\'' := by
  rcases escape_forms c with ⟨m, -, hc, -⟩ | ⟨hc, -⟩ | ⟨hc, -, hquote, -⟩
  · exact ⟨_, _, hc, by decide⟩
  · exact ⟨_, _, hc, by decide⟩
  · exact ⟨_, _, hc, hquote⟩

/-- A literal is worth the text it was written for, where no name stands before it and no quote
after it. -/
theorem readOn_literal (before : x.getLast?.all (fun d => !isIdentifierPart d) = true)
    (after : t.head? ≠ some '\'') (v : Text) :
    readOn ⟨o, vs, x, .code⟩ (literal v ++ t) = readOn ⟨o ++ [x], vs ++ [v], [], .code⟩ t := by
  have hopen : next ⟨o, vs, x, .code⟩ '\'' = some ⟨o ++ [x], vs, [], .opened⟩ := by
    simp only [next, readCode, before, if_true]
  have hclose : next ⟨o ++ [x], vs, v, .inside⟩ '\'' = some ⟨o ++ [x], vs ++ [v], [], .code⟩ := rfl
  have hliteral : literal v ++ t = '\'' :: (v.flatMap escape ++ (['\''] ++ t)) := by
    simp [literal]
  rw [hliteral, readOn_cons hopen]
  -- the quotes of an empty literal touch, and what follows decides what they are
  cases v with
  | nil =>
    have htwice : next ⟨o ++ [x], vs, [], .opened⟩ '\'' = some ⟨o ++ [x], vs, [], .doubled⟩ := rfl
    exact (readOn_cons htwice).trans (readOn_doubled after)
  | cons c v =>
    obtain ⟨d, r, hc, hd⟩ := head?_escape c
    have hfirst : readOn ⟨o ++ [x], vs, [], .opened⟩ ((c :: v).flatMap escape ++ (['\''] ++ t)) =
        readOn ⟨o ++ [x], vs, [], .inside⟩ ((c :: v).flatMap escape ++ (['\''] ++ t)) := by
      rw [List.flatMap_cons, hc]
      exact readOn_opened hd
    rw [hfirst, readOn_escapes, List.nil_append]
    exact readOn_cons hclose

end Scan

/-! ## What a snippet is worth -/

/-- Code that the scanner takes as it stands. -/
def isPlain (t : Text) : Bool := t.all fun c => !(['\'', '"', '#', '\\'].contains c)

namespace Snippet

/-- The values of the snippet's literals. -/
def values (s : Snippet) : List Text :=
  s.filterMap fun
    | .code _ => none
    | .quoted v => some v

/-- The segments of code with this code before them. -/
def after (x : Text) : List Text → List Text
  | [] => [x]
  | y :: ys => (x ++ y) :: ys

/-- The segments of code around the snippet's literals. -/
def outside : Snippet → List Text
  | [] => [[]]
  | .code t :: s => after t (outside s)
  | .quoted _ :: s => [] :: outside s

/-- Can the snippet be scanned after this character of code, or right after a literal? Its code has
to be plain, no name stands before a literal, and no two literals touch. -/
def readable : Option Char → Snippet → Bool
  | _, [] => true
  | last, .code t :: s => isPlain t && readable (t.getLast?.or last) s
  | last, .quoted _ :: s => last.any (fun d => !isIdentifierPart d) && readable none s

variable {s : Snippet} {o vs : List Text} {x y t : Text} {ys : List Text} {last : Option Char}

theorem after_after (x y : Text) (ys : List Text) : after x (after y ys) = after (x ++ y) ys := by
  cases ys with
  | nil => rfl
  | cons z zs => simp [after]

theorem readOn_plain (h : isPlain y = true) :
    Scan.readOn ⟨o, vs, x, .code⟩ (y ++ t) = Scan.readOn ⟨o, vs, x ++ y, .code⟩ t := by
  induction y generalizing x with
  | nil => simp
  | cons c y ih =>
    simp only [isPlain, List.all_cons, Bool.and_eq_true] at h
    have hstep : Scan.next ⟨o, vs, x, .code⟩ c = some ⟨o, vs, x ++ [c], .code⟩ := by
      have hc := h.1
      simp at hc
      simp [Scan.next, Scan.readCode, hc]
    rw [List.cons_append, Scan.readOn_cons hstep, ih h.2, List.append_assoc, List.singleton_append]

/-- Right after a literal there is no quote. -/
theorem head?_render (h : s.readable none = true) : s.render.head? ≠ some '\'' := by
  induction s with
  | nil => simp [render]
  | cons p s ih =>
    cases p with
    | quoted v => simp [readable] at h
    | code t =>
      cases t with
      | nil => exact ih (by simpa [readable, isPlain] using h)
      | cons c t =>
        simp only [readable, isPlain, List.all_cons, Bool.and_eq_true] at h
        intro hc
        obtain rfl : c = '\'' := by simpa [render, Piece.render] using hc
        simp at h

theorem after_nil (s : Snippet) : after [] s.outside = s.outside := by
  cases s with
  | nil => rfl
  | cons p s =>
    cases p with
    | code t => exact after_after [] t _
    | quoted v => rfl

theorem readOn_render (h : s.readable last = true)
    (hx : ∀ d, x.getLast? = some d → last = some d) :
    Scan.readOn ⟨o, vs, x, .code⟩ s.render = some (o ++ after x s.outside, vs ++ s.values) := by
  -- `last` ends the code read so far; where that is empty, it is a line feed at the start of the
  -- source, which opens literals freely, and none right after a literal
  induction s generalizing o vs x last with
  | nil => simp [render, outside, after, values, Scan.readOn, Scan.finish]
  | cons p s ih =>
    cases p with
    | code t =>
      simp only [readable, Bool.and_eq_true] at h
      have hlast : ∀ d, (x ++ t).getLast? = some d → t.getLast?.or last = some d := by
        intro d hd
        rw [List.getLast?_append] at hd
        cases ht : t.getLast? with
        | none => exact hx d (by simpa [ht] using hd)
        | some e => simpa [ht] using hd
      calc Scan.readOn ⟨o, vs, x, .code⟩ (render (.code t :: s))
          = Scan.readOn ⟨o, vs, x ++ t, .code⟩ (render s) := readOn_plain h.1
        _ = some (o ++ after (x ++ t) (outside s), vs ++ values s) := ih h.2 hlast
        _ = some (o ++ after x (outside (.code t :: s)), vs ++ values (.code t :: s)) := by
            rw [outside, after_after]
            rfl
    | quoted v =>
      simp only [readable, Bool.and_eq_true] at h
      have before : x.getLast?.all (fun d => !isIdentifierPart d) = true := by
        cases hd : x.getLast? with
        | none => rfl
        | some d => simpa [hx d hd] using h.1
      calc Scan.readOn ⟨o, vs, x, .code⟩ (render (.quoted v :: s))
          = Scan.readOn ⟨o ++ [x], vs ++ [v], [], .code⟩ (render s) :=
            Scan.readOn_literal before (head?_render h.2) v
        _ = some (o ++ [x] ++ after [] (outside s), vs ++ [v] ++ values s) := ih h.2 (by simp)
        _ = some (o ++ after x (outside (.quoted v :: s)), vs ++ values (.quoted v :: s)) := by
            rw [after_nil]
            simp [outside, after, values]

/-- The last character of code after the snippet; none right after a literal. -/
def ends : Option Char → Snippet → Option Char
  | last, [] => last
  | last, .code t :: s => ends (t.getLast?.or last) s
  | _, .quoted _ :: s => ends none s

theorem readable_append (last : Option Char) (s r : Snippet) :
    readable last (s ++ r) = (readable last s && readable (ends last s) r) := by
  induction s generalizing last with
  | nil => rfl
  | cons p s ih =>
    cases p with
    | code t => simp only [List.cons_append, readable, ends, ih, Bool.and_assoc]
    | quoted v => simp only [List.cons_append, readable, ends, ih, Bool.and_assoc]

/-- The snippet with nothing in its literals. -/
def shape (s : Snippet) : Snippet :=
  s.map fun
    | .code t => .code t
    | .quoted _ => .quoted []

theorem outside_shape (s : Snippet) : s.shape.outside = s.outside := by
  induction s with
  | nil => rfl
  | cons p s ih =>
    cases p with
    | code t => exact congrArg (after t) ih
    | quoted v => exact congrArg ([] :: ·) ih

theorem values_append (s r : Snippet) : values (s ++ r) = values s ++ values r :=
  List.filterMap_append

theorem values_code (c : String) (s : Snippet) : values (code c :: s) = values s := rfl

theorem shape_append (s r : Snippet) : shape (s ++ r) = shape s ++ shape r := List.map_append

/-! ### Lists of literals -/

variable {ws us : List Text}

theorem quotedItems_cons (h : ws ≠ []) (t : Text) :
    quotedItems (t :: ws) = .quoted t :: code ", " :: quotedItems ws := by
  rw [quotedItems]
  exact h

theorem values_quotedItems (ws : List Text) : values (quotedItems ws) = ws := by
  induction ws using quotedItems.induct with
  | case1 | case2 => rfl
  | case3 t ts hts ih =>
    rw [quotedItems_cons hts]
    exact congrArg (t :: ·) ih

theorem readable_quotedItems (h : last.any (fun d => !isIdentifierPart d) = true) (ws : List Text) :
    readable last (quotedItems ws) = true := by
  induction ws using quotedItems.induct generalizing last with
  | case1 => rfl
  | case2 t => simp [quotedItems, readable, h]
  | case3 t ts hts ih =>
    have hcomma : readable none (code ", " :: quotedItems ts) = true := by
      simp only [code, readable, Bool.and_eq_true]
      exact ⟨by decide, ih (by decide)⟩
    rw [quotedItems_cons hts]
    simp only [readable, h, Bool.true_and]
    exact hcomma

theorem shape_quotedItems (h : ws.length = us.length) :
    shape (quotedItems ws) = shape (quotedItems us) := by
  induction ws using quotedItems.induct generalizing us with
  | case1 =>
    obtain rfl := List.eq_nil_of_length_eq_zero h.symm
    rfl
  | case2 t =>
    obtain ⟨u, rfl⟩ := List.length_eq_one_iff.mp h.symm
    rfl
  | case3 t ts hts ih =>
    obtain ⟨u, us, rfl⟩ := List.exists_cons_of_length_eq_add_one h.symm
    have hlen : ts.length = us.length := Nat.succ.inj h
    have hus : us ≠ [] := by
      rintro rfl
      exact hts (List.eq_nil_of_length_eq_zero hlen)
    rw [quotedItems_cons hts, quotedItems_cons hus]
    exact congrArg (.quoted [] :: code ", " :: ·) (ih hlen)

/-- A list display: some code and literals in front, and then a literal for each of the words. -/
def listDisplay (front : Snippet) (ws : List Text) : Snippet :=
  front ++ quotedItems ws ++ [code "]"]

end Snippet

/-- Scanning a readable snippet gives its code and its values. -/
theorem scan_render {s : Snippet} (h : s.readable (some '\n') = true) :
    scan s.render = some (s.outside, s.values) := by
  have hscan : scan s.render = some ([] ++ Snippet.after [] s.outside, [] ++ s.values) :=
    Snippet.readOn_render h (by simp)
  rwa [Snippet.after_nil] at hscan

example : scan "f('it\\'s', 2)".toList = some (["f(".toList, ", 2)".toList], ["it's".toList]) := by
  decide

end NotebookKernels.Python
