import NotebookKernels.Proofs.Directive.Scanner

/- A literal ends where it ends.

   A literal is one line of printable characters between two single quotes. `Reading` follows the
   scanner through it, character by character: which part of the value it has, and which escape it is
   in. From one step (`Reading.next`) it follows for all beginnings of the literal that the scanner is
   inside the literal until the last quote, and then has the value (`literal_closes`). So a text that
   ends in a backslash, or goes on with what looks like a digit or a quote, changes nothing. -/
namespace NotebookKernels.Python

variable {c d : Char} {t a b : Text}

namespace Scan

/-- The scan before the first character. -/
def start : Scan := ⟨[], [], [], .code⟩

/-- The scan after a beginning of the source, if it does not give up. -/
def after? (σ : Scan) (a : Text) : Option Scan := a.foldlM next σ

theorem after?_cons (σ : Scan) (c : Char) (a : Text) :
    σ.after? (c :: a) = (σ.next c).bind (·.after? a) := rfl

theorem readOn_eq (σ : Scan) (t : Text) : σ.readOn t = (σ.after? t).bind finish := by
  induction t generalizing σ with
  | nil => rfl
  | cons c t ih =>
    rw [readOn, after?_cons, Option.bind_assoc]
    exact congrArg _ (funext ih)

end Scan

/-- How the scanner stands in the literal of a text after the first quote, and what of the literal is
still to be read. The text is cut into what has been read, the character that is being read, and the
rest. -/
inductive Reading (t : Text) : Scan → Text → Prop
  | opened : Reading t ⟨[[]], [], [], .opened⟩ (t.flatMap escape ++ ['\''])
  | inside (u v : Text) (split : t = u ++ v) (begun : u ≠ []) :
      Reading t ⟨[[]], [], u, .inside⟩ (v.flatMap escape ++ ['\''])
  /-- One character after the backslash says which it is. -/
  | letter (u v : Text) (c m : Char) (split : t = u ++ c :: v) (worth : simpleEscape? m = some c)
      (letter : m ∈ escapeLetters) :
      Reading t ⟨[[]], [], u, .escaped⟩ (m :: (v.flatMap escape ++ ['\'']))
  /-- It is written by its number. -/
  | number (u v : Text) (c : Char) (split : t = u ++ c :: v) (small : c.toNat < 256) :
      Reading t ⟨[[]], [], u, .escaped⟩ ('x' :: Decimal.digitChar (c.toNat / 16) ::
        Decimal.digitChar (c.toNat % 16) :: (v.flatMap escape ++ ['\'']))
  | high (u v : Text) (c : Char) (split : t = u ++ c :: v) (small : c.toNat < 256) :
      Reading t ⟨[[]], [], u, .numbered 16 2 0⟩ (Decimal.digitChar (c.toNat / 16) ::
        Decimal.digitChar (c.toNat % 16) :: (v.flatMap escape ++ ['\'']))
  | low (u v : Text) (c : Char) (split : t = u ++ c :: v) (small : c.toNat < 256) :
      Reading t ⟨[[]], [], u, .numbered 16 1 (c.toNat / 16)⟩
        (Decimal.digitChar (c.toNat % 16) :: (v.flatMap escape ++ ['\'']))
  | closed (some : t ≠ []) : Reading t ⟨[[]], [t], [], .code⟩ []
  /-- The two quotes of an empty literal; a third would begin something else. -/
  | empty (none : t = []) : Reading t ⟨[[]], [], [], .doubled⟩ []

namespace Reading

open Scan

variable {σ : Scan}

/-- The first character of what is written for a character takes the scanner into it. -/
theorem enter {u v : Text} {mode : Mode} (split : t = u ++ c :: v)
    (value : ∀ e, e ≠ '\'' → next ⟨[[]], [], u, mode⟩ e = readValue ⟨[[]], [], u, mode⟩ e)
    (reads : (c :: v).flatMap escape ++ ['\''] = d :: b) :
    ∃ τ, next ⟨[[]], [], u, mode⟩ d = some τ ∧ Reading t τ b := by
  rw [List.flatMap_cons, List.append_assoc] at reads
  rcases escape_forms c with ⟨m, letter, hc, hm⟩ | ⟨hc, hlt⟩ | ⟨hc, hback, hquote, printable⟩
  · rw [hc] at reads
    obtain ⟨rfl, rfl⟩ := List.cons.inj reads
    exact ⟨_, value _ (by decide), .letter u v c m split hm letter⟩
  · rw [hc] at reads
    obtain ⟨rfl, rfl⟩ := List.cons.inj reads
    exact ⟨_, value _ (by decide), .number u v c split hlt⟩
  · rw [hc] at reads
    obtain ⟨rfl, rfl⟩ := List.cons.inj reads
    have hput : readValue ⟨[[]], [], u, mode⟩ c = some ⟨[[]], [], u ++ [c], .inside⟩ := by
      simp only [readValue, hback, hquote, printable.not_line_end, if_false, put]
    exact ⟨_, (value c hquote).trans hput, .inside (u ++ [c]) v (by simp [split]) (by simp)⟩

/-- The scanner takes the next character of the literal. -/
theorem next (h : Reading t σ (d :: b)) : ∃ τ, σ.next d = some τ ∧ Reading t τ b := by
  generalize hw : d :: b = w at h
  cases h with
  | opened =>
    cases ht : t with
    | nil =>
      subst ht
      obtain ⟨rfl, rfl⟩ := List.cons.inj hw
      exact ⟨_, rfl, .empty rfl⟩
    | cons c v =>
      subst ht
      exact enter (u := []) rfl (fun e he => if_neg he) hw.symm
  | inside u v split begun =>
    cases v with
    | nil =>
      obtain ⟨rfl, rfl⟩ := List.cons.inj hw
      obtain rfl : t = u := by simpa using split
      exact ⟨_, rfl, .closed begun⟩
    | cons c v => exact enter split (fun _ _ => rfl) hw.symm
  | letter u v c m split worth =>
    obtain ⟨rfl, rfl⟩ := List.cons.inj hw
    refine ⟨⟨[[]], [], u ++ [c], .inside⟩, ?_, .inside (u ++ [c]) v (by simp [split]) (by simp)⟩
    simp only [Scan.next, readEscape, worth, put]
  | number u v c split small =>
    obtain ⟨rfl, rfl⟩ := List.cons.inj hw
    exact ⟨_, rfl, .high u v c split small⟩
  | high u v c split small =>
    obtain ⟨rfl, rfl⟩ := List.cons.inj hw
    refine ⟨_, ?_, .low u v c split small⟩
    have hdigit : digitOf? 16 (Decimal.digitChar (c.toNat / 16)) = some (c.toNat / 16) :=
      digitOf?_digitChar (by omega)
    simp [Scan.next, readDigit, hdigit]
  | low u v c split small =>
    obtain ⟨rfl, rfl⟩ := List.cons.inj hw
    refine ⟨⟨[[]], [], u ++ [c], .inside⟩, ?_, .inside (u ++ [c]) v (by simp [split]) (by simp)⟩
    have hdigit : digitOf? 16 (Decimal.digitChar (c.toNat % 16)) = some (c.toNat % 16) :=
      digitOf?_digitChar (by omega)
    have hnumber : c.toNat / 16 * 16 + c.toNat % 16 = c.toNat := by omega
    have hvalid : c.toNat.isValidChar := c.valid
    simp [Scan.next, readDigit, hdigit, hnumber, putNumber, hvalid, put]
  | closed => cases hw
  | empty => cases hw

/-- The scanner takes every beginning of what is left. -/
theorem after? (h : Reading t σ (a ++ b)) : ∃ τ, σ.after? a = some τ ∧ Reading t τ b := by
  induction a generalizing σ with
  | nil => exact ⟨σ, rfl, h⟩
  | cons d a ih =>
    obtain ⟨ρ, hρ, hnext⟩ := h.next
    obtain ⟨τ, hτ, hrest⟩ := ih hnext
    refine ⟨τ, ?_, hrest⟩
    rw [after?_cons, hρ, Option.bind_some, hτ]

/-- When nothing is left, the scanner has the value. -/
theorem finish_of_nil (h : Reading t σ []) : σ.finish = some ([[], []], [t]) := by
  generalize hw : [] = w at h
  cases h with
  | closed => rfl
  | empty none =>
    subst none
    rfl
  | letter | number | high | low => cases hw
  | opened | inside => exact absurd hw.symm (by simp)

/-- As long as something is left, it is inside the literal. -/
theorem inside_of_cons (h : Reading t σ (d :: b)) :
    σ.values = [] ∧ σ.finish = none ∧ (σ.mode = .escaped → d ∈ escapeLetters) := by
  generalize hw : d :: b = w at h
  cases h with
  | opened | inside | high | low => exact ⟨rfl, rfl, fun h => by cases h⟩
  | letter u v c m split worth letter =>
    obtain ⟨rfl, -⟩ := List.cons.inj hw
    exact ⟨rfl, rfl, fun _ => letter⟩
  | number =>
    obtain ⟨rfl, -⟩ := List.cons.inj hw
    exact ⟨rfl, rfl, fun _ => by decide⟩
  | closed | empty => cases hw

end Reading

/-- Whatever the text: its literal is one line of printable characters between two single quotes, and
read by the rules for such literals it has the text as its value. It does not end before the last
character: after every proper beginning the scanner is inside the literal, and what it finds after a
backslash is one of the six letters. -/
theorem literal_closes (t : Text) :
    (∀ c ∈ literal t, Printable c) ∧ (literal t).head? = some '\'' ∧
      (literal t).getLast? = some '\'' ∧ scan (literal t) = some ([[], []], [t]) ∧
      ∀ a c b, literal t = a ++ c :: b → a ≠ [] →
        ∃ σ, Scan.start.after? a = some σ ∧ σ.values = [] ∧ σ.finish = none ∧
          (σ.mode = .escaped → c ∈ escapeLetters) := by
  have quote : literal t = '\'' :: (t.flatMap escape ++ ['\'']) := rfl
  have first : Scan.start.next '\'' = some ⟨[[]], [], [], .opened⟩ := rfl
  refine ⟨fun c => Scan.printable_of_mem_literal, rfl, ?_, ?_, ?_⟩
  · rw [quote, ← List.cons_append, List.getLast?_concat]
  · have whole : Reading t ⟨[[]], [], [], .opened⟩ (t.flatMap escape ++ ['\''] ++ []) :=
      (List.append_nil _).symm ▸ .opened
    obtain ⟨σ, hσ, last⟩ := whole.after?
    show Scan.readOn .start (literal t) = _
    rw [quote, Scan.readOn_cons first, Scan.readOn_eq, hσ, Option.bind_some, last.finish_of_nil]
  · intro a c b hsplit begun
    obtain ⟨q, a, rfl⟩ := List.exists_cons_of_ne_nil begun
    obtain ⟨rfl, rest⟩ := List.cons.inj (quote.symm.trans hsplit)
    have begins : Reading t ⟨[[]], [], [], .opened⟩ (a ++ c :: b) := by
      rw [show a ++ c :: b = t.flatMap escape ++ ['\''] from rest.symm]
      exact .opened
    obtain ⟨σ, hσ, inside⟩ := begins.after?
    refine ⟨σ, ?_, inside.inside_of_cons⟩
    rw [Scan.after?_cons, first, Option.bind_some, hσ]

/-- A backslash, a control character, two digits and a quote. -/
def tricky : Text := ['\\', '\x01', '4', '1', '\'']

/-- After the second backslash, which belongs to the first, the literal goes on. -/
theorem literal_closes_tricky :
    literal tricky = "'\\\\\\x0141\\''".toList ∧ scan (literal tricky) = some ([[], []], [tricky]) ∧
      ∃ σ, Scan.start.after? "'\\\\".toList = some σ ∧ σ.finish = none := by
  have written : literal tricky = "'\\\\".toList ++ '\\' :: "x0141\\''".toList := by decide
  obtain ⟨-, -, -, value, inside⟩ := literal_closes tricky
  obtain ⟨σ, hσ, -, unfinished, -⟩ := inside _ _ _ written (by decide)
  exact ⟨written, value, σ, hσ, unfinished⟩

end NotebookKernels.Python
