import NotebookKernels.Identifier

/- Fresh identifiers are different.

   A fresh identifier ends in the digits of its number, and padding never cuts a digit off. Reading the
   digits back gives the number, so two numbers do not give one identifier. -/
namespace NotebookKernels

namespace Decimal

/-- The number that digits of a base stand for, after the number `n`. -/
def readFrom (base n : Nat) (t : Text) : Nat :=
  t.foldl (fun n c => base * n + (hexDigit? c).getD 0) n

theorem hexDigit?_digitChar {d : Nat} (h : d < 16) : hexDigit? (digitChar d) = some d := by
  have key : ∀ d : Fin 16, hexDigit? (digitChar d) = some d.val := by decide
  exact key ⟨d, h⟩

theorem readFrom_digitChar {base d : Nat} (h : d < 16) (n : Nat) (t : Text) :
    readFrom base n (digitChar d :: t) = readFrom base (base * n + d) t := by
  simp only [readFrom, List.foldl_cons, hexDigit?_digitChar h, Option.getD_some]

theorem readFrom_digitsOnto {base : Nat} (two : 2 ≤ base) (sixteen : base ≤ 16) (fuel n : Nat)
    (enough : n < fuel) (t : Text) :
    readFrom base 0 (digitsOnto base fuel n t) = readFrom base n t := by
  induction fuel generalizing n t with
  | zero => omega
  | succ fuel ih =>
    unfold digitsOnto
    split
    · next h => rw [readFrom_digitChar (by omega), Nat.mul_zero, Nat.zero_add]
    · next h =>
      have less : n / base < n := Nat.div_lt_self (by omega) two
      have digit : n % base < 16 := Nat.lt_of_lt_of_le (Nat.mod_lt _ (by omega)) sixteen
      rw [ih (n / base) (by omega), readFrom_digitChar digit, Nat.div_add_mod]

theorem readFrom_zeros (base k : Nat) (t : Text) :
    readFrom base 0 (List.replicate k '0' ++ t) = readFrom base 0 t := by
  induction k with
  | zero => rfl
  | succ k ih =>
    rw [List.replicate_succ, List.cons_append]
    exact ih

/-- Reading the digits back gives the number. -/
theorem readFrom_hex (width n : Nat) : readFrom 16 0 (hex width n) = n := by
  simp only [hex, readFrom_zeros, digits]
  exact readFrom_digitsOnto (by omega) (by omega) _ _ (Nat.lt_succ_self n) []

end Decimal

theorem serialText_injective {group : String} {n k : Nat}
    (h : serialText group n = serialText group k) : n = k := by
  have digits := String.ofList_injective ((String.append_right_inj _).mp h)
  rw [← Decimal.readFrom_hex 12 n, digits, Decimal.readFrom_hex]

/-- Two kernels do not get one identifier. -/
theorem KernelId.fresh_injective {n k : Nat} (h : KernelId.fresh n = KernelId.fresh k) : n = k :=
  serialText_injective (KernelId.mk.inj h)

end NotebookKernels
