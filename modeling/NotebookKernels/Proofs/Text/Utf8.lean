import NotebookKernels.Text.Utf8

/- Text that was written as bytes reads back.

   A character is written in its shortest form: one byte up to 0x7F, and beyond that a leading byte
   that says how many bytes follow, each with six bits of the code point. `decodeChar?_encodeChar` takes
   the four lengths one by one; whatever bytes follow are left alone, so a text reads back character by
   character (`ofBytes_encode`). -/
namespace NotebookKernels.Text.Utf8

/-- A continuation byte carries six bits. -/
theorem payload?_continuation (n : Nat) : payload? (continuation n) = some (n % 64) := by
  have hbits : n % 64 < 64 := Nat.mod_lt _ (by decide)
  have hbyte : (continuation n).toNat = 0x80 + n % 64 :=
    UInt8.toNat_ofNat_of_lt' (show _ < 256 by omega)
  rw [payload?, hbyte, if_pos (by omega), Nat.add_sub_cancel_left]

/-- The code point of a character is one, in whatever length it is written. -/
theorem charFrom?_toNat {least : Nat} {c : Char} (h : least ≤ c.toNat) :
    charFrom? least c.toNat = some c := by
  rw [charFrom?, if_pos ⟨h, c.valid⟩, Char.ofNat_toNat]

theorem toNat_lt (c : Char) : c.toNat < 0x110000 := by
  rcases c.valid with h | ⟨-, h⟩
  · exact Nat.lt_trans h (by decide)
  · exact h

/-! ## Reading a character of each length -/

section

variable {a b₁ b₂ b₃ : UInt8} {n₁ n₂ n₃ : Nat} {c : Char}

theorem decodeChar?_of_one (ha : a.toNat < 0x80) (rest : Bytes) :
    decodeChar? (a :: rest) = some (Char.ofNat a.toNat, rest) := by
  unfold decodeChar?
  dsimp only
  rw [if_pos ha]

theorem decodeChar?_of_two (hlow : 0xC0 ≤ a.toNat) (hhigh : a.toNat < 0xE0)
    (h₁ : payload? b₁ = some n₁) (hc : charFrom? 0x80 ((a.toNat - 0xC0) * 64 + n₁) = some c)
    (rest : Bytes) : decodeChar? (a :: b₁ :: rest) = some (c, rest) := by
  unfold decodeChar?
  dsimp only
  rw [if_neg (by omega), if_neg (by omega), if_pos hhigh]
  refine Option.bind_eq_some_iff.mpr ⟨n₁, h₁, ?_⟩
  exact Option.bind_eq_some_iff.mpr ⟨c, hc, rfl⟩

theorem decodeChar?_of_three (hlow : 0xE0 ≤ a.toNat) (hhigh : a.toNat < 0xF0)
    (h₁ : payload? b₁ = some n₁) (h₂ : payload? b₂ = some n₂)
    (hc : charFrom? 0x800 ((a.toNat - 0xE0) * 4096 + n₁ * 64 + n₂) = some c) (rest : Bytes) :
    decodeChar? (a :: b₁ :: b₂ :: rest) = some (c, rest) := by
  unfold decodeChar?
  dsimp only
  rw [if_neg (by omega), if_neg (by omega), if_neg (by omega), if_pos hhigh]
  refine Option.bind_eq_some_iff.mpr ⟨n₁, h₁, ?_⟩
  refine Option.bind_eq_some_iff.mpr ⟨n₂, h₂, ?_⟩
  exact Option.bind_eq_some_iff.mpr ⟨c, hc, rfl⟩

theorem decodeChar?_of_four (hlow : 0xF0 ≤ a.toNat) (h₁ : payload? b₁ = some n₁)
    (h₂ : payload? b₂ = some n₂) (h₃ : payload? b₃ = some n₃)
    (hc : charFrom? 0x10000 ((a.toNat - 0xF0) * 262144 + n₁ * 4096 + n₂ * 64 + n₃) = some c)
    (rest : Bytes) : decodeChar? (a :: b₁ :: b₂ :: b₃ :: rest) = some (c, rest) := by
  unfold decodeChar?
  dsimp only
  rw [if_neg (by omega), if_neg (by omega), if_neg (by omega), if_neg (by omega)]
  -- step by step: unfolded at once, the six bits would be counted out one by one
  refine Option.bind_eq_some_iff.mpr ⟨n₁, h₁, ?_⟩
  refine Option.bind_eq_some_iff.mpr ⟨n₂, h₂, ?_⟩
  refine Option.bind_eq_some_iff.mpr ⟨n₃, h₃, ?_⟩
  exact Option.bind_eq_some_iff.mpr ⟨c, hc, rfl⟩

end

theorem decodeChar?_encodeChar (c : Char) (rest : Bytes) :
    decodeChar? (encodeChar c ++ rest) = some (c, rest) := by
  have hlast := toNat_lt c
  unfold encodeChar
  dsimp only
  split
  · next h =>
    have lead : (UInt8.ofNat c.toNat).toNat = c.toNat :=
      UInt8.toNat_ofNat_of_lt' (Nat.lt_trans h (by decide))
    rw [List.singleton_append, decodeChar?_of_one (by omega), lead, Char.ofNat_toNat]
  split
  · next h1 h2 =>
    have lead : (UInt8.ofNat (0xC0 + c.toNat / 64)).toNat = 0xC0 + c.toNat / 64 :=
      UInt8.toNat_ofNat_of_lt' (show _ < 256 by omega)
    have point : (0xC0 + c.toNat / 64 - 0xC0) * 64 + c.toNat % 64 = c.toNat := by omega
    refine decodeChar?_of_two (by omega) (by omega) (payload?_continuation _) ?_ rest
    rw [lead, point, charFrom?_toNat (Nat.le_of_not_lt h1)]
  split
  · next h1 h2 h3 =>
    have lead : (UInt8.ofNat (0xE0 + c.toNat / 4096)).toNat = 0xE0 + c.toNat / 4096 :=
      UInt8.toNat_ofNat_of_lt' (show _ < 256 by omega)
    have point : (0xE0 + c.toNat / 4096 - 0xE0) * 4096 + c.toNat / 64 % 64 * 64 + c.toNat % 64 =
        c.toNat := by omega
    refine decodeChar?_of_three (by omega) (by omega) (payload?_continuation _)
      (payload?_continuation _) ?_ rest
    rw [lead, point, charFrom?_toNat (Nat.le_of_not_lt h2)]
  · next h1 h2 h3 =>
    have lead : (UInt8.ofNat (0xF0 + c.toNat / 262144)).toNat = 0xF0 + c.toNat / 262144 :=
      UInt8.toNat_ofNat_of_lt' (show _ < 256 by omega)
    have point : (0xF0 + c.toNat / 262144 - 0xF0) * 262144 + c.toNat / 4096 % 64 * 4096 +
        c.toNat / 64 % 64 * 64 + c.toNat % 64 = c.toNat := by omega
    refine decodeChar?_of_four (by omega) (payload?_continuation _) (payload?_continuation _)
      (payload?_continuation _) ?_ rest
    rw [lead, point, charFrom?_toNat (Nat.le_of_not_lt h3)]

/-! ## Reading a text -/

theorem encodeChar_ne_nil (c : Char) : encodeChar c ≠ [] := by
  unfold encodeChar
  dsimp only
  split
  · exact List.cons_ne_nil _ _
  split
  · exact List.cons_ne_nil _ _
  split <;> exact List.cons_ne_nil _ _

/-- No byte of what was written is a fault, and there are at least as many bytes as characters. -/
theorem decodeMarked_encode (t : Text) (fuel : Nat) (enough : (encode t).length ≤ fuel) :
    decodeMarked fuel (encode t) = t := by
  induction t generalizing fuel with
  | nil => cases fuel <;> rfl
  | cons c t ih =>
    have hcons : encode (c :: t) = encodeChar c ++ encode t := rfl
    have hread := decodeChar?_encodeChar c (encode t)
    rw [← hcons] at hread
    have hlen : (encode (c :: t)).length = (encodeChar c).length + (encode t).length := by
      rw [hcons, List.length_append]
    have hpos := List.length_pos_iff.mpr (encodeChar_ne_nil c)
    cases fuel with
    | zero => omega
    | succ fuel =>
      cases hbytes : encode (c :: t) with
      | nil =>
        rw [hbytes] at hlen
        simp only [List.length_nil] at hlen
        omega
      | cons b r =>
        rw [hbytes] at hread
        simp only [decodeMarked, hread]
        exact congrArg (c :: ·) (ih fuel (by omega))

theorem ofBytes_encode (t : Text) : ofBytes (encode t) = t :=
  decodeMarked_encode t _ (Nat.le_refl _)

end NotebookKernels.Text.Utf8
