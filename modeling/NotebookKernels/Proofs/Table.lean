import Mathlib.Data.List.DropRight
import NotebookKernels.Table

/- Tables that keep only their newest keys.

   A key that is set again keeps its place, so the keys of a table are in the order of their first
   setting. `keep n` sets a key and drops the oldest until `n` are left. If there was room for the
   keys before (`Bounded`), at most one key goes, and never the one that was set. -/
namespace NotebookKernels.Table

variable {κ α : Type} {k l : κ} {a b : α} {t : Table κ α} {n : Nat}

/-! ## Keys -/

theorem length_keys (t : Table κ α) : t.keys.length = t.length := List.length_map _

theorem keys_rtake (t : Table κ α) (n : Nat) : keys (List.rtake t n) = t.keys.rtake n := by
  simp only [keys, List.rtake, List.map_drop, List.length_map]

variable [DecidableEq κ]

theorem mem_keys_of_get? (h : get? k t = some a) : k ∈ t.keys :=
  List.mem_map.mpr ⟨_, mem_of_get?_eq_some h, rfl⟩

theorem get?_eq_none (h : k ∉ t.keys) : get? k t = none := by
  cases hget : get? k t with
  | none => rfl
  | some a => exact absurd (mem_keys_of_get? hget) h

/-- A pair of the table is the one that is found, if no key is there twice. -/
theorem get?_of_mem (single : t.keys.Nodup) (h : (k, a) ∈ t) : get? k t = some a := by
  induction t with
  | nil => cases h
  | cons p r ih =>
    obtain ⟨m, c⟩ := p
    obtain ⟨hm, hr⟩ := List.nodup_cons.mp single
    rcases List.mem_cons.mp h with h | h
    · obtain ⟨rfl, rfl⟩ := Prod.mk.inj h
      exact if_pos rfl
    · have hne : m ≠ k := by
        rintro rfl
        exact hm (List.mem_map.mpr ⟨_, h, rfl⟩)
      exact (if_neg hne).trans (ih hr h)

theorem keys_set_of_mem (h : k ∈ t.keys) (a : α) : (set k a t).keys = t.keys := by
  induction t with
  | nil => cases h
  | cons p r ih =>
    obtain ⟨m, c⟩ := p
    by_cases hm : m = k
    · simp [set, keys, hm]
    · have hr : k ∈ keys r := (List.mem_cons.mp h).resolve_left (Ne.symm hm)
      simpa [set, keys, hm] using ih hr

theorem keys_set_of_not_mem (h : k ∉ t.keys) (a : α) : (set k a t).keys = t.keys ++ [k] := by
  induction t with
  | nil => rfl
  | cons p r ih =>
    obtain ⟨m, c⟩ := p
    obtain ⟨hm, hr⟩ := not_or.mp (mt List.mem_cons.mpr h)
    simpa [set, keys, Ne.symm hm] using ih hr

/-! ## Keeping the newest -/

/-- The table with this value for the key, cut down to its `n` newest keys. -/
def keep (n : Nat) (k : κ) (a : α) (t : Table κ α) : Table κ α := (t.set k a).rtake n

/-- No key is there twice, and there are at most `n`. -/
structure Bounded (n : Nat) (t : Table κ α) : Prop where
  single : t.keys.Nodup
  length : t.length ≤ n

theorem rtake_of_le {β : Type} {xs : List β} (h : xs.length ≤ n) : xs.rtake n = xs := by
  rw [List.rtake, Nat.sub_eq_zero_of_le h, List.drop_zero]

/-- A key that is there keeps its place, and any other comes last. -/
theorem keys_keep (h : t.Bounded n) (k : κ) (a : α) :
    (t.keep n k a).keys = if k ∈ t.keys then t.keys else (t.keys ++ [k]).rtake n := by
  rw [keep, keys_rtake]
  split
  · next hk =>
    rw [keys_set_of_mem hk]
    exact rtake_of_le ((length_keys t).le.trans h.length)
  · next hk => rw [keys_set_of_not_mem hk]

theorem nodup_keys_set (single : t.keys.Nodup) (k : κ) (a : α) : (set k a t).keys.Nodup := by
  by_cases hk : k ∈ t.keys
  · rwa [keys_set_of_mem hk]
  · rw [keys_set_of_not_mem hk]
    exact List.nodup_append.mpr
      ⟨single, List.pairwise_singleton _ k, fun x hx y hy => by
        rw [List.mem_singleton.mp hy]
        rintro rfl
        exact hk hx⟩

theorem Bounded.keep (h : t.Bounded n) (k : κ) (a : α) : (t.keep n k a).Bounded n where
  single := by
    rw [Table.keep, keys_rtake]
    exact (nodup_keys_set h.single k a).sublist (List.drop_sublist _ _)
  length := by
    rw [Table.keep, List.rtake, List.length_drop]
    omega

/-- The key that was set is never the one that is dropped. -/
theorem get?_keep_self (h : t.Bounded n) (room : 0 < n) : get? k (t.keep n k a) = some a := by
  have hmem : k ∈ (t.keep n k a).keys := by
    rw [keys_keep h]
    split
    · next hk => exact hk
    · rw [← Nat.succ_pred_eq_of_pos room, List.rtake_concat_succ]
      exact List.mem_append_right _ (List.mem_singleton_self k)
  obtain ⟨⟨_, b⟩, hb, rfl⟩ := List.mem_map.mp hmem
  have hset := get?_of_mem (nodup_keys_set h.single _ a) (List.mem_of_mem_drop hb)
  rw [get?_set_self] at hset
  exact (get?_of_mem (h.keep _ a).single hb).trans hset.symm

/-- Whatever else is kept was there before. -/
theorem get?_of_keep (h : t.Bounded n) (hl : l ≠ k) (kept : get? l (t.keep n k a) = some b) :
    get? l t = some b := by
  have hmem := List.mem_of_mem_drop (mem_of_get?_eq_some kept)
  rw [← get?_set_of_ne hl a]
  exact get?_of_mem (nodup_keys_set h.single k a) hmem

end NotebookKernels.Table
