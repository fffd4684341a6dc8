import NotebookKernels.Proofs.Identifier
import NotebookKernels.Proofs.Pool.Statuses

/- The order of the tracked kernels by their last activities.

   Every activity takes the next number of the pool's clock, so no two tracked kernels were last active at
   one time, and as long as none is in transition the kernel to evict is the first in this order
   (`Ordered.evictee?_eq`). What the changes of a pool do to the order is what `Recency.forget` and
   `Recency.refresh` do to a list; identifiers may stand for the entries, since both go with an injective
   map. -/
namespace NotebookKernels

/-! ## Lists by recency -/

namespace Recency

section

variable {α : Type} [DecidableEq α] {a b : α} {l : List α}

/-- The list without this element. -/
def forget (a : α) (l : List α) : List α := l.filter (· ≠ a)

/-- The list with this element as the latest, if it is there. -/
def refresh (a : α) (l : List α) : List α := if a ∈ l then forget a l ++ [a] else l

@[simp] theorem mem_forget : b ∈ forget a l ↔ b ∈ l ∧ b ≠ a := by simp [forget]

theorem not_mem_forget : a ∉ forget a l := by simp

theorem forget_of_not_mem (h : a ∉ l) : forget a l = l := by
  apply List.filter_eq_self.mpr
  intro b hb
  exact decide_eq_true fun hba => h (hba ▸ hb)

@[simp] theorem forget_forget : forget a (forget a l) = forget a l :=
  forget_of_not_mem not_mem_forget

theorem forget_append_self (h : a ∉ l) : forget a (l ++ [a]) = l := by
  have hlast : forget a [a] = [] := by simp [forget]
  calc forget a (l ++ [a]) = forget a l ++ forget a [a] := List.filter_append ..
    _ = l := by rw [forget_of_not_mem h, hlast, List.append_nil]

theorem forget_cons_self (h : a ∉ l) : forget a (a :: l) = l := by
  rw [forget, List.filter_cons_of_neg (by simp)]
  exact forget_of_not_mem h

theorem refresh_of_not_mem (h : a ∉ l) : refresh a l = l := if_neg h

theorem refresh_append_self (h : a ∉ l) : refresh a (l ++ [a]) = l ++ [a] := by
  rw [refresh, if_pos (by simp), forget_append_self h]

@[simp] theorem forget_refresh : forget a (refresh a l) = forget a l := by
  unfold refresh
  split
  · exact forget_append_self not_mem_forget
  · rfl

@[simp] theorem refresh_refresh : refresh a (refresh a l) = refresh a l := by
  by_cases h : a ∈ l
  · have hl : refresh a l = forget a l ++ [a] := if_pos h
    rw [hl]
    exact refresh_append_self not_mem_forget
  · rw [refresh_of_not_mem h, refresh_of_not_mem h]

theorem perm_forget_append (nodup : l.Nodup) (h : a ∈ l) : (forget a l ++ [a]).Perm l := by
  have heq : forget a l = l.erase a := by
    rw [nodup.erase_eq_filter, forget]
    exact List.filter_congr fun b _ => Bool.eq_iff_iff.mpr (by simp)
  rw [heq]
  exact (List.perm_append_singleton a _).trans (List.perm_cons_erase h).symm

end

section

variable {α β : Type} {a : α} {l : List α} {cap : Nat} {f : α → β}

/-- What is kept when one more is to be admitted: all, or all but the oldest if there is no room. -/
def makeRoom (cap : Nat) (l : List α) : List α := if l.length < cap then l else l.tail

theorem makeRoom_of_lt (h : l.length < cap) : makeRoom cap l = l := if_pos h

/-- The first that goes makes the room. -/
theorem makeRoom_cons_of_full (h : (a :: l).length = cap) : makeRoom cap (a :: l) = makeRoom cap l := by
  have room : l.length < cap := h ▸ Nat.lt_succ_self _
  rw [makeRoom_of_lt room]
  exact if_neg (Nat.not_lt_of_le (Nat.le_of_eq h.symm))

theorem map_makeRoom : (makeRoom cap l).map f = makeRoom cap (l.map f) := by
  unfold makeRoom
  rw [List.length_map]
  split
  · rfl
  · exact List.map_tail

variable [DecidableEq α] [DecidableEq β]

theorem map_forget (inj : ∀ a b, f a = f b → a = b) :
    (forget a l).map f = forget (f a) (l.map f) := by
  rw [forget, forget, List.filter_map]
  congr 1
  apply List.filter_congr
  intro b _
  exact decide_eq_decide.mpr (not_congr ⟨congrArg f, inj b a⟩)

theorem map_refresh (inj : ∀ a b, f a = f b → a = b) :
    (refresh a l).map f = refresh (f a) (l.map f) := by
  have hmem : f a ∈ l.map f ↔ a ∈ l := by
    rw [List.mem_map]
    exact ⟨fun ⟨b, hb, hba⟩ => inj b a hba ▸ hb, fun h => ⟨a, h, rfl⟩⟩
  unfold refresh
  by_cases h : a ∈ l
  · rw [if_pos h, if_pos (hmem.mpr h), List.map_append, map_forget inj]
    rfl
  · rw [if_neg h, if_neg (mt hmem.mp h)]

end

end Recency

open Recency

/-! ## Times of activities -/

namespace Pool

variable {p q p' : Pool} {t : TaskId} {s : Stage} {m : Move} {i j : Nat} {f : Entry → Entry}
  {order todo : List Nat} {e : Errand} {ok : Bool}

/-- When the entry's kernel was last active. -/
def activity (p : Pool) (i : Nat) : Nat := (p.entry? i).elim 0 (·.activity)

/-- The one pool tracks the same entries as the other, and their last activities are the same. -/
structure SameTimes (p q : Pool) : Prop where
  tracked : q.tracked = p.tracked
  activity : ∀ i, q.activity i = p.activity i
  clock : q.clock = p.clock

/-- The tracked entries, in the order of their last activities. -/
structure Ordered (p : Pool) (order : List Nat) : Prop where
  perm : order.Perm p.tracked
  sorted : order.Pairwise fun i j => p.activity i < p.activity j
  past : ∀ i ∈ order, p.activity i ≤ p.clock

theorem activity_modify (h : ∀ e, (f e).activity = e.activity) :
    (p.modify i f).activity j = p.activity j :=
  elim_entry?_modify 0 _ h

namespace SameTimes

theorem refl (p : Pool) : SameTimes p p := ⟨rfl, fun _ => rfl, rfl⟩

theorem trans {r : Pool} (h : SameTimes p q) (k : SameTimes q r) : SameTimes p r :=
  ⟨k.tracked.trans h.tracked, fun i => (k.activity i).trans (h.activity i), k.clock.trans h.clock⟩

theorem modify (i : Nat) (h : ∀ e, (f e).activity = e.activity) : SameTimes p (p.modify i f) :=
  ⟨rfl, fun _ => activity_modify h, rfl⟩

theorem call (i : Nat) (c : WorkerCall) : SameTimes p (p.call i c) := modify i fun _ => rfl

theorem requestWorker (t : TaskId) (i : Nat) : SameTimes p (p.requestWorker t i) :=
  modify i fun _ => rfl

theorem releaseWorker (i : Nat) : SameTimes p (p.releaseWorker i) := modify i fun _ => rfl

theorem requestSlot (t : TaskId) (i : Nat) : SameTimes p (p.requestSlot t i) :=
  modify i fun _ => rfl

theorem releaseSlot (i : Nat) : SameTimes p (p.releaseSlot i) := modify i fun _ => rfl

theorem requestStructure (t : TaskId) : SameTimes p (p.requestStructure t) :=
  ⟨rfl, fun _ => rfl, rfl⟩

theorem releaseStructure : SameTimes p p.releaseStructure := ⟨rfl, fun _ => rfl, rfl⟩

theorem wake : SameTimes p p.wake := ⟨rfl, fun _ => rfl, rfl⟩

theorem launch (name : String) (notebook : Option String) (inspector : Option Inspector) :
    SameTimes p (p.launch name notebook inspector) := by
  refine ⟨rfl, fun j => ?_, rfl⟩
  simp only [Pool.activity, Pool.entry?, Pool.launch, List.getElem?_append]
  split
  · rfl
  · next h =>
    rw [List.getElem?_eq_none (Nat.le_of_not_lt h)]
    cases hk : j - p.entries.length with
    | zero => simp [Entry.launched]
    | succ k => simp

end SameTimes

/-- A change that sets the time of an entry leaves the others their times. -/
theorem activity_modify_of_eq {n : Nat} (h : p.Has i) (set : ∀ e, (f e).activity = n) :
    (p.modify i f).activity j = if i = j then n else p.activity j := by
  obtain ⟨e, he⟩ := has_iff_entry?.mp h
  rw [activity, entry?_modify]
  split
  · next hij =>
    subst hij
    rw [he]
    exact set e
  · rfl

theorem activity_touch (g : Kernel → Kernel) (h : p.Has i) :
    (p.touch i g).activity j = if i = j then p.clock + 1 else p.activity j := by
  show (p.modify i _).activity j = _
  exact activity_modify_of_eq h fun _ => rfl

theorem activity_touch_of_ne (g : Kernel → Kernel) (h : i ≠ j) :
    (p.touch i g).activity j = p.activity j := by
  show (Pool.entry? (p.modify i _) j).elim 0 _ = _
  rw [entry?_modify, if_neg h]
  rfl

theorem activity_insert (h : p.Has i) :
    (p.insert i).activity j = if i = j then p.clock + 1 else p.activity j := by
  show (p.modify i _).activity j = _
  exact activity_modify_of_eq h fun _ => rfl

theorem leastActive?_le {is : List Nat} (h : p.leastActive? is = some i) (hj : j ∈ is) :
    p.activity i ≤ p.activity j := by
  induction is generalizing i with
  | nil => cases hj
  | cons a r ih =>
    simp only [leastActive?] at h
    split at h
    · next hnone =>
      obtain rfl := Option.some.inj h
      rw [leastActive?_eq_none hnone, List.mem_singleton] at hj
      exact Nat.le_of_eq (congrArg _ hj.symm)
    · next b hb =>
      split at h
      · next hab =>
        obtain rfl := Option.some.inj h
        rcases List.mem_cons.mp hj with rfl | hj
        · exact Nat.le_refl _
        · exact Nat.le_trans hab (ih hb hj)
      · next hba =>
        obtain rfl := Option.some.inj h
        rcases List.mem_cons.mp hj with rfl | hj
        · exact Nat.le_of_lt (Nat.lt_of_not_le hba)
        · exact ih hb hj

/-! ## The order -/

namespace Ordered

theorem mem_iff (h : p.Ordered order) : i ∈ order ↔ i ∈ p.tracked := h.perm.mem_iff

theorem nodup (h : p.Ordered order) : order.Nodup := by
  refine h.sorted.imp ?_
  rintro i j hlt rfl
  exact Nat.lt_irrefl _ hlt

theorem length (h : p.Ordered order) : order.length = p.size := h.perm.length_eq

/-- Whoever is left keeps the order, while the times of those who are there do not change. -/
theorem sublist {rest : List Nat} (h : p.Ordered order) (fewer : rest.Sublist order)
    (perm : rest.Perm q.tracked) (same : ∀ i ∈ rest, q.activity i = p.activity i)
    (clock : p.clock ≤ q.clock) : q.Ordered rest where
  perm := perm
  sorted := (h.sorted.sublist fewer).imp_of_mem fun hi hj hlt => by rwa [same _ hi, same _ hj]
  past i hi := by
    rw [same i hi]
    exact Nat.le_trans (h.past i (fewer.subset hi)) clock

theorem congr (h : p.Ordered order) (same : p.SameTimes q) : q.Ordered order :=
  h.sublist (List.Sublist.refl _) (same.tracked ▸ h.perm) (fun i _ => same.activity i)
    (Nat.le_of_eq same.clock.symm)

theorem untrack (h : p.Ordered order) (i : Nat) : (p.untrack i).Ordered (forget i order) :=
  h.sublist List.filter_sublist (h.perm.filter _) (fun _ _ => rfl) (Nat.le_refl _)

theorem discard (h : p.Ordered order) (dead : List Nat) :
    (p.discard dead).Ordered (order.filter (· ∉ dead)) := by
  rw [discard_eq]
  exact h.sublist List.filter_sublist (h.perm.filter _) (fun _ _ => rfl) (Nat.le_refl _)

/-- Whoever is active becomes the latest. -/
theorem later (h : p.Ordered order) (hi : i ∉ order)
    (perm : (order ++ [i]).Perm q.tracked)
    (activity : ∀ j, q.activity j = if i = j then p.clock + 1 else p.activity j)
    (clock : q.clock = p.clock + 1) : q.Ordered (order ++ [i]) := by
  have old : ∀ j ∈ order, q.activity j = p.activity j := by
    intro j hj
    have hij : i ≠ j := fun hij => hi (hij ▸ hj)
    rw [activity, if_neg hij]
  have new : q.activity i = p.clock + 1 := by rw [activity, if_pos rfl]
  refine ⟨perm, List.pairwise_append.mpr ⟨?_, List.pairwise_singleton .., ?_⟩, ?_⟩
  · exact h.sorted.imp_of_mem fun hj hk hlt => by rwa [old _ hj, old _ hk]
  · intro j hj k hk
    rw [List.mem_singleton.mp hk, old j hj, new]
    exact Nat.lt_succ_of_le (h.past j hj)
  · intro j hj
    rw [clock]
    rcases List.mem_append.mp hj with hj | hj
    · rw [old j hj]
      exact Nat.le_succ_of_le (h.past j hj)
    · exact Nat.le_of_eq (List.mem_singleton.mp hj ▸ new)

theorem insert (h : p.Ordered order) (has : p.Has i) (hi : i ∉ order) :
    (p.insert i).Ordered (order ++ [i]) :=
  h.later hi (h.perm.append_right [i]) (fun _ => activity_insert has) rfl

theorem touch (h : p.Ordered order) (there : ∀ i ∈ p.tracked, p.Has i) (i : Nat)
    (g : Kernel → Kernel) : (p.touch i g).Ordered (refresh i order) := by
  by_cases hi : i ∈ order
  · have has : p.Has i := there i (h.mem_iff.mp hi)
    rw [refresh, if_pos hi]
    exact (h.untrack i).later not_mem_forget
      ((perm_forget_append h.nodup hi).trans h.perm) (fun _ => activity_touch g has) rfl
  · -- the kernel is not tracked any more: only the clock goes on
    rw [refresh_of_not_mem hi]
    refine h.sublist (List.Sublist.refl _) h.perm (fun j hj => ?_) (Nat.le_succ _)
    have hij : i ≠ j := fun hij => hi (hij ▸ hj)
    exact activity_touch_of_ne g hij

/-- While no kernel is in transition, the one to evict is the first. -/
theorem evictee?_eq (h : p.Ordered order) (settled : ∀ i ∈ p.tracked, p.inTransition i = false) :
    p.evictee? = order.head? := by
  have hall : p.tracked.filter (fun i => !p.inTransition i) = p.tracked := by
    apply List.filter_eq_self.mpr
    intro i hi
    rw [settled i hi]
    rfl
  rw [evictee?, hall]
  cases hv : p.leastActive? p.tracked with
  | none =>
    have hnil := h.perm
    rw [leastActive?_eq_none hv] at hnil
    rw [hnil.eq_nil]
    rfl
  | some v =>
    have hmem := h.mem_iff.mpr (mem_of_leastActive? hv)
    cases order with
    | nil => cases hmem
    | cons a rest =>
      -- nobody was active before the first, and no two were active at one time
      have hle := leastActive?_le hv (h.mem_iff.mp (List.mem_cons_self ..))
      rcases List.mem_cons.mp hmem with rfl | hrest
      · rfl
      · exact absurd hle (Nat.not_le_of_lt ((List.pairwise_cons.mp h.sorted).1 v hrest))

end Ordered

/-! ## Views that the order depends on -/

theorem find?_eq (id : KernelId) : p.find? id = p.tracked.find? fun i => p.id? i = some id := by
  unfold find?
  congr 1
  funext i
  unfold record? id?
  cases p.entry? i <;> simp

theorem find?_congr (tracked : q.tracked = p.tracked) (named : ∀ i, q.id? i = p.id? i)
    (id : KernelId) : q.find? id = p.find? id := by
  rw [find?_eq, find?_eq, tracked]
  simp only [named]

theorem agenda_congr (tracked : q.tracked = p.tracked) (named : ∀ i, q.id? i = p.id? i)
    (e : Errand) : q.agenda e = p.agenda e := by
  cases e with
  | room | shutdownAll | pruneDead => exact tracked
  | shutdown id | removeIfDead id | giveUp id =>
    exact congrArg Option.toList (find?_congr tracked named id)

theorem isDead_modify (h : ∀ e, (f e).isDead = e.isDead) : (p.modify i f).isDead j = p.isDead j := by
  unfold isDead
  rw [entry?_modify]
  split
  · cases p.entry? j <;> simp [h]
  · rfl

theorem isDead_launch (name : String) (notebook : Option String) (inspector : Option Inspector)
    (h : p.Has i) : (p.launch name notebook inspector).isDead i = p.isDead i := by
  unfold isDead Pool.entry? launch
  rw [List.getElem?_append_left h]

theorem isDead_modify_of_ne (h : i ≠ j) : (p.modify i f).isDead j = p.isDead j := by
  unfold isDead
  rw [entry?_modify, if_neg h]

end Pool
end NotebookKernels
