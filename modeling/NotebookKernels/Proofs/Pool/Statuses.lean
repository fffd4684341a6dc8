import NotebookKernels.Proofs.Pool.Queues

/- Who sets a kernel's status, and who will set it again.

   `Advance.statuses` and `Opening.statuses` list the writers of statuses: the task that has started,
   interrupted or restarted a worker makes its kernel idle, a granted slot makes it busy, and the calls to
   create and to restart a kernel announce what they are about to do. `Advance.starts` and
   `Advance.restarts` say that the last two do not leave the kernel before they have set its status
   again or removed it. -/
namespace NotebookKernels

namespace Errand

/-- The errand is to remove the kernel with this identifier, because its restart failed. -/
def GivesUp (id : KernelId) (e : Errand) : Prop := ∃ f, e = .giveUp id f

end Errand

namespace Stage

/-- The task creates the kernel of this entry, and has inserted it. -/
def Starts (i : Nat) : Stage → Prop
  | .starting j | .readying j => j = i
  | _ => False

/-- The task restarts the kernel of this entry, or the restart failed and it is to remove the kernel by
its identifier. -/
def Restarts (id : KernelId) (i : Nat) : Stage → Prop
  | .restartLock j | .restarting j | .restartReadying j => j = i
  | .structure e => e.GivesUp id
  | .sweep e todo _ | .closing e _ todo _ | .stopping e _ todo _ => e.GivesUp id ∧ i ∈ todo
  | _ => False

/-- The task waits for a call that brings the worker of this entry up or interrupts it. -/
def Settles (i : Nat) : Stage → Prop
  | .readying j | .interrupting j | .restartReadying j => j = i
  | _ => False

theorem Settles.newborn? {s : Stage} {i : Nat} (h : s.Settles i) : s.newborn? = none := by
  cases s with
  | readying | interrupting | restartReadying => rfl
  | _ => exact absurd h id

theorem Settles.worker {s : Stage} {i : Nat} (h : s.Settles i) :
    .worker i ∈ s.locks ∧ s.awaits = none := by
  cases s with
  | readying j | interrupting j | restartReadying j =>
    obtain rfl : j = i := h
    exact ⟨List.mem_singleton.mpr rfl, rfl⟩
  | _ => exact absurd h id

end Stage

namespace Pool

/-- The one pool differs from the other in the status of this entry's kernel. -/
def Marks (p p' : Pool) (i : Nat) (st : KernelStatus) : Prop :=
  ∀ j, p'.status? j = if i = j then (p.status? j).map fun _ => st else p.status? j

namespace Marks

variable {p p' : Pool} {i j : Nat} {st other : KernelStatus}

theorem of_setStatus : Marks p (p.setStatus i st) i st := fun _ => status?_setStatus st

/-- Another status is an older one, of another kernel. -/
theorem older (h : Marks p p' i st) (hj : p'.status? j = some other) (hne : other ≠ st) :
    i ≠ j ∧ p.status? j = some other := by
  rw [h j] at hj
  split at hj
  · obtain ⟨_, -, rfl⟩ := Option.map_eq_some_iff.mp hj
    exact absurd rfl hne
  · next hij => exact ⟨hij, hj⟩

theorem of_ne (h : Marks p p' i st) (hij : i ≠ j) : p'.status? j = p.status? j := by
  rw [h j, if_neg hij]

end Marks

variable {p p' : Pool} {t : TaskId} {s : Stage} {m : Move} {c : PoolCall} {dead : List Nat}
  {i : Nat} {id : KernelId}

theorem inTransition_iff :
    p.inTransition i = true ↔ p.status? i = some .starting ∨ p.status? i = some .restarting := by
  unfold inTransition record? status?
  cases p.entry? i with
  | none => simp
  | some e => cases h : e.record.status <;> simp [KernelStatus.inTransition, h]

/-- A slot that is given up makes a busy kernel idle and leaves every other status. -/
theorem status?_dropped (j : Nat) :
    ((p.touch i fun k =>
      if k.status = .busy then { k with status := .idle } else k).releaseSlot i).status? j =
      if i = j then (p.status? j).map fun st => if st = .busy then .idle else st
      else p.status? j := by
  rw [status?_releaseSlot, status?_touch]
  split
  · cases he : p.entry? j with
    | none => simp [status?, he]
    | some e => by_cases hb : e.record.status = .busy <;> simp [status?, he, hb]
  · rfl

/-- The writers of statuses inside an operation. -/
theorem Advance.statuses (h : Advance t p s p' m) :
    (∀ j, p'.status? j = p.status? j) ∨
    (∃ i, s.Settles i ∧ Marks p p' i .idle) ∨
    ∃ i, m = .finish (.slot i) ∧ i ∈ p.tracked ∧ Marks p p' i .busy := by
  cases h with
  | interrupted i =>
    refine .inr (.inl ⟨i, rfl, fun j => ?_⟩)
    rw [status?_setStatus, status?_releaseWorker]
  | back i =>
    refine .inr (.inl ⟨i, rfl, fun j => ?_⟩)
    have hset : ((p.releaseWorker i).touch i
        ({ · with status := .idle, executionCount := 0 })).status? j =
        ((p.releaseWorker i).setStatus i .idle).status? j := by
      rw [setStatus, status?_touch, status?_touch]
    rw [status?_wake, hset, status?_setStatus, status?_releaseWorker]
  | up i there =>
    refine .inr (.inl ⟨i, rfl, fun j => ?_⟩)
    rw [status?_releaseWorker, status?_wake, status?_setStatus]
  | grant i held there => exact .inr (.inr ⟨i, rfl, there, .of_setStatus⟩)
  | _ => exact .inl fun j => by simp

/-- The writers of statuses at the beginning of a call, if callers set none. -/
theorem Opening.statuses (h : Opening t p c p' dead m)
    (quiet : ∀ id status, c ≠ .updateStatus id status) :
    (m.newborn? = none ∧ ∀ j, p'.status? j = p.status? j) ∨
    (∃ i, m = .wait (.restartLock i) ∧ i ∈ p.tracked ∧ Marks p p' i .restarting) ∨
    m.newborn? = some p.entries.length ∧
      ∀ j, p'.status? j = if j = p.entries.length then some .starting else p.status? j := by
  cases h with
  | update id status => exact absurd rfl (quiet id status)
  | restart id i found =>
    refine .inr (.inl ⟨i, rfl, (find?_eq_some found).1, fun j => ?_⟩)
    rw [status?_requestWorker, status?_setStatus]
  | create request name inspector =>
    refine .inr (.inr ⟨rfl, fun j => ?_⟩)
    rw [status?_requestStructure, status?_requestWorker, status?_launch]
  | errand _ e grown => exact .inl ⟨grown, fun j => by simp⟩
  | _ => exact .inl ⟨rfl, fun j => by simp⟩

/-- A call to create a kernel goes on until the kernel is up or removed. -/
theorem Advance.starts (h : Advance t p s p' m) (hs : s.Starts i) :
    (∃ s', m = .wait s' ∧ s'.Starts i) ∨ i ∉ p'.tracked ∨ p'.status? i ≠ some .starting := by
  cases h with
  | started j => exact .inl ⟨_, rfl, hs⟩
  | up j there =>
    obtain rfl : j = i := hs
    refine .inr (.inr ?_)
    rw [status?_releaseWorker, status?_wake, status?_setStatus, if_pos rfl]
    cases p.status? j <;> simp
  | late j absent =>
    obtain rfl : j = i := hs
    exact .inr (.inl absent)
  | abandon s j why was =>
    obtain rfl : j = i := by obtain rfl | rfl := was <;> exact hs
    refine .inr (.inl ?_)
    rw [tracked_call, mem_tracked_untrack]
    exact fun hj => hj.2 rfl
  | restartFailed s j why was => obtain rfl | rfl := was <;> exact absurd hs id
  | _ => exact absurd hs id

/-- A call to restart a kernel goes on until the kernel is back or removed. -/
theorem Advance.restarts (h : Advance t p s p' m) (hs : s.Restarts id i) (named : p.idOf i = id)
    (found : i ∈ p.tracked → p.find? id = some i) :
    (∃ s', m = .wait s' ∧ s'.Restarts id i) ∨ i ∉ p'.tracked ∨
      p'.status? i ≠ some .restarting := by
  cases h with
  | restart j | restarted j => exact .inl ⟨_, rfl, hs⟩
  | back j =>
    obtain rfl : j = i := hs
    refine .inr (.inr ?_)
    rw [status?_wake, status?_touch, if_pos rfl]
    cases Pool.entry? (p.releaseWorker j) j <;> simp
  | restartFailed s j why was =>
    obtain rfl : j = i := by obtain rfl | rfl := was <;> exact hs
    exact .inl ⟨_, rfl, _, by rw [named]⟩
  | enter e held =>
    by_cases hi : i ∈ p.tracked
    · obtain ⟨f, rfl⟩ := hs
      refine .inl ⟨_, rfl, ⟨f, rfl⟩, ?_⟩
      simp [agenda, found hi]
    · exact .inr (.inl hi)
  | spare e j todo found only =>
    obtain ⟨⟨f, rfl⟩, -⟩ := hs
    cases only
  | gone e j todo found may absent =>
    obtain ⟨he, hi⟩ := hs
    rcases List.mem_cons.mp hi with rfl | hi
    · exact .inr (.inl absent)
    · exact .inl ⟨_, rfl, he, hi⟩
  | forget e j todo found may there starting =>
    obtain ⟨he, hi⟩ := hs
    rcases List.mem_cons.mp hi with rfl | hi
    · exact .inr (.inl fun hj => (mem_tracked_untrack.mp hj).2 rfl)
    · exact .inl ⟨_, rfl, he, hi⟩
  | close e j todo found may there settled =>
    obtain ⟨he, hi⟩ := hs
    rcases List.mem_cons.mp hi with rfl | hi
    · exact .inr (.inl fun hj => (mem_tracked_untrack.mp hj).2 rfl)
    · exact .inl ⟨_, rfl, he, hi⟩
  | stop | stopped => exact .inl ⟨_, rfl, hs⟩
  | insert | evict | park | conclude | giveUp => exact absurd hs.2 List.not_mem_nil
  | abandon s j why was => obtain rfl | rfl := was <;> exact False.elim hs
  | _ => exact False.elim hs

end Pool
end NotebookKernels
