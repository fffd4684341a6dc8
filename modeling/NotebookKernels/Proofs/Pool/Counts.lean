import NotebookKernels.Proofs.Pool.Statuses

/- Who counts executions on a kernel.

   Inside the pool only the end of a restart changes a count, to nothing; whoever has a slot counts up
   from outside. `Advance.count_eq` and `Opening.count_eq` say so for an entry that nobody brings back. -/
namespace NotebookKernels

/-- The task restarts the kernel of this entry, or has asked for its worker to do so. -/
def Stage.BringsBack (i : Nat) : Stage → Prop
  | .restartLock j | .restarting j | .restartReadying j => j = i
  | _ => False

namespace Pool

variable {p p' : Pool} {i j : Nat} {t : TaskId} {s s' : Stage} {m : Move} {c : PoolCall}
  {dead : List Nat}

/-- How many executions were counted on an entry's kernel. -/
def count (p : Pool) (i : Nat) : Nat := (p.entry? i).elim 0 (·.record.executionCount)

theorem count_modify {f : Entry → Entry}
    (h : ∀ e, (f e).record.executionCount = e.record.executionCount) :
    (p.modify i f).count j = p.count j :=
  elim_entry?_modify 0 _ h

theorem count_touch {g : Kernel → Kernel} (h : ∀ k, (g k).executionCount = k.executionCount) :
    (p.touch i g).count j = p.count j :=
  count_modify fun e => h e.record

/-- A change of one kernel leaves the counts of the others. -/
theorem count_touch_of_ne (g : Kernel → Kernel) (h : i ≠ j) : (p.touch i g).count j = p.count j := by
  show (Pool.entry? (p.modify i _) j).elim 0 _ = _
  rw [entry?_modify, if_neg h]
  rfl

theorem count_touch_self (g : Kernel → Kernel) (h : p.Has i) :
    ∃ k : Kernel, p.count i = k.executionCount ∧ (p.touch i g).count i = (g k).executionCount := by
  obtain ⟨e, he⟩ := has_iff_entry?.mp h
  refine ⟨e.record, by rw [count, he, Option.elim_some], ?_⟩
  show (Pool.entry? (p.modify i _) i).elim 0 _ = _
  rw [entry?_modify, if_pos rfl, he]
  rfl

@[simp] theorem count_setStatus (st : KernelStatus) : (p.setStatus i st).count j = p.count j :=
  count_touch fun _ => rfl
@[simp] theorem count_untrack : (p.untrack i).count j = p.count j := rfl
@[simp] theorem count_wake : p.wake.count j = p.count j := rfl
@[simp] theorem count_requestStructure (t : TaskId) :
    (p.requestStructure t).count j = p.count j := rfl
@[simp] theorem count_releaseStructure : p.releaseStructure.count j = p.count j := rfl
@[simp] theorem count_insert : (p.insert i).count j = p.count j := count_modify fun _ => rfl
@[simp] theorem count_call (w : WorkerCall) : (p.call i w).count j = p.count j :=
  count_modify fun _ => rfl
@[simp] theorem count_requestWorker (t : TaskId) : (p.requestWorker t i).count j = p.count j :=
  count_modify fun _ => rfl
@[simp] theorem count_releaseWorker : (p.releaseWorker i).count j = p.count j :=
  count_modify fun _ => rfl
@[simp] theorem count_requestSlot (t : TaskId) : (p.requestSlot t i).count j = p.count j :=
  count_modify fun _ => rfl
@[simp] theorem count_releaseSlot : (p.releaseSlot i).count j = p.count j :=
  count_modify fun _ => rfl

@[simp] theorem count_discard (dead : List Nat) : (p.discard dead).count j = p.count j := by
  induction dead generalizing p with
  | nil => rfl
  | cons i r ih => exact (ih (p := p.untrack i)).trans count_untrack

/-- Nothing has been counted on a new kernel, as on one that is not there. -/
@[simp] theorem count_launch (name : String) (notebook : Option String)
    (inspector : Option Inspector) : (p.launch name notebook inspector).count j = p.count j := by
  simp only [count, Pool.entry?, launch, List.getElem?_append]
  split
  · rfl
  · next h =>
    rw [List.getElem?_eq_none (Nat.le_of_not_lt h)]
    cases hk : j - p.entries.length with
    | zero => simp [Entry.launched]
    | succ k => simp

theorem Advance.count_eq (h : Advance t p s p' m) (hs : ¬s.BringsBack i) :
    p'.count i = p.count i := by
  cases h with
  | back j =>
    rw [count_wake, count_touch_of_ne _ hs, count_releaseWorker]
  | _ => simp

theorem Opening.count_eq (h : Opening t p c p' dead m) : p'.count i = p.count i := by
  cases h <;> simp

/-- Who brings a kernel back has asked for it. -/
theorem Advance.bringsBack (h : Advance t p s p' (.wait s')) (hs : s'.BringsBack i) :
    s.BringsBack i := by
  cases h with
  | restart | restarted => exact hs
  | _ => exact False.elim hs

/-- Who asks for it has been called to restart the kernel. -/
theorem Opening.bringsBack (h : Opening t p c p' dead (.wait s')) (hs : s'.BringsBack i) :
    ∃ id, c = .restart id ∧ p.find? id = some i := by
  cases h with
  | restart id j found =>
    obtain rfl : j = i := hs
    exact ⟨id, rfl, found⟩
  | _ => exact False.elim hs

end Pool
end NotebookKernels
