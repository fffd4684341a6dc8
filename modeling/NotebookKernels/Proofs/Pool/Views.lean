import NotebookKernels.Pool.Operation

/- What is seen of a pool: the queue of every lock, the status of every kernel, and the mail of every
   worker.

   The steps of the pool are put together from a few changes. Here every change is described by what
   it does to each view, so that later proofs never open one:
     1. the six requests and releases move one task in one queue, and no other change moves any;
     2. only `setStatus` and `launch` change a status;
     3. none of the changes touches the mail, an identifier, or the settings. -/
namespace NotebookKernels

/-- The locks of a pool. -/
inductive LockName where
  /-- The pool's own lock, held while entries are added, evicted or shut down. -/
  | pool
  /-- Held during calls to an entry's worker. -/
  | worker (i : Nat)
  /-- Held by the slot that executes on an entry's kernel. -/
  | slot (i : Nat)
  deriving DecidableEq, Repr

namespace Pool

variable {p : Pool} {i j : Nat} {n : LockName} {f : Entry → Entry}

/-- The tasks that asked for a lock and have not given it up, oldest request first. -/
def queue (p : Pool) : LockName → List TaskId
  | .pool => p.structureLock.queue
  | .worker i => (p.entry? i).elim [] (·.workerLock.queue)
  | .slot i => (p.entry? i).elim [] (·.slotLock.queue)

/-- The status of an entry's kernel. -/
def status? (p : Pool) (i : Nat) : Option KernelStatus := (p.entry? i).map (·.record.status)

/-- The mail of an entry's worker. -/
def mail (p : Pool) (i : Nat) : List Mail := (p.entry? i).elim [] (·.mail)

/-- Does the worker of an entry say that it runs? -/
def alive? (p : Pool) (i : Nat) : Option Bool := (p.entry? i).map (·.alive)

/-- The identifier of an entry's kernel, if there is such an entry. -/
def id? (p : Pool) (i : Nat) : Option KernelId := (p.entry? i).map (·.record.id)

/-- Is there an entry with this number? -/
def Has (p : Pool) (i : Nat) : Prop := i < p.entries.length

theorem has_of_entry?_eq_some {e : Entry} (h : p.entry? i = some e) : p.Has i :=
  (List.getElem?_eq_some_iff.mp h).1

theorem has_iff_entry? : p.Has i ↔ ∃ e, p.entry? i = some e := by
  constructor
  · intro h
    exact ⟨p.entries[i], List.getElem?_eq_getElem h⟩
  · rintro ⟨e, h⟩
    exact has_of_entry?_eq_some h

theorem has_of_isDead (h : p.isDead i = true) : p.Has i := by
  unfold isDead at h
  cases he : p.entry? i with
  | none => rw [he] at h; simp at h
  | some e => exact has_of_entry?_eq_some he

/-- A task in the queue of an entry's worker shows that there is such an entry. -/
theorem has_of_mem_worker {t : TaskId} (h : t ∈ p.queue (.worker i)) : p.Has i := by
  cases he : p.entry? i with
  | none => simp [queue, he] at h
  | some e => exact has_of_entry?_eq_some he

theorem has_of_mem_slot {t : TaskId} (h : t ∈ p.queue (.slot i)) : p.Has i := by
  cases he : p.entry? i with
  | none => simp [queue, he] at h
  | some e => exact has_of_entry?_eq_some he

/-! ## Changing one entry -/

theorem entry?_modify (j : Nat) :
    Pool.entry? (p.modify i f) j = if i = j then (p.entry? j).map f else p.entry? j := by
  simp only [Pool.entry?, modify, List.getElem?_modify]
  split
  · rfl
  · cases p.entries[j]? <;> rfl

/-- A view that the change keeps for every entry is kept for the pool. -/
theorem map_entry?_modify {α : Type} (g : Entry → α) (h : ∀ e, g (f e) = g e) :
    (Pool.entry? (p.modify i f) j).map g = (p.entry? j).map g := by
  rw [entry?_modify]
  split
  · simp [Function.comp_def, h]
  · rfl

theorem elim_entry?_modify {α : Type} (a : α) (g : Entry → α) (h : ∀ e, g (f e) = g e) :
    (Pool.entry? (p.modify i f) j).elim a g = (p.entry? j).elim a g := by
  rw [entry?_modify]
  split
  · cases p.entry? j <;> simp [h]
  · rfl

theorem queue_modify (hw : ∀ e, (f e).workerLock = e.workerLock)
    (hs : ∀ e, (f e).slotLock = e.slotLock) (n : LockName) :
    (p.modify i f).queue n = p.queue n := by
  cases n with
  | pool => rfl
  | worker j => exact elim_entry?_modify [] _ fun e => by rw [hw]
  | slot j => exact elim_entry?_modify [] _ fun e => by rw [hs]

/-- A change of one entry matters only for the entry that is there. -/
theorem modify_congr {g : Entry → Entry} (h : ∀ e, p.entry? i = some e → f e = g e) :
    p.modify i f = p.modify i g := by
  unfold modify
  congr 1
  apply List.ext_getElem?
  intro j
  rw [List.getElem?_modify, List.getElem?_modify]
  split
  · next hij =>
    subst hij
    cases he : p.entries[i]? with
    | none => rfl
    | some e => exact congrArg some (h e he)
  · rfl

@[simp] theorem length_modify : (p.modify i f).entries.length = p.entries.length := by
  simp [modify]

/-! ## Queues -/

@[simp] theorem queue_untrack : (p.untrack i).queue n = p.queue n := by cases n <;> rfl

@[simp] theorem queue_wake : p.wake.queue n = p.queue n := by cases n <;> rfl

@[simp] theorem queue_touch (g : Kernel → Kernel) : (p.touch i g).queue n = p.queue n := by
  rw [← queue_modify (p := p) (i := i) (f := fun e =>
    { e with record := { g e.record with lastActivity := p.now }, activity := p.clock + 1 })
    (fun _ => rfl) (fun _ => rfl)]
  cases n <;> rfl

@[simp] theorem queue_setStatus (st : KernelStatus) : (p.setStatus i st).queue n = p.queue n :=
  queue_touch _

@[simp] theorem queue_insert : (p.insert i).queue n = p.queue n := by
  rw [← queue_modify (p := p) (i := i) (f := ({ · with activity := p.clock + 1 }))
    (fun _ => rfl) (fun _ => rfl)]
  cases n <;> rfl

@[simp] theorem queue_call (c : WorkerCall) : (p.call i c).queue n = p.queue n :=
  queue_modify (f := fun e => { e with calls := e.calls ++ [c] }) (fun _ => rfl) (fun _ => rfl) n

@[simp] theorem queue_discard (dead : List Nat) : (p.discard dead).queue n = p.queue n := by
  induction dead generalizing p with
  | nil => rfl
  | cons i r ih => exact (ih (p := p.untrack i)).trans queue_untrack

theorem queue_requestStructure (t : TaskId) :
    (p.requestStructure t).queue n = if n = .pool then p.queue n ++ [t] else p.queue n := by
  cases n <;> rfl

theorem queue_releaseStructure :
    p.releaseStructure.queue n = if n = .pool then (p.queue n).tail else p.queue n := by
  cases n <;> rfl

/-- A request moves one queue, of an entry that is there. -/
theorem queue_requestWorker (t : TaskId) (h : p.Has i) :
    (p.requestWorker t i).queue n = if n = .worker i then p.queue n ++ [t] else p.queue n := by
  obtain ⟨e, he⟩ := has_iff_entry?.mp h
  cases n with
  | pool => rfl
  | slot j =>
    exact elim_entry?_modify [] (fun e : Entry => e.slotLock.queue) fun _ => rfl
  | worker j =>
    simp only [queue, requestWorker, entry?_modify, LockName.worker.injEq, eq_comm (a := j)]
    split
    · subst j
      simp [he, Lock.request]
    · rfl

theorem queue_requestSlot (t : TaskId) (h : p.Has i) :
    (p.requestSlot t i).queue n = if n = .slot i then p.queue n ++ [t] else p.queue n := by
  obtain ⟨e, he⟩ := has_iff_entry?.mp h
  cases n with
  | pool => rfl
  | worker j =>
    exact elim_entry?_modify [] (fun e : Entry => e.workerLock.queue) fun _ => rfl
  | slot j =>
    simp only [queue, requestSlot, entry?_modify, LockName.slot.injEq, eq_comm (a := j)]
    split
    · subst j
      simp [he, Lock.request]
    · rfl

theorem queue_releaseWorker :
    (p.releaseWorker i).queue n = if n = .worker i then (p.queue n).tail else p.queue n := by
  cases n with
  | pool => rfl
  | slot j =>
    exact elim_entry?_modify [] (fun e : Entry => e.slotLock.queue) fun _ => rfl
  | worker j =>
    simp only [queue, releaseWorker, entry?_modify, LockName.worker.injEq, eq_comm (a := j)]
    split
    · cases p.entry? j <;> simp [Lock.release]
    · rfl

theorem queue_releaseSlot :
    (p.releaseSlot i).queue n = if n = .slot i then (p.queue n).tail else p.queue n := by
  cases n with
  | pool => rfl
  | worker j =>
    exact elim_entry?_modify [] (fun e : Entry => e.workerLock.queue) fun _ => rfl
  | slot j =>
    simp only [queue, releaseSlot, entry?_modify, LockName.slot.injEq, eq_comm (a := j)]
    split
    · cases p.entry? j <;> simp [Lock.release]
    · rfl

/-- A launched entry comes with free locks. -/
@[simp] theorem queue_launch (name : String) (notebook : Option String)
    (inspector : Option Inspector) : (p.launch name notebook inspector).queue n = p.queue n := by
  have key : ∀ (g : Entry → List TaskId) (j : Nat),
      (∀ e : Entry, e.workerLock.queue = [] → e.slotLock.queue = [] → g e = []) →
      (Pool.entry? (p.launch name notebook inspector) j).elim [] g = (p.entry? j).elim [] g := by
    intro g j hg
    simp only [Pool.entry?, launch, List.getElem?_append]
    split
    · rfl
    · next hj =>
      rw [List.getElem?_eq_none (Nat.le_of_not_lt hj)]
      cases hk : j - p.entries.length with
      | zero => simp [hg (Entry.launched _ name notebook inspector p.now) rfl rfl]
      | succ k => simp
  cases n with
  | pool => rfl
  | worker j => exact key _ j fun _ hw _ => hw
  | slot j => exact key _ j fun _ _ hs => hs

/-! ## Tracked entries -/

@[simp] theorem tracked_modify : (p.modify i f).tracked = p.tracked := rfl
@[simp] theorem tracked_touch (g : Kernel → Kernel) : (p.touch i g).tracked = p.tracked := rfl
@[simp] theorem tracked_setStatus (st : KernelStatus) : (p.setStatus i st).tracked = p.tracked := rfl
@[simp] theorem tracked_wake : p.wake.tracked = p.tracked := rfl
@[simp] theorem tracked_call (c : WorkerCall) : (p.call i c).tracked = p.tracked := rfl
@[simp] theorem tracked_requestStructure (t : TaskId) :
    (p.requestStructure t).tracked = p.tracked := rfl
@[simp] theorem tracked_releaseStructure : p.releaseStructure.tracked = p.tracked := rfl
@[simp] theorem tracked_requestWorker (t : TaskId) : (p.requestWorker t i).tracked = p.tracked := rfl
@[simp] theorem tracked_releaseWorker : (p.releaseWorker i).tracked = p.tracked := rfl
@[simp] theorem tracked_requestSlot (t : TaskId) : (p.requestSlot t i).tracked = p.tracked := rfl
@[simp] theorem tracked_releaseSlot : (p.releaseSlot i).tracked = p.tracked := rfl
@[simp] theorem tracked_launch (name : String) (notebook : Option String)
    (inspector : Option Inspector) : (p.launch name notebook inspector).tracked = p.tracked := rfl
@[simp] theorem tracked_insert : (p.insert i).tracked = p.tracked ++ [i] := rfl

@[simp] theorem mem_tracked_untrack : j ∈ (p.untrack i).tracked ↔ j ∈ p.tracked ∧ j ≠ i := by
  simp [untrack]

/-- To discard entries is to track them no longer. -/
theorem discard_eq (dead : List Nat) :
    p.discard dead = { p with tracked := p.tracked.filter (· ∉ dead) } := by
  induction dead generalizing p with
  | nil =>
    have hall : p.tracked.filter (· ∉ []) = p.tracked := List.filter_eq_self.mpr fun _ _ => rfl
    rw [hall]
    rfl
  | cons i r ih =>
    show (p.untrack i).discard r = _
    rw [ih, untrack, List.filter_filter]
    congr 1
    apply List.filter_congr
    simp [Bool.and_comm]

theorem mem_tracked_discard {dead : List Nat} :
    j ∈ (p.discard dead).tracked ↔ j ∈ p.tracked ∧ j ∉ dead := by
  induction dead generalizing p with
  | nil => simp [discard]
  | cons i r ih =>
    have h : (p.discard (i :: r)) = (p.untrack i).discard r := rfl
    rw [h, ih, mem_tracked_untrack, List.mem_cons, not_or, and_assoc]

theorem size_discard_le (dead : List Nat) : (p.discard dead).size ≤ p.size := by
  induction dead generalizing p with
  | nil => exact Nat.le_refl _
  | cons i r ih => exact Nat.le_trans (ih (p := p.untrack i)) (List.length_filter_le _ _)

theorem nodup_discard (dead : List Nat) (h : p.tracked.Nodup) : (p.discard dead).tracked.Nodup := by
  induction dead generalizing p with
  | nil => exact h
  | cons i r ih => exact ih (p := p.untrack i) (h.filter _)

@[simp] theorem config_discard (dead : List Nat) : (p.discard dead).config = p.config := by
  induction dead generalizing p with
  | nil => rfl
  | cons i r ih => exact ih (p := p.untrack i)

/-- Whoever is found is tracked, and carries the identifier. -/
theorem find?_eq_some {id : KernelId} (h : p.find? id = some i) :
    i ∈ p.tracked ∧ p.id? i = some id := by
  have hp := List.find?_some h
  refine ⟨List.mem_of_find?_eq_some h, ?_⟩
  unfold id?
  cases he : p.entry? i with
  | none => simp [record?, he] at hp
  | some e => simpa [record?, he] using hp

/-- A tracked entry is found by an identifier that no other tracked entry carries. -/
theorem find?_of_unique {id : KernelId} (there : i ∈ p.tracked) (named : p.id? i = some id)
    (unique : ∀ j ∈ p.tracked, p.id? j = some id → j = i) : p.find? id = some i := by
  cases h : p.find? id with
  | none =>
    have hnot := List.find?_eq_none.mp h i there
    obtain ⟨e, he, hid⟩ := Option.map_eq_some_iff.mp named
    simp [record?, he, hid] at hnot
  | some j =>
    obtain ⟨hj, hid⟩ := find?_eq_some h
    rw [unique j hj hid]

/-! ## Entries that are there -/

@[simp] theorem has_modify : (p.modify i f).Has j ↔ p.Has j := by simp [Has]
@[simp] theorem has_untrack : (p.untrack i).Has j ↔ p.Has j := Iff.rfl
@[simp] theorem has_wake : p.wake.Has j ↔ p.Has j := Iff.rfl
@[simp] theorem has_requestStructure (t : TaskId) : (p.requestStructure t).Has j ↔ p.Has j := Iff.rfl
@[simp] theorem has_releaseStructure : p.releaseStructure.Has j ↔ p.Has j := Iff.rfl
@[simp] theorem has_touch (g : Kernel → Kernel) : (p.touch i g).Has j ↔ p.Has j := has_modify
@[simp] theorem has_setStatus (st : KernelStatus) : (p.setStatus i st).Has j ↔ p.Has j := has_modify
@[simp] theorem has_insert : (p.insert i).Has j ↔ p.Has j := has_modify
@[simp] theorem has_call (c : WorkerCall) : (p.call i c).Has j ↔ p.Has j := has_modify
@[simp] theorem has_requestWorker (t : TaskId) : (p.requestWorker t i).Has j ↔ p.Has j := has_modify
@[simp] theorem has_releaseWorker : (p.releaseWorker i).Has j ↔ p.Has j := has_modify
@[simp] theorem has_requestSlot (t : TaskId) : (p.requestSlot t i).Has j ↔ p.Has j := has_modify
@[simp] theorem has_releaseSlot : (p.releaseSlot i).Has j ↔ p.Has j := has_modify

@[simp] theorem has_launch (name : String) (notebook : Option String)
    (inspector : Option Inspector) :
    (p.launch name notebook inspector).Has j ↔ p.Has j ∨ j = p.entries.length := by
  simp only [Has, launch, List.length_append, List.length_singleton]
  omega

@[simp] theorem has_discard (dead : List Nat) : (p.discard dead).Has j ↔ p.Has j := by
  induction dead generalizing p with
  | nil => exact Iff.rfl
  | cons i r ih => exact (ih (p := p.untrack i)).trans has_untrack

/-! ## Statuses -/

theorem status?_modify (h : ∀ e, (f e).record.status = e.record.status) :
    (p.modify i f).status? j = p.status? j :=
  map_entry?_modify _ h

theorem has_of_status?_eq_some {st : KernelStatus} (h : p.status? i = some st) : p.Has i := by
  cases he : p.entry? i with
  | none => simp [status?, he] at h
  | some e => exact has_of_entry?_eq_some he

theorem status?_touch (g : Kernel → Kernel) :
    (p.touch i g).status? j =
      if i = j then (p.entry? j).map fun e => (g e.record).status else p.status? j := by
  show (Pool.entry? (p.modify i _) j).map _ = _
  rw [entry?_modify]
  split
  · simp [Function.comp_def]
  · rfl

theorem status?_touch_of_eq {g : Kernel → Kernel} (h : ∀ k, (g k).status = k.status) :
    (p.touch i g).status? j = p.status? j := by
  rw [status?_touch]
  split
  · simp only [h]; rfl
  · rfl

theorem status?_setStatus (st : KernelStatus) :
    (p.setStatus i st).status? j = if i = j then (p.status? j).map fun _ => st else p.status? j := by
  rw [setStatus, status?_touch]
  split
  · simp [status?, Function.comp_def]
  · rfl

theorem status?_setStatus_self (st : KernelStatus) (h : p.Has i) :
    (p.setStatus i st).status? i = some st := by
  obtain ⟨e, he⟩ := has_iff_entry?.mp h
  rw [status?_setStatus, if_pos rfl, status?, he]
  rfl

@[simp] theorem status?_untrack : (p.untrack i).status? j = p.status? j := rfl
@[simp] theorem status?_wake : p.wake.status? j = p.status? j := rfl
@[simp] theorem status?_requestStructure (t : TaskId) :
    (p.requestStructure t).status? j = p.status? j := rfl
@[simp] theorem status?_releaseStructure : p.releaseStructure.status? j = p.status? j := rfl
@[simp] theorem status?_insert : (p.insert i).status? j = p.status? j :=
  status?_modify fun _ => rfl
@[simp] theorem status?_call (c : WorkerCall) : (p.call i c).status? j = p.status? j :=
  status?_modify fun _ => rfl
@[simp] theorem status?_requestWorker (t : TaskId) :
    (p.requestWorker t i).status? j = p.status? j :=
  status?_modify fun _ => rfl
@[simp] theorem status?_releaseWorker : (p.releaseWorker i).status? j = p.status? j :=
  status?_modify fun _ => rfl
@[simp] theorem status?_requestSlot (t : TaskId) : (p.requestSlot t i).status? j = p.status? j :=
  status?_modify fun _ => rfl
@[simp] theorem status?_releaseSlot : (p.releaseSlot i).status? j = p.status? j :=
  status?_modify fun _ => rfl

@[simp] theorem status?_discard (dead : List Nat) : (p.discard dead).status? j = p.status? j := by
  induction dead generalizing p with
  | nil => rfl
  | cons i r ih => exact (ih (p := p.untrack i)).trans status?_untrack

/-- The latest entry starts out as one that is starting; the others stay as they are. -/
theorem status?_launch (name : String) (notebook : Option String) (inspector : Option Inspector) :
    (p.launch name notebook inspector).status? j =
      if j = p.entries.length then some .starting else p.status? j := by
  simp only [status?, Pool.entry?, launch, List.getElem?_append]
  split
  · next h => rw [if_neg (by omega)]
  · next h =>
    split
    · next hj => simp [hj, Entry.launched]
    · next hj =>
      have hk : j - p.entries.length ≠ 0 := by omega
      rw [List.getElem?_eq_none (by simp; omega), List.getElem?_eq_none (by omega)]

/-! ## Identifiers -/

theorem id?_modify (h : ∀ e, (f e).record.id = e.record.id) : (p.modify i f).id? j = p.id? j :=
  map_entry?_modify _ h

theorem id?_touch {g : Kernel → Kernel} (h : ∀ k, (g k).id = k.id) :
    (p.touch i g).id? j = p.id? j :=
  id?_modify fun e => h e.record

@[simp] theorem id?_setStatus (st : KernelStatus) : (p.setStatus i st).id? j = p.id? j :=
  id?_touch fun _ => rfl
@[simp] theorem id?_untrack : (p.untrack i).id? j = p.id? j := rfl
@[simp] theorem id?_wake : p.wake.id? j = p.id? j := rfl
@[simp] theorem id?_requestStructure (t : TaskId) : (p.requestStructure t).id? j = p.id? j := rfl
@[simp] theorem id?_releaseStructure : p.releaseStructure.id? j = p.id? j := rfl
@[simp] theorem id?_insert : (p.insert i).id? j = p.id? j := id?_modify fun _ => rfl
@[simp] theorem id?_call (c : WorkerCall) : (p.call i c).id? j = p.id? j := id?_modify fun _ => rfl
@[simp] theorem id?_requestWorker (t : TaskId) : (p.requestWorker t i).id? j = p.id? j :=
  id?_modify fun _ => rfl
@[simp] theorem id?_releaseWorker : (p.releaseWorker i).id? j = p.id? j := id?_modify fun _ => rfl
@[simp] theorem id?_requestSlot (t : TaskId) : (p.requestSlot t i).id? j = p.id? j :=
  id?_modify fun _ => rfl
@[simp] theorem id?_releaseSlot : (p.releaseSlot i).id? j = p.id? j := id?_modify fun _ => rfl

@[simp] theorem id?_discard (dead : List Nat) : (p.discard dead).id? j = p.id? j := by
  induction dead generalizing p with
  | nil => rfl
  | cons i r ih => exact (ih (p := p.untrack i)).trans id?_untrack

theorem id?_launch (name : String) (notebook : Option String) (inspector : Option Inspector) :
    (p.launch name notebook inspector).id? j =
      if j = p.entries.length then some (KernelId.fresh j) else p.id? j := by
  simp only [id?, Pool.entry?, launch, List.getElem?_append]
  split
  · next h => rw [if_neg (by omega)]
  · next h =>
    split
    · next hj => simp [hj, Entry.launched]
    · next hj =>
      rw [List.getElem?_eq_none (by simp; omega), List.getElem?_eq_none (by omega)]

theorem id?_eq_idOf (h : p.Has i) : p.id? i = some (p.idOf i) := by
  obtain ⟨e, he⟩ := has_iff_entry?.mp h
  simp [id?, idOf, record?, he]

/-! ## Records -/

@[simp] theorem record?_wake : p.wake.record? j = p.record? j := rfl

@[simp] theorem record?_releaseWorker : (p.releaseWorker i).record? j = p.record? j :=
  map_entry?_modify (·.record) fun _ => rfl

theorem record?_touch_self (g : Kernel → Kernel) :
    (p.touch i g).record? i = (p.changed? i g).map ({ · with lastActivity := p.now }) := by
  show (Pool.entry? (p.modify i _) i).map _ = _
  rw [entry?_modify, if_pos rfl, changed?, record?]
  simp only [Option.map_map, Function.comp_def]

/-- A record that is returned as a change leaves it differs from the one that is kept in the time of the
last activity, and in nothing else. -/
theorem record?_touch_of_returned {g : Kernel → Kernel} {k : Kernel}
    (h : Move.finish ((p.changed? i g).elim .done .kernel) = .finish (.kernel k)) :
    (∃ r, p.record? i = some r ∧ k = g r) ∧
      (p.touch i g).record? i = some { k with lastActivity := p.now } := by
  have changed : p.changed? i g = some k := by
    cases hk : p.changed? i g with
    | none => simp [hk] at h
    | some k' => simpa [hk] using h
  obtain ⟨r, hr, rfl⟩ := Option.map_eq_some_iff.mp changed
  refine ⟨⟨r, hr, rfl⟩, ?_⟩
  rw [record?_touch_self, changed, Option.map_some]

/-! ## What workers say and send -/

/-- A view of an entry that depends on its worker alone, and not on what the pool keeps of it. -/
def Outer {α : Type} (g : Entry → α) : Prop :=
  ∀ (e : Entry) record activity workerLock slotLock calls,
    g { e with record, activity, workerLock, slotLock, calls } = g e

section

variable {α : Type} {g : Entry → α}

@[simp] theorem outer_touch (h : Outer g) (k : Kernel → Kernel) :
    (Pool.entry? (p.touch i k) j).map g = (p.entry? j).map g :=
  map_entry?_modify g fun e => h e ..
@[simp] theorem outer_setStatus (h : Outer g) (st : KernelStatus) :
    (Pool.entry? (p.setStatus i st) j).map g = (p.entry? j).map g :=
  outer_touch h _
@[simp] theorem outer_untrack : (Pool.entry? (p.untrack i) j).map g = (p.entry? j).map g := rfl
@[simp] theorem outer_wake : (p.wake.entry? j).map g = (p.entry? j).map g := rfl
@[simp] theorem outer_requestStructure (t : TaskId) :
    (Pool.entry? (p.requestStructure t) j).map g = (p.entry? j).map g := rfl
@[simp] theorem outer_releaseStructure :
    (p.releaseStructure.entry? j).map g = (p.entry? j).map g := rfl
@[simp] theorem outer_insert (h : Outer g) :
    (Pool.entry? (p.insert i) j).map g = (p.entry? j).map g :=
  map_entry?_modify g fun e => h e ..
@[simp] theorem outer_call (h : Outer g) (c : WorkerCall) :
    (Pool.entry? (p.call i c) j).map g = (p.entry? j).map g :=
  map_entry?_modify g fun e => h e ..
@[simp] theorem outer_requestWorker (h : Outer g) (t : TaskId) :
    (Pool.entry? (p.requestWorker t i) j).map g = (p.entry? j).map g :=
  map_entry?_modify g fun e => h e ..
@[simp] theorem outer_releaseWorker (h : Outer g) :
    (Pool.entry? (p.releaseWorker i) j).map g = (p.entry? j).map g :=
  map_entry?_modify g fun e => h e ..
@[simp] theorem outer_requestSlot (h : Outer g) (t : TaskId) :
    (Pool.entry? (p.requestSlot t i) j).map g = (p.entry? j).map g :=
  map_entry?_modify g fun e => h e ..
@[simp] theorem outer_releaseSlot (h : Outer g) :
    (Pool.entry? (p.releaseSlot i) j).map g = (p.entry? j).map g :=
  map_entry?_modify g fun e => h e ..

@[simp] theorem outer_discard (dead : List Nat) :
    (Pool.entry? (p.discard dead) j).map g = (p.entry? j).map g := by
  rw [discard_eq]
  rfl

/-- A launch adds an entry, and the others stay as they are. -/
theorem outer_launch (has : p.Has j) (name : String) (notebook : Option String)
    (inspector : Option Inspector) :
    (Pool.entry? (p.launch name notebook inspector) j).map g = (p.entry? j).map g := by
  simp only [Pool.entry?, launch, List.getElem?_append_left has]

end

theorem outer_mail : Outer Entry.mail := fun _ _ _ _ _ _ => rfl

theorem outer_alive : Outer Entry.alive := fun _ _ _ _ _ _ => rfl

theorem alive?_modify (h : ∀ e, (f e).alive = e.alive) : (p.modify i f).alive? j = p.alive? j :=
  map_entry?_modify _ h

theorem mail_congr {q : Pool} (h : (p.entry? i).map Entry.mail = (q.entry? i).map Entry.mail) :
    p.mail i = q.mail i := by
  have getD : ∀ o : Option Entry, o.elim [] Entry.mail = (o.map Entry.mail).getD [] := by
    intro o
    cases o <;> rfl
  exact (getD _).trans ((congrArg (·.getD []) h).trans (getD _).symm)

theorem mail_modify (h : ∀ e, (f e).mail = e.mail) : (p.modify i f).mail j = p.mail j :=
  elim_entry?_modify [] _ h

theorem mail_modify_mail (g : List Mail → List Mail) (h : p.Has j) :
    (p.modify i fun e => { e with mail := g e.mail }).mail j =
      if i = j then g (p.mail j) else p.mail j := by
  obtain ⟨e, he⟩ := has_iff_entry?.mp h
  simp only [mail, entry?_modify, he]
  split <;> rfl

/-- A worker that was launched has sent nothing yet. -/
theorem mail_launch (name : String) (notebook : Option String) (inspector : Option Inspector) :
    (p.launch name notebook inspector).mail j = p.mail j := by
  simp only [mail, Pool.entry?, launch, List.getElem?_append]
  split
  · rfl
  · next h =>
    rw [List.getElem?_eq_none (Nat.le_of_not_lt h)]
    cases hk : j - p.entries.length with
    | zero => simp [Entry.launched]
    | succ k => simp

end Pool
end NotebookKernels
