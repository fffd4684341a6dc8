import NotebookKernels.Proofs.Pool.Statuses

/- Which calls reach a worker, and who owes it a shutdown.

   A worker is shut down by the task that removed its kernel, by the task that brings it up, if it does
   not come up or its kernel is gone by then, or by a task of its own for a dead worker that a lookup has
   found. Two kinds of stages say who is to do so: at a stage that `Starts` an entry the task brings
   the worker up, and at one that `Closes` it the task has removed the entry. `Advance.fate` sorts the
   steps inside an operation by what they mean for one entry: whether it stays tracked, what its worker
   is told, and who is to shut the worker down afterwards. -/
namespace NotebookKernels

namespace WorkerCall

/-- Is a worker up after the call, if this is how it was before? -/
def leaves (up : Bool) : WorkerCall → Bool
  | .start | .restart => true
  | .shutdown => false
  | .waitReady | .interrupt => up

/-- The call neither brings a worker up nor shuts it down. -/
def Mild : WorkerCall → Prop
  | .waitReady | .interrupt => True
  | .start | .restart | .shutdown => False

end WorkerCall

namespace Stage

/-- The task has removed the entry and is to shut its worker down. -/
def Closes (i : Nat) : Stage → Prop
  | .closing _ j _ _ | .reap j | .reapLock j => j = i
  | _ => False

/-- The task is to shut the worker of the entry down, once the entry is gone. -/
def Owes (i : Nat) (s : Stage) : Prop := s.Starts i ∨ s.Closes i

end Stage

namespace Move

/-- After the move the task stands at such a stage. -/
def To (P : Stage → Prop) : Move → Prop
  | .wait s => P s
  | .finish _ => False

theorem to_owes {m : Move} {i : Nat} :
    m.To (Stage.Owes i) ↔ m.To (Stage.Starts i) ∨ m.To (Stage.Closes i) := by
  cases m <;> simp [To, Stage.Owes]

end Move

namespace Pool

variable {p p' : Pool} {t : TaskId} {s : Stage} {m : Move} {i j : Nat} {f : Entry → Entry}
  {c : PoolCall} {dead : List Nat}

/-- The calls made to the worker of an entry, oldest first. -/
def calls (p : Pool) (i : Nat) : List WorkerCall := (p.entry? i).elim [] (·.calls)

/-- Was the worker of an entry started or restarted, and not shut down since? -/
def isUp (p : Pool) (i : Nat) : Bool := (p.calls i).foldl WorkerCall.leaves false

/-- How often the worker of an entry was told to shut down. -/
def shutdowns (p : Pool) (i : Nat) : Nat := (p.calls i).count .shutdown

/-! ## Changes of the calls -/

theorem calls_modify (h : ∀ e, (f e).calls = e.calls) : (p.modify i f).calls j = p.calls j :=
  elim_entry?_modify [] _ h

@[simp] theorem calls_touch (g : Kernel → Kernel) : (p.touch i g).calls j = p.calls j :=
  calls_modify fun _ => rfl
@[simp] theorem calls_setStatus (st : KernelStatus) : (p.setStatus i st).calls j = p.calls j :=
  calls_modify fun _ => rfl
@[simp] theorem calls_untrack : (p.untrack i).calls j = p.calls j := rfl
@[simp] theorem calls_wake : p.wake.calls j = p.calls j := rfl
@[simp] theorem calls_requestStructure (t : TaskId) :
    (p.requestStructure t).calls j = p.calls j := rfl
@[simp] theorem calls_releaseStructure : p.releaseStructure.calls j = p.calls j := rfl
@[simp] theorem calls_insert : (p.insert i).calls j = p.calls j := calls_modify fun _ => rfl
@[simp] theorem calls_requestWorker (t : TaskId) : (p.requestWorker t i).calls j = p.calls j :=
  calls_modify fun _ => rfl
@[simp] theorem calls_releaseWorker : (p.releaseWorker i).calls j = p.calls j :=
  calls_modify fun _ => rfl
@[simp] theorem calls_requestSlot (t : TaskId) : (p.requestSlot t i).calls j = p.calls j :=
  calls_modify fun _ => rfl
@[simp] theorem calls_releaseSlot : (p.releaseSlot i).calls j = p.calls j :=
  calls_modify fun _ => rfl

@[simp] theorem calls_discard (dead : List Nat) : (p.discard dead).calls j = p.calls j := by
  induction dead generalizing p with
  | nil => rfl
  | cons i r ih => exact (ih (p := p.untrack i)).trans calls_untrack

@[simp] theorem calls_launch (name : String) (notebook : Option String)
    (inspector : Option Inspector) : (p.launch name notebook inspector).calls j = p.calls j := by
  simp only [calls, Pool.entry?, launch, List.getElem?_append]
  split
  · rfl
  · next h =>
    rw [List.getElem?_eq_none (Nat.le_of_not_lt h)]
    cases hk : j - p.entries.length with
    | zero => simp [Entry.launched]
    | succ k => simp

theorem calls_call_self (w : WorkerCall) (h : p.Has i) :
    (p.call i w).calls i = p.calls i ++ [w] := by
  obtain ⟨e, he⟩ := has_iff_entry?.mp h
  simp [calls, call, entry?_modify, he]

theorem calls_call_of_ne (w : WorkerCall) (h : i ≠ j) : (p.call i w).calls j = p.calls j := by
  simp [calls, call, entry?_modify, h]

theorem isUp_append {cs : List WorkerCall} (h : p'.calls i = p.calls i ++ cs) :
    p'.isUp i = cs.foldl WorkerCall.leaves (p.isUp i) := by
  rw [isUp, h, List.foldl_append, isUp]

theorem shutdowns_append {cs : List WorkerCall} (h : p'.calls i = p.calls i ++ cs) :
    p'.shutdowns i = p.shutdowns i + cs.count .shutdown := by
  rw [shutdowns, h, List.count_append, shutdowns]

theorem foldl_leaves_of_mild {cs : List WorkerCall} (h : ∀ w ∈ cs, w.Mild) (up : Bool) :
    cs.foldl WorkerCall.leaves up = up := by
  induction cs with
  | nil => rfl
  | cons w r ih =>
    have hw : WorkerCall.leaves up w = up := by
      have mild := h w (List.mem_cons_self ..)
      cases w with
      | waitReady | interrupt => rfl
      | start | restart | shutdown => exact False.elim mild
    rw [List.foldl_cons, hw]
    exact ih fun v hv => h v (List.mem_cons_of_mem _ hv)

theorem count_shutdown_of_mild {cs : List WorkerCall} (h : ∀ w ∈ cs, w.Mild) :
    cs.count .shutdown = 0 :=
  List.count_eq_zero.mpr fun hs => h _ hs

theorem mem_tracked_untrack_of_ne (h : j ≠ i) : i ∈ (p.untrack j).tracked ↔ i ∈ p.tracked := by
  simp [Ne.symm h]

/-! ## What a step means for one entry -/

/-- What a step inside an operation may mean for an entry. -/
inductive Fate (i : Nat) (t : TaskId) (p : Pool) (s : Stage) (p' : Pool) (m : Move) : Prop
  /-- The task stands to the entry as it stood before. -/
  | aside (kept : i ∈ p'.tracked ↔ i ∈ p.tracked) (told : List WorkerCall)
      (calls : p'.calls i = p.calls i ++ told) (mild : ∀ w ∈ told, w.Mild)
      (starts : m.To (Stage.Starts i) ↔ s.Starts i) (closes : m.To (Stage.Closes i) ↔ s.Closes i)
      (elsewhere : s ≠ .restartLock i)
  /-- The entry is inserted, and its worker started. -/
  | insert (newborn : s.newborn? = some i) (there : i ∈ p'.tracked)
      (calls : p'.calls i = p.calls i ++ [.start]) (before : ¬s.Owes i)
      (starts : m = .wait (.starting i)) (elsewhere : s ≠ .restartLock i)
  /-- The entry is removed, and its worker left to the task that starts it. -/
  | forget (there : i ∈ p.tracked) (starting : p.status? i = some .starting) (gone : i ∉ p'.tracked)
      (calls : p'.calls i = p.calls i) (before : ¬s.Owes i) (after : ¬m.To (Stage.Owes i))
      (elsewhere : s ≠ .restartLock i)
  /-- The entry is removed by a task that is to shut its worker down. -/
  | close (there : i ∈ p.tracked) (settled : p.status? i ≠ some .starting) (gone : i ∉ p'.tracked)
      (calls : p'.calls i = p.calls i) (before : ¬s.Owes i) (after : m.To (Stage.Closes i))
      (queue : p'.queue (.worker i) = p.queue (.worker i) ++ [t]) (elsewhere : s ≠ .restartLock i)
  /-- The worker is shut down by the task that removed the entry. -/
  | shut (kept : i ∈ p'.tracked ↔ i ∈ p.tracked) (calls : p'.calls i = p.calls i ++ [.shutdown])
      (before : s.Closes i) (held : (p.queue (.worker i)).head? = some t)
      (after : ¬m.To (Stage.Owes i))
  /-- The worker is shut down by the task that brought it up. -/
  | abandon (gone : i ∉ p'.tracked) (calls : p'.calls i = p.calls i ++ [.shutdown])
      (before : s.Starts i) (why : String) (after : m = .wait (.abandoning i (.start why)))
  /-- The worker is up. -/
  | up (there : i ∈ p.tracked) (kept : i ∈ p'.tracked) (calls : p'.calls i = p.calls i)
      (before : s.Starts i) (after : ¬m.To (Stage.Owes i))
  /-- The worker is restarted. -/
  | restart (kept : i ∈ p'.tracked ↔ i ∈ p.tracked) (calls : p'.calls i = p.calls i ++ [.restart])
      (before : s = .restartLock i) (after : m = .wait (.restarting i))

namespace Fate

/-- A step that tells the worker of the entry nothing. -/
theorem still (kept : i ∈ p'.tracked ↔ i ∈ p.tracked) (calls : p'.calls i = p.calls i)
    (starts : m.To (Stage.Starts i) ↔ s.Starts i) (closes : m.To (Stage.Closes i) ↔ s.Closes i)
    (elsewhere : s ≠ .restartLock i) : Fate i t p s p' m :=
  .aside kept [] (by rw [calls, List.append_nil]) (by simp) starts closes elsewhere

/-- A step in which the worker of an entry is told what concerns nobody else. -/
theorem tell {w : WorkerCall} (mild : w.Mild) (has : p.Has j)
    (starts : m.To (Stage.Starts i) ↔ s.Starts i) (closes : m.To (Stage.Closes i) ↔ s.Closes i)
    (elsewhere : s ≠ .restartLock i) : Fate i t p s (p.call j w) m := by
  by_cases hj : j = i
  · subst hj
    refine .aside Iff.rfl [w] (calls_call_self w has) ?_ starts closes elsewhere
    intro v hv
    exact List.mem_singleton.mp hv ▸ mild
  · exact .still Iff.rfl (calls_call_of_ne w hj) starts closes elsewhere

/-- A step in which an entry that is not starting is removed by a task that is to shut its worker
down. -/
theorem remove (has : p.Has j) (there : j ∈ p.tracked) (settled : p.status? j ≠ some .starting)
    (before : ¬s.Owes i) (unstarted : ¬m.To (Stage.Starts i)) (closes : m.To (Stage.Closes i) ↔ j = i)
    (elsewhere : s ≠ .restartLock i) : Fate i t p s ((p.untrack j).requestWorker t j) m := by
  obtain ⟨unstarting, unclosing⟩ := not_or.mp before
  by_cases hj : j = i
  · subst hj
    refine .close there settled (by simp) (by simp) before (closes.mpr rfl) ?_ elsewhere
    rw [queue_requestWorker t (has_untrack.mpr has), if_pos rfl, queue_untrack]
  · exact .still (mem_tracked_untrack_of_ne hj) (by simp) (iff_of_false unstarted unstarting)
      (iff_of_false (mt closes.mp hj) unclosing) elsewhere

/-- A step in which the task that has removed an entry shuts its worker down. -/
theorem shutDown (held : p.holdsWorker t j = true) (closes : s.Closes i ↔ j = i)
    (unstarting : ¬s.Starts i) (after : ¬m.To (Stage.Owes i)) (elsewhere : s ≠ .restartLock i) :
    Fate i t p s (p.call j .shutdown) m := by
  by_cases hj : j = i
  · subst hj
    exact .shut Iff.rfl (calls_call_self _ (has_of_holdsWorker held)) (closes.mpr rfl)
      (head_of_holdsWorker held) after
  · obtain ⟨unstarted, unclosed⟩ := not_or.mp (mt Move.to_owes.mpr after)
    exact .still Iff.rfl (calls_call_of_ne _ hj) (iff_of_false unstarted unstarting)
      (iff_of_false unclosed (mt closes.mp hj)) elsewhere

end Fate

/-- What a step inside an operation means for an entry, if the worker that the task has is there and
an entry that did not come up is gone. -/
theorem Advance.fate (h : Advance t p s p' m) (i : Nat) (there : ∀ j ∈ p.tracked, p.Has j)
    (has : ∀ j, .worker j ∈ s.locks → p.Has j) (gone : ∀ f, s = .abandoning i f → i ∉ p.tracked) :
    Fate i t p s p' m := by
  have apart : ∀ {s : Stage}, ¬s.Starts i → ¬s.Closes i → ¬s.Owes i :=
    fun hs hc h => h.elim hs hc
  cases h with
  | enter | spare | gone | park | unpark | conclude | giveUp | interruptFailed | refuse | grant
  | queue | reap | reaped => exact .still Iff.rfl (by simp) Iff.rfl Iff.rfl (by simp)
  | stopped | interrupted | back => exact .still Iff.rfl (by simp) Iff.rfl Iff.rfl (by simp)
  | restartFailed s j why was =>
    obtain rfl | rfl := was <;> exact .still Iff.rfl (by simp) Iff.rfl Iff.rfl (by simp)
  | interrupt j | restarted j | started j =>
    exact .tell trivial (has j (List.mem_singleton.mpr rfl)) Iff.rfl Iff.rfl (by simp)
  | forget e j todo found may tracked starting =>
    by_cases hj : j = i
    · subst hj
      exact .forget tracked starting (by simp) rfl (apart id id) (apart id id) (by simp)
    · exact .still (mem_tracked_untrack_of_ne hj) rfl Iff.rfl Iff.rfl (by simp)
  | close e j todo found may tracked settled =>
    exact .remove (there j tracked) tracked settled (apart id id) id Iff.rfl (by simp)
  | evict k ticket j found full victim =>
    obtain ⟨tracked, settled⟩ := evictee?_eq_some victim
    have unstarted : p.status? j ≠ some .starting := by
      intro hs
      exact absurd (inTransition_iff.mpr (.inl hs)) (by simp [settled])
    exact .remove (there j tracked) tracked unstarted (apart id id) id Iff.rfl (by simp)
  | insert j ticket found room =>
    have hhas : (p.insert j).releaseStructure.Has j :=
      has_insert.mpr (has j (List.mem_cons_of_mem _ (Errand.mem_own.mpr ⟨j, rfl, rfl⟩)))
    by_cases hj : j = i
    · subst hj
      exact .insert rfl (by simp) ((calls_call_self .start hhas).trans (by simp)) (apart id id) rfl
        (by simp)
    · refine .still ?_ ?_ (iff_of_false hj id) Iff.rfl (by simp)
      · simp [Ne.symm hj]
      · rw [calls_call_of_ne _ hj, calls_releaseStructure, calls_insert]
  | stop e j todo found held | reapStop j held =>
    exact .shutDown held Iff.rfl id (apart id id) (by simp)
  | restart j held =>
    by_cases hj : j = i
    · subst hj
      exact .restart Iff.rfl (calls_call_self _ (has_of_holdsWorker held)) rfl rfl
    · exact .still Iff.rfl (calls_call_of_ne _ hj) Iff.rfl Iff.rfl (by simp [hj])
  | up j tracked =>
    by_cases hj : j = i
    · subst hj
      exact .up tracked tracked (by simp) rfl id
    · exact .still Iff.rfl (by simp) (iff_of_false id hj) Iff.rfl (by simp)
  | late j absent =>
    have hhas := has j (List.mem_singleton.mpr rfl)
    by_cases hj : j = i
    · subst hj
      exact .abandon absent (calls_call_self _ hhas) rfl _ rfl
    · exact .still Iff.rfl (calls_call_of_ne _ hj) (iff_of_false id hj) Iff.rfl (by simp)
  | abandon s j why was =>
    have hhas : p.Has j := has j (by obtain rfl | rfl := was <;> exact List.mem_singleton.mpr rfl)
    have hcall : ((p.untrack j).call j .shutdown).calls j = p.calls j ++ [.shutdown] :=
      calls_call_self _ (has_untrack.mpr hhas)
    by_cases hj : j = i
    · subst hj
      exact .abandon (by simp) hcall (by obtain rfl | rfl := was <;> rfl) why rfl
    · have hother : ((p.untrack j).call j .shutdown).calls i = p.calls i := calls_call_of_ne _ hj
      have hkept := mem_tracked_untrack_of_ne (p := p) hj
      obtain rfl | rfl := was <;>
        exact .still hkept hother (iff_of_false id hj) Iff.rfl (by simp)
  | abandoned j f =>
    refine .still ?_ (by simp) Iff.rfl Iff.rfl (by simp)
    by_cases hj : j = i
    · subst hj
      exact iff_of_false (by simp) (gone f rfl)
    · exact mem_tracked_untrack_of_ne hj

/-- Only a new task asks for a worker to restart. -/
theorem Advance.ne_restartLock (h : Advance t p s p' m) : m ≠ .wait (.restartLock i) := by
  cases h <;> simp

/-! ## The first step of a call -/

namespace Opening

theorem calls_eq (h : Opening t p c p' dead m) : p'.calls i = p.calls i := by
  cases h <;> simp

/-- The first step of a call removes the dead entries that it has found, and no others. -/
theorem mem_tracked_iff (h : Opening t p c p' dead m) :
    i ∈ p'.tracked ↔ i ∈ p.tracked ∧ i ∉ dead := by
  cases h with
  | discard => exact mem_tracked_discard
  | _ => simp

/-- A call that has found dead entries ends at once. -/
theorem of_mem_dead (h : Opening t p c p' dead m) (hi : i ∈ dead) :
    i ∈ p.tracked ∧ p.isDead i = true ∧ m.stage? = none := by
  cases h with
  | discard _ _ _ found => exact ⟨(found i hi).1, (found i hi).2, rfl⟩
  | _ => cases hi

theorem owes_nothing (h : Opening t p c p' dead m) : ¬m.To (Stage.Owes i) := by
  cases h with
  | finish | discard | update => exact id
  | create | interrupt | acquire | restart | errand => exact fun h => h.elim id id

/-- Only a tracked entry is restarted, at the call of a caller. -/
theorem of_restartLock (h : Opening t p c p' dead (.wait (.restartLock i))) :
    i ∈ p.tracked ∧ ∃ id, c = .restart id := by
  cases h with
  | restart id _ found => exact ⟨(find?_eq_some found).1, id, rfl⟩

end Opening

theorem nodup_dead_withLive (id : KernelId) (k : Nat → Pool × Move) :
    (p.withLive id k).dead.Nodup := by
  unfold withLive
  split
  · exact List.nodup_nil
  · split
    · simp
    · exact List.nodup_nil

/-- A call finds no dead entry twice. -/
theorem nodup_dead (catalog : Catalog) (h : p.tracked.Nodup) :
    (p.start catalog t c).dead.Nodup := by
  cases c with
  | create request refusal =>
    simp only [start]
    split <;> exact List.nodup_nil
  | get | interrupt | restart | channel | acquire => exact nodup_dead_withLive _ _
  | list => exact h.filter _
  | updateStatus | shutdown | shutdownAll | pruneDead | removeIfDead => exact List.nodup_nil

end Pool
end NotebookKernels
