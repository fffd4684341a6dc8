import NotebookKernels.Proofs.Pool.Advance

/- The locks of a task, and how a step inside an operation moves it in their queues.

   A stage says which locks the task asked for and has not given up (`Stage.locks`), which of them it
   may still wait for (`Stage.awaits`), and which entry it has launched but not inserted yet
   (`Stage.newborn?`). From these alone:
     1. `Advance.queue`: a step puts the task last in the queues of the locks it newly asks for, takes
        the first task out of the queues of those it gives up, and moves no other queue;
     2. `Advance.granted`: a task only leaves a stage that waits for a lock when it holds the lock;
     3. `Advance.asked`: a lock that a step newly asks for is the one that the task then waits for;
     4. `Advance.tracked`, `Advance.newborn`: only an entry of its own is inserted, and then it is no
        longer to be inserted.
   The same is said of the first step of a call. -/
namespace NotebookKernels

/-- The lock of the entry that the errand is to insert. -/
def Errand.own (e : Errand) : List LockName := e.newborn?.toList.map .worker

namespace Stage

/-- The entry that the task has launched and not inserted yet. -/
def newborn? : Stage → Option Nat
  | .structure e | .sweep e _ _ | .closing e _ _ _ | .stopping e _ _ _ => e.newborn?
  | .parked i _ => some i
  | _ => none

/-- The locks that the task asked for and has not given up. -/
def locks : Stage → List LockName
  | .structure e | .sweep e _ _ => .pool :: e.own
  | .closing e i _ _ | .stopping e i _ _ => .worker i :: .pool :: e.own
  | .parked i _ | .starting i | .readying i | .abandoning i _ | .interruptLock i | .interrupting i
  | .restartLock i | .restarting i | .restartReadying i | .acquireLock i | .reapLock i
  | .reaping i => [.worker i]
  | .acquireSlot i => [.slot i]
  | .reap _ => []

/-- The lock that the task may still wait for. -/
def awaits : Stage → Option LockName
  | .structure _ => some .pool
  | .closing _ i _ _ | .interruptLock i | .restartLock i | .acquireLock i | .reapLock i =>
    some (.worker i)
  | .acquireSlot i => some (.slot i)
  | _ => none

/-- A task has the worker of the entry that it is to insert, and does not wait for it. -/
theorem worker_of_newborn {s : Stage} {i : Nat} (h : s.newborn? = some i) (single : s.locks.Nodup) :
    .worker i ∈ s.locks ∧ s.awaits ≠ some (.worker i) := by
  cases s with
  | closing e j =>
    have he : e.newborn? = some i := h
    have hown : e.own = [.worker i] := by simp [Errand.own, he]
    simp only [locks, hown] at single ⊢
    refine ⟨by simp, fun ha => ?_⟩
    simp [Option.some.inj ha] at single
  | «structure» e | sweep e | stopping e =>
    have he : e.newborn? = some i := h
    simp [locks, Errand.own, he, awaits]
  | parked j =>
    obtain rfl := Option.some.inj h
    simp [locks, awaits]
  | _ => cases h

end Stage

namespace Move

/-- Where the task stands after the move. -/
def stage? : Move → Option Stage
  | .wait s => some s
  | .finish _ => none

/-- The entry whose slot the task has been granted. -/
def slot? : Move → Option Nat
  | .finish (.slot i) => some i
  | _ => none

/-- The locks that the task has after the move: a granted slot outlasts the operation. -/
def locks : Move → List LockName
  | .wait s => s.locks
  | .finish (.slot i) => [.slot i]
  | .finish _ => []

/-- The lock that the task may wait for after the move. -/
def awaits (m : Move) : Option LockName := m.stage?.bind Stage.awaits

/-- The entry that the task has not inserted after the move. -/
def newborn? (m : Move) : Option Nat := m.stage?.bind Stage.newborn?

theorem slot?_finish {o : Outcome} (h : ∀ i, o ≠ .slot i) : (Move.finish o).slot? = none := by
  cases o with
  | slot i => exact absurd rfl (h i)
  | _ => rfl

theorem locks_eq (m : Move) :
    m.locks = m.stage?.elim [] Stage.locks ++ m.slot?.elim [] fun i => [.slot i] := by
  cases m with
  | wait s => exact (List.append_nil _).symm
  | finish o => cases o <;> rfl

theorem locks_finish {o : Outcome} (h : ∀ i, o ≠ .slot i) : (Move.finish o).locks = [] := by
  rw [locks_eq, slot?_finish h]
  rfl

end Move

theorem Outcome.ofRecord_ne_slot (k : Option Kernel) (i : Nat) :
    k.elim Outcome.done .kernel ≠ .slot i := by
  cases k <;> simp

theorem Outcome.ofRecord_ne_failed (k : Option Kernel) (f : Failure) :
    k.elim Outcome.done .kernel ≠ .failed f := by
  cases k <;> simp

theorem Errand.outcome_ne_slot (e : Errand) (p : Pool) (found : List Nat) (i : Nat) :
    e.outcome p found ≠ .slot i := by
  cases e <;> simp [outcome]

/-- A queue after task `t`, which had asked for the locks `old`, goes on to have asked for the locks
`new`. -/
def relock (t : TaskId) (old new : List LockName) (n : LockName) (q : List TaskId) : List TaskId :=
  if n ∈ new then if n ∈ old then q else q ++ [t]
  else if n ∈ old then q.tail else q

namespace Errand

@[simp] theorem mem_own {e : Errand} {n : LockName} :
    n ∈ e.own ↔ ∃ i, e.newborn? = some i ∧ n = .worker i := by
  cases h : e.newborn? <;> simp [own, h]

theorem own_of_newborn? {e : Errand} (h : e.newborn? = none) : e.own = [] := by simp [own, h]

/-- The worker of an entry that the errand is not to insert is none of its locks. -/
theorem worker_not_mem {e : Errand} {i : Nat} (h : e.newborn? ≠ some i) :
    .worker i ∉ LockName.pool :: e.own := by
  simp only [List.mem_cons, reduceCtorEq, false_or, mem_own, not_exists, not_and,
    LockName.worker.injEq]
  rintro j hj rfl
  exact h hj

end Errand

namespace Pool

variable {p p' : Pool} {t : TaskId} {s : Stage} {m : Move} {n : LockName} {i j : Nat}

theorem head_of_holdsWorker (h : p.holdsWorker t i = true) :
    (p.queue (.worker i)).head? = some t := by
  unfold holdsWorker at h
  cases he : p.entry? i with
  | none => simp [he] at h
  | some e =>
    simp only [he, Option.any_some, Lock.heldBy, Lock.holder?] at h
    simpa [queue, he] using of_decide_eq_true h

theorem head_of_holdsSlot (h : p.holdsSlot t i = true) : (p.queue (.slot i)).head? = some t := by
  unfold holdsSlot at h
  cases he : p.entry? i with
  | none => simp [he] at h
  | some e =>
    simp only [he, Option.any_some, Lock.heldBy, Lock.holder?] at h
    simpa [queue, he] using of_decide_eq_true h

theorem has_of_holdsWorker (h : p.holdsWorker t i = true) : p.Has i :=
  has_of_mem_worker (List.mem_of_mem_head? (head_of_holdsWorker h))

/-- The least active of some entries is one of them, and there is one if there are any. -/
theorem mem_of_leastActive? {is : List Nat} (h : p.leastActive? is = some i) : i ∈ is := by
  induction is generalizing i with
  | nil => cases h
  | cons a r ih =>
    simp only [leastActive?] at h
    split at h
    · exact List.mem_cons.mpr (.inl (Option.some.inj h).symm)
    · next b hb =>
      split at h
      · exact List.mem_cons.mpr (.inl (Option.some.inj h).symm)
      · exact List.mem_cons_of_mem _ (ih (hb.trans h))

theorem leastActive?_eq_none {is : List Nat} (h : p.leastActive? is = none) : is = [] := by
  cases is with
  | nil => rfl
  | cons a r =>
    simp only [leastActive?] at h
    split at h
    · cases h
    · split at h <;> cases h

/-- The victim of an eviction is tracked and not in transition. -/
theorem evictee?_eq_some (h : p.evictee? = some i) : i ∈ p.tracked ∧ p.inTransition i = false := by
  have hi := List.mem_filter.mp (mem_of_leastActive? h)
  exact ⟨hi.1, by simpa using hi.2⟩

theorem mem_tracked_of_evictee? (h : p.evictee? = some i) : i ∈ p.tracked := (evictee?_eq_some h).1

/-- There is no victim only if all tracked entries are in transition. -/
theorem evictee?_eq_none (h : p.evictee? = none) (hi : i ∈ p.tracked) : p.inTransition i = true := by
  have hall := List.filter_eq_nil_iff.mp (leastActive?_eq_none h) i hi
  simpa using hall

/-- What a task may rely on while it stands at a stage: its locks are different ones, the entry that it
is to insert is not tracked, and the entries that it may still name are there. -/
structure Ready (p : Pool) (s : Stage) : Prop where
  single : s.locks.Nodup
  young : ∀ i, s.newborn? = some i → i ∉ p.tracked
  there : ∀ i ∈ p.tracked, p.Has i
  doomed : ∀ i, s = .reap i → p.Has i

/-! ## Changes of a task's locks -/

variable {l : List LockName} {a b : LockName} {q : List TaskId}

theorem relock_self : relock t l l n q = q := by
  unfold relock
  split <;> rfl

theorem relock_request (h : a ∉ l) : relock t l (a :: l) n q = if n = a then q ++ [t] else q := by
  unfold relock
  by_cases hn : n = a
  · subst hn
    simp [h]
  · simp only [List.mem_cons, hn, false_or, if_false]
    exact relock_self

theorem relock_release (h : a ∉ l) : relock t (a :: l) l n q = if n = a then q.tail else q := by
  unfold relock
  by_cases hn : n = a
  · subst hn
    simp [h]
  · simp only [List.mem_cons, hn, false_or, if_false]
    exact relock_self

theorem relock_swap (h : a ≠ b) :
    relock t [a] [b] n q = if n = b then (if n = a then q.tail else q) ++ [t]
      else if n = a then q.tail else q := by
  simp only [relock, List.mem_singleton]
  by_cases hb : n = b
  · subst hb
    simp [Ne.symm h]
  · simp [hb]

/-! ## One step inside an operation -/

namespace Advance

/-- A step inside an operation moves its own task only, in the queues of its own locks. -/
theorem queues (h : Advance t p s p' m) (r : Ready p s) (n : LockName) :
    p'.queue n = relock t s.locks m.locks n (p.queue n) := by
  have single := r.single
  cases h with
  -- the task keeps its locks
  | enter | spare | gone => exact relock_self.symm
  | forget => exact queue_untrack.trans relock_self.symm
  | stop | interrupt | restart | restarted | reapStop | started | late =>
    exact (queue_call _).trans relock_self.symm
  | grant => exact (queue_setStatus _).trans relock_self.symm
  | abandon s i why was =>
    obtain rfl | rfl := was <;> exact ((queue_call _).trans queue_untrack).trans relock_self.symm
  -- it asks for another, which it did not have
  | close e i todo found may there settled =>
    rw [queue_requestWorker t (has_untrack.mpr (r.there i there)), queue_untrack]
    exact (relock_request (Errand.worker_not_mem fun hj => r.young i hj there)).symm
  | evict i ticket v found full victim =>
    have there := mem_tracked_of_evictee? victim
    rw [queue_requestWorker t (has_untrack.mpr (r.there v there)), queue_untrack]
    have hnot : Errand.newborn? (.room i ticket) ≠ some v := fun hv => r.young v hv there
    exact (relock_request (Errand.worker_not_mem hnot)).symm
  | insert i ticket found room =>
    rw [queue_call, queue_releaseStructure, queue_insert]
    exact (relock_release (List.nodup_cons.mp single).1).symm
  | park i ticket found full victim =>
    -- the worker of the entry to insert stays locked
    exact queue_releaseStructure.trans (relock_release (List.nodup_cons.mp single).1).symm
  | unpark i ticket woken =>
    exact (queue_requestStructure t).trans (relock_request (by simp [Stage.locks])).symm
  | conclude e found grown normal =>
    rw [Move.locks_finish (e.outcome_ne_slot p found), Stage.locks, Errand.own_of_newborn? grown]
    exact queue_releaseStructure.trans (relock_release List.not_mem_nil).symm
  | giveUp id f found =>
    exact (queue_wake.trans queue_releaseStructure).trans (relock_release List.not_mem_nil).symm
  | stopped e i todo found =>
    exact (queue_wake.trans queue_releaseWorker).trans
      (relock_release (List.nodup_cons.mp single).1).symm
  | interrupted i =>
    exact ((queue_setStatus _).trans queue_releaseWorker).trans (relock_release List.not_mem_nil).symm
  | interruptFailed i f => exact queue_releaseWorker.trans (relock_release List.not_mem_nil).symm
  | back i =>
    rw [queue_wake, queue_touch, Move.locks_finish (Outcome.ofRecord_ne_slot _)]
    exact queue_releaseWorker.trans (relock_release List.not_mem_nil).symm
  | restartFailed s i why was =>
    rw [queue_requestStructure, queue_releaseWorker]
    obtain rfl | rfl := was <;> exact (relock_swap (by simp)).symm
  | queue i held =>
    rw [queue_requestSlot t (has_releaseWorker.mpr (has_of_holdsWorker held)), queue_releaseWorker]
    exact (relock_swap (by simp)).symm
  | refuse i held absent => exact queue_releaseSlot.trans (relock_release List.not_mem_nil).symm
  | reap i => exact (queue_requestWorker t (r.doomed i rfl)).trans (relock_request List.not_mem_nil).symm
  | reaped i => exact queue_releaseWorker.trans (relock_release List.not_mem_nil).symm
  | up i there =>
    rw [Move.locks_finish (Outcome.ofRecord_ne_slot _), queue_releaseWorker, queue_wake,
      queue_setStatus]
    exact (relock_release List.not_mem_nil).symm
  | abandoned i f =>
    rw [queue_releaseWorker, queue_wake, queue_untrack]
    exact (relock_release List.not_mem_nil).symm

/-- A task goes on from a stage that waits for a lock only when it holds the lock. -/
theorem granted (h : Advance t p s p' m) (hn : s.awaits = some n) :
    (p.queue n).head? = some t := by
  cases h with
  | enter e held =>
    obtain rfl := Option.some.inj hn
    exact of_decide_eq_true held
  | stop _ _ _ _ held | interrupt _ held | restart _ held | queue _ held | reapStop _ held =>
    obtain rfl := Option.some.inj hn
    exact head_of_holdsWorker held
  | grant _ held | refuse _ held =>
    obtain rfl := Option.some.inj hn
    exact head_of_holdsSlot held
  | abandon _ _ _ was | restartFailed _ _ _ was => obtain rfl | rfl := was <;> simp [Stage.awaits] at hn
  | _ => simp [Stage.awaits] at hn

/-- A task waits for the lock that it newly asks for. -/
theorem asked (h : Advance t p s p' m) (hm : n ∈ m.locks) (hs : n ∉ s.locks) :
    m.awaits = some n := by
  cases h with
  | enter | spare | gone | forget | stop | interrupt | restart | restarted | reapStop | started
  | late | grant => exact absurd hm hs
  | abandon _ _ _ was => obtain rfl | rfl := was <;> exact absurd hm hs
  | insert | park | stopped => exact absurd (List.mem_cons_of_mem _ hm) hs
  | close | evict | unpark =>
    rcases List.mem_cons.mp hm with rfl | hm
    · rfl
    · exact absurd hm hs
  | restartFailed | queue | reap =>
    obtain rfl := List.mem_singleton.mp hm
    rfl
  | conclude e found => simp [Move.locks_finish (e.outcome_ne_slot p found)] at hm
  | back | up => simp [Move.locks_finish (Outcome.ofRecord_ne_slot _)] at hm
  | giveUp | interrupted | interruptFailed | refuse | reaped | abandoned => simp [Move.locks] at hm

theorem single (h : Advance t p s p' m) (r : Ready p s) : m.locks.Nodup := by
  have single := r.single
  cases h with
  | enter | spare | gone | forget | stop | interrupt | restart | restarted | reapStop | started
  | late | grant => exact single
  | abandon _ _ _ was => obtain rfl | rfl := was <;> exact single
  | insert | park | stopped => exact (List.nodup_cons.mp single).2
  | close e i todo found may there =>
    exact List.nodup_cons.mpr ⟨Errand.worker_not_mem fun hj => r.young i hj there, single⟩
  | evict i ticket v _ _ victim =>
    have there := mem_tracked_of_evictee? victim
    have hnot : Errand.newborn? (.room i ticket) ≠ some v := fun hv => r.young v hv there
    exact List.nodup_cons.mpr ⟨Errand.worker_not_mem hnot, single⟩
  | unpark i => exact List.nodup_cons.mpr ⟨by simp [Errand.own, Errand.newborn?], single⟩
  | restartFailed | queue | reap => exact List.nodup_cons.mpr ⟨List.not_mem_nil, List.nodup_nil⟩
  | conclude e found => simp [Move.locks_finish (e.outcome_ne_slot p found)]
  | back | up => simp [Move.locks_finish (Outcome.ofRecord_ne_slot _)]
  | giveUp | interrupted | interruptFailed | refuse | reaped | abandoned => exact List.nodup_nil

/-- A step inserts no entry but the task's own. -/
theorem inserted (h : Advance t p s p' m) (hj : j ∈ p'.tracked) :
    j ∈ p.tracked ∨ s.newborn? = some j ∧ m = .wait (.starting j) := by
  cases h with
  | insert i ticket found room =>
    rw [tracked_call, tracked_releaseStructure, tracked_insert, List.mem_append,
      List.mem_singleton] at hj
    rcases hj with hj | rfl
    · exact .inl hj
    · exact .inr ⟨rfl, rfl⟩
  | forget | abandon => exact .inl (mem_tracked_untrack.mp hj).1
  | close | evict | abandoned => exact .inl (mem_tracked_untrack.mp hj).1
  | _ => exact .inl hj

theorem nodup_tracked (h : Advance t p s p' m) (r : Ready p s) (nodup : p.tracked.Nodup) :
    p'.tracked.Nodup := by
  cases h with
  | insert i ticket found room =>
    have hi : i ∉ p.tracked := r.young i rfl
    rw [tracked_call, tracked_releaseStructure, tracked_insert]
    refine List.nodup_append.mpr ⟨nodup, by simp, ?_⟩
    intro j hj k hk hjk
    exact hi (List.mem_singleton.mp hk ▸ hjk ▸ hj)
  | forget | close | evict | abandon | abandoned => exact nodup.filter _
  | _ => exact nodup

/-- A task does not get another entry to insert. -/
theorem unborn (h : Advance t p s p' m) (hj : m.newborn? = some j) : s.newborn? = some j := by
  cases h with
  | conclude | back | up => cases hj
  | _ => first | exact hj | cases hj

/-- Only a new task is about to ask for a dead worker. -/
theorem ne_reap (h : Advance t p s p' m) : m ≠ .wait (.reap i) := by
  cases h <;> simp

theorem has_iff (h : Advance t p s p' m) : p'.Has i ↔ p.Has i := by
  cases h <;> simp

theorem id?_eq (h : Advance t p s p' m) : p'.id? i = p.id? i := by
  cases h with
  | back => simp [id?_touch]
  | _ => simp

/-- The pool does not change what the workers say and send. -/
theorem outer {α : Type} {g : Entry → α} (h : Advance t p s p' m) (hg : Outer g) :
    (p'.entry? i).map g = (p.entry? i).map g := by
  cases h <;> simp [hg]

theorem mail_eq (h : Advance t p s p' m) : p'.mail i = p.mail i :=
  mail_congr (h.outer outer_mail)

theorem config_eq (h : Advance t p s p' m) : p'.config = p.config := by
  cases h <;> rfl

/-- A pool only grows while there is room. -/
theorem size_le (h : Advance t p s p' m) : p'.size ≤ max p.size p.capacity := by
  cases h with
  | insert i ticket found room =>
    have hsize : (((p.insert i).releaseStructure).call i .start).size = p.size + 1 := by
      simp [size]
    omega
  | forget | close | evict | abandon | abandoned =>
    exact Nat.le_trans (List.length_filter_le _ _) (Nat.le_max_left _ _)
  | _ => exact Nat.le_max_left _ _

end Advance

/-! ## The first step of a call -/

namespace Opening

variable {c : PoolCall} {dead : List Nat}

/-- The first step of a call moves its own task only, in the queues of the locks that it asks for. -/
theorem queues (h : Opening t p c p' dead m) (there : ∀ i ∈ p.tracked, p.Has i) (n : LockName) :
    p'.queue n = relock t [] m.locks n (p.queue n) := by
  cases h with
  | finish _ o plain =>
    rw [Move.locks_finish plain]
    exact relock_self.symm
  | discard _ dead o found plain =>
    rw [Move.locks_finish plain]
    exact (queue_discard dead).trans relock_self.symm
  | create request name inspector =>
    have hhas : (p.launch name request.notebook inspector).Has p.entries.length :=
      (has_launch _ _ _).mpr (.inr rfl)
    rw [queue_requestStructure, queue_requestWorker t hhas, queue_launch]
    simp only [relock, Move.locks, Stage.locks, List.mem_cons, Errand.own, Errand.newborn?,
      Option.toList, List.map, List.not_mem_nil, or_false]
    by_cases hn : n = .pool
    · simp [hn]
    · simp [hn]
  | update => exact (queue_setStatus _).trans relock_self.symm
  | interrupt _ i found | acquire _ i found =>
    exact (queue_requestWorker t (there i (find?_eq_some found).1)).trans
      (relock_request List.not_mem_nil).symm
  | restart _ i found =>
    rw [queue_requestWorker t (has_setStatus _ |>.mpr (there i (find?_eq_some found).1)),
      queue_setStatus]
    exact (relock_request List.not_mem_nil).symm
  | errand _ e grown =>
    simp only [Move.locks, Stage.locks, Errand.own_of_newborn? grown]
    exact (queue_requestStructure t).trans (relock_request List.not_mem_nil).symm

theorem single (h : Opening t p c p' dead m) : m.locks.Nodup := by
  cases h with
  | finish _ o plain | discard _ _ o _ plain => simp [Move.locks_finish plain]
  | errand _ e grown => simp [Move.locks, Stage.locks, Errand.own_of_newborn? grown]
  | _ => simp [Move.locks, Stage.locks, Errand.own, Errand.newborn?]

/-- The task of a call waits for the lock that it asks for, or it is the first to ask. -/
theorem asked (h : Opening t p c p' dead m) (hn : n ∈ m.locks) :
    m.awaits = some n ∨ p.queue n = [] := by
  cases h with
  | finish _ o plain | discard _ _ o _ plain => simp [Move.locks_finish plain] at hn
  | create =>
    simp only [Move.locks, Stage.locks, Errand.own, Errand.newborn?, Option.toList, List.map,
      List.mem_cons, List.not_mem_nil, or_false] at hn
    rcases hn with rfl | rfl
    · exact .inl rfl
    · refine .inr (List.eq_nil_iff_forall_not_mem.mpr fun u hu => ?_)
      exact Nat.lt_irrefl _ (has_of_mem_worker hu)
  | errand _ e grown =>
    simp only [Move.locks, Stage.locks, Errand.own_of_newborn? grown, List.mem_singleton] at hn
    exact .inl (hn ▸ rfl)
  | update => simp [Move.locks] at hn
  | interrupt | acquire | restart =>
    obtain rfl := List.mem_singleton.mp hn
    exact .inl rfl

theorem inserted (h : Opening t p c p' dead m) (hj : j ∈ p'.tracked) : j ∈ p.tracked := by
  cases h with
  | discard => exact (mem_tracked_discard.mp hj).1
  | _ => exact hj

theorem nodup_tracked (h : Opening t p c p' dead m) (nodup : p.tracked.Nodup) :
    p'.tracked.Nodup := by
  cases h with
  | discard => exact nodup_discard _ nodup
  | _ => exact nodup

/-- The entry that a call is to insert is a new one. -/
theorem unborn (h : Opening t p c p' dead m) (hj : m.newborn? = some j) : ¬p.Has j := by
  cases h with
  | create =>
    obtain rfl := Option.some.inj hj
    exact Nat.lt_irrefl _
  | errand _ e grown => exact absurd (grown.symm.trans hj) (by simp)
  | _ => cases hj

theorem ne_reap (h : Opening t p c p' dead m) : m ≠ .wait (.reap i) := by
  cases h <;> simp

theorem has_mono (h : Opening t p c p' dead m) (hi : p.Has i) : p'.Has i := by
  cases h with
  | create => simp [hi]
  | _ => simpa using hi

/-- Every entry carries the identifier of its number. -/
theorem named (h : Opening t p c p' dead m) (named : ∀ i, p.Has i → p.id? i = some (.fresh i))
    (hi : p'.Has i) : p'.id? i = some (.fresh i) := by
  cases h with
  | create =>
    rw [id?_requestStructure, id?_requestWorker, id?_launch]
    split
    · rfl
    · next hne => exact named i (by simpa [hne] using hi)
  | _ => simpa using named i (by simpa using hi)

theorem outer {α : Type} {g : Entry → α} (h : Opening t p c p' dead m) (hg : Outer g)
    (has : p.Has i) : (p'.entry? i).map g = (p.entry? i).map g := by
  cases h with
  | create => simp [hg, outer_launch has]
  | _ => simp [hg]

theorem mail_eq (h : Opening t p c p' dead m) : p'.mail i = p.mail i := by
  cases h with
  | create request name inspector =>
    exact (mail_congr (q := p.launch name request.notebook inspector) (by simp [outer_mail])).trans
      (mail_launch ..)
  | _ => exact mail_congr (by simp [outer_mail])

theorem config_eq (h : Opening t p c p' dead m) : p'.config = p.config := by
  cases h with
  | discard => exact config_discard _
  | _ => rfl

theorem size_le (h : Opening t p c p' dead m) : p'.size ≤ p.size := by
  cases h with
  | discard => exact size_discard_le _
  | _ => exact Nat.le_refl _

theorem has_dead (h : Opening t p c p' dead m) (hj : j ∈ dead) : p'.Has j := by
  cases h with
  | discard _ _ _ found => exact (has_discard _).mpr (has_of_isDead (found j hj).2)
  | _ => cases hj

end Opening

end Pool
end NotebookKernels
