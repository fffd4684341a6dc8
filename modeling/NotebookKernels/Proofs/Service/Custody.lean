import NotebookKernels.Proofs.Service.Capacity
import NotebookKernels.Proofs.Service.Deeds
import NotebookKernels.Proofs.Service.Eviction

/- Who is to shut the worker of a removed kernel down.

   `Bearing` sorts the steps of the services by what they mean for one entry: whether it stays tracked,
   what its worker is told, and which tasks bring the worker up (`Starts`), are to shut it down because
   they removed the entry (`Closes`), or want to restart it (`Asks`). There are ten kinds of steps, and
   `bearing_of_reached` says that a run has no others. The first thing that follows is that a kernel is
   removed by one task at a time: `Removed`. -/
namespace NotebookKernels

open Function (update)

namespace Stage

/-- The task asks for the worker of the entry, to restart it. -/
def Asks (i : Nat) (s : Stage) : Prop := s = .restartLock i

theorem Closes.not_starts {s : Stage} {i : Nat} (h : s.Closes i) : ¬s.Starts i := by
  cases s with
  | closing | reap | reapLock => exact id
  | _ => exact False.elim h

/-- Whoever is to shut a worker down has its lock or waits for it, unless it is about to ask. -/
theorem Owes.worker {s : Stage} {i : Nat} (h : s.Owes i) (asked : s ≠ .reap i) :
    .worker i ∈ s.locks := by
  rcases h with starts | closes
  · exact starts.worker.1
  · cases s with
    | closing _ j =>
      obtain rfl : j = i := closes
      exact List.mem_cons_self ..
    | reap j => exact absurd (congrArg reap closes) asked
    | reapLock j =>
      obtain rfl : j = i := closes
      exact List.mem_singleton.mpr rfl
    | _ => exact False.elim closes

end Stage

namespace Scene

variable {c c' : Scene} {P : Stage → Prop} {t u v : TaskId} {st : Stage} {m : Move} {i : Nat}

/-- The task stands at such a stage. -/
def Stands (c : Scene) (P : Stage → Prop) (u : TaskId) : Prop := ∃ st, c.stage? u = some st ∧ P st

theorem stands_iff (h : c.stage? u = some st) : c.Stands P u ↔ P st := by
  simp [Stands, h]

theorem stands_congr (h : c'.stage? u = c.stage? u) : c'.Stands P u ↔ c.Stands P u := by
  rw [Stands, h, Stands]

theorem stands_self (moved : c'.stage? = update c.stage? t m.stage?) :
    c'.Stands P t ↔ m.To P := by
  rw [Stands, moved, Function.update_self]
  cases m <;> simp [Move.stage?, Move.To]

theorem stands_of_ne (moved : c'.stage? = update c.stage? t m.stage?) (h : u ≠ t) :
    c'.Stands P u ↔ c.Stands P u :=
  stands_congr (by rw [moved, Function.update_of_ne h])

theorem stands_owes : c.Stands (Stage.Owes i) u ↔
    c.Stands (Stage.Starts i) u ∨ c.Stands (Stage.Closes i) u := by
  simp only [Stands, Stage.Owes, and_or_left, exists_or]

/-- The task that moves stands to the entry as it stood before, and so do all. -/
theorem stands_kept (moved : c'.stage? = update c.stage? t m.stage?) (own : m.To P ↔ c.Stands P t)
    (u : TaskId) : c'.Stands P u ↔ c.Stands P u := by
  by_cases hu : u = t
  · subst hu
    exact (stands_self moved).trans own
  · exact stands_of_ne moved hu

theorem stands_gained (moved : c'.stage? = update c.stage? t m.stage?) (own : m.To P)
    (u : TaskId) : c'.Stands P u ↔ u = t ∨ c.Stands P u := by
  by_cases hu : u = t
  · subst hu
    exact iff_of_true ((stands_self moved).mpr own) (.inl rfl)
  · rw [stands_of_ne moved hu, or_iff_right hu]

theorem stands_lost (moved : c'.stage? = update c.stage? t m.stage?) (own : ¬m.To P)
    (u : TaskId) : c'.Stands P u ↔ u ≠ t ∧ c.Stands P u := by
  by_cases hu : u = t
  · subst hu
    exact iff_of_false (fun h => own ((stands_self moved).mp h)) fun h => h.1 rfl
  · rw [stands_of_ne moved hu, and_iff_right hu]

/-- When a call begins that does not stand so itself, those stand so who did before, and the new tasks
that are to tear a worker down, if that is to stand so. -/
theorem stands_begun {dead : List Nat} {n : TaskId} (free : c.stage? t = none)
    (fresh : ∀ u, n ≤ u → c.stage? u = none)
    (stages : ∀ u, c'.stage? u =
      if u < n then update c.stage? t m.stage? u else dead[u - n]?.map .reap)
    (own : ¬m.To P) (u : TaskId) :
    c'.Stands P u ↔ c.Stands P u ∨ ∃ k j, u = n + k ∧ dead[k]? = some j ∧ P (.reap j) := by
  rcases Nat.lt_or_ge u n with hu | hu
  · have moved : c'.stage? u = update c.stage? t m.stage? u := by rw [stages, if_pos hu]
    have old : ¬∃ k j, u = n + k ∧ dead[k]? = some j ∧ P (.reap j) := by
      rintro ⟨k, j, rfl, -⟩
      exact absurd hu (Nat.not_lt.mpr (Nat.le_add_right n k))
    rw [or_iff_left old]
    by_cases hut : u = t
    · subst hut
      have self : c'.Stands P u ↔ m.To P := by
        rw [Stands, moved, Function.update_self]
        cases m <;> simp [Move.stage?, Move.To]
      exact iff_of_false (mt self.mp own) (by simp [Stands, free])
    · exact stands_congr (by rw [moved, Function.update_of_ne hut])
  · obtain ⟨k, rfl⟩ := Nat.exists_eq_add_of_le hu
    have new : ¬c.Stands P (n + k) := by simp [Stands, fresh _ hu]
    rw [or_iff_right new, Stands, stages, if_neg (Nat.not_lt.mpr hu), Nat.add_sub_cancel_left]
    simp

/-- Whoever has the worker of an entry or waits for it is in its queue. -/
theorem Sound.mem_worker (h : c.Sound) (hu : c.stage? u = some st) (hw : .worker i ∈ st.locks) :
    u ∈ c.pool.queue (.worker i) :=
  (h.orderly.mem u _).mpr (h.locks_of_stage hu ▸ hw)

/-- Whoever brings a worker up has it. -/
theorem Sound.head_of_starts (h : c.Sound) (hu : c.Stands (Stage.Starts i) u) :
    (c.pool.queue (.worker i)).head? = some u := by
  obtain ⟨st, hst, starts⟩ := hu
  exact h.holds hst starts.worker.1 (by simp [starts.worker.2])

theorem Sound.starts_inj (h : c.Sound) (hu : c.Stands (Stage.Starts i) u)
    (hv : c.Stands (Stage.Starts i) v) : u = v :=
  Option.some.inj ((h.head_of_starts hu).symm.trans (h.head_of_starts hv))

/-- Whoever wants to restart a worker waits in its queue. -/
theorem Sound.mem_of_asks (h : c.Sound) (hu : c.Stands (Stage.Asks i) u) :
    u ∈ c.pool.queue (.worker i) := by
  obtain ⟨st, hst, rfl⟩ := hu
  exact h.mem_worker hst (List.mem_singleton.mpr rfl)

theorem Grown.step {s s' : Services} {l : Label} (sound : s.scene.Sound)
    (step : s.step l = some s') (h : s.scene.Grown i) : s'.scene.Grown i := by
  refine Services.strides_step (I := fun _ c => c.Grown i) [] sound step h.stir ?_
    fun _ _ _ _ turn h => h.calm turn
  intro t w st p m _ was adv
  exact h.stride (Sound.stage_of_act was) adv

end Scene

namespace Services

open Scene

variable {config : Config} {catalog : Catalog} {before : List Label} {s s' d d' : Services}
  {l : Label} {t u v : TaskId} {i : Nat}

theorem grown_run {ls : List Label} (sound : s.scene.Sound) (grown : s.scene.Grown i)
    (run : s.run ls = some s') : s'.scene.Sound ∧ s'.scene.Grown i :=
  run_keeps (I := fun d => d.scene.Sound ∧ d.scene.Grown i) (P := fun _ => True)
    (fun _ _ _ _ h step => ⟨sound_step h.1 step, h.2.step h.1 step⟩) (fun _ _ => trivial)
    ⟨sound, grown⟩ run

/-- What a step may mean for an entry: whether it stays tracked, what its worker is told, and who
starts it, is to shut it down, or wants to restart it. -/
inductive Bearing (i : Nat) (s : Services) (l : Label) (s' : Services) : Prop
  /-- All stand to the entry as they stood before. -/
  | aside (kept : i ∈ s'.pool.tracked ↔ i ∈ s.pool.tracked) (told : List WorkerCall)
      (calls : s'.pool.calls i = s.pool.calls i ++ told) (mild : ∀ w ∈ told, w.Mild)
      (starts : ∀ u, s'.scene.Stands (Stage.Starts i) u ↔ s.scene.Stands (Stage.Starts i) u)
      (closes : ∀ u, s'.scene.Stands (Stage.Closes i) u ↔ s.scene.Stands (Stage.Closes i) u)
      (asks : ∀ u, s'.scene.Stands (Stage.Asks i) u ↔ s.scene.Stands (Stage.Asks i) u)
  /-- A caller wants the entry restarted. -/
  | ask (id : KernelId) (called : l = .call (.pool (.restart id))) (there : i ∈ s.pool.tracked)
      (kept : i ∈ s'.pool.tracked)
      (closes : ∀ u, s'.scene.Stands (Stage.Closes i) u ↔ s.scene.Stands (Stage.Closes i) u)
  /-- The entry is inserted. -/
  | insert (t : TaskId) (newborn : s.scene.newborn? t = some i) (there : i ∈ s'.pool.tracked)
      (calls : s'.pool.calls i = s.pool.calls i ++ [.start])
      (closes : ∀ u, s'.scene.Stands (Stage.Closes i) u ↔ s.scene.Stands (Stage.Closes i) u)
      (asks : ∀ u, s'.scene.Stands (Stage.Asks i) u ↔ s.scene.Stands (Stage.Asks i) u)
  /-- The entry is removed while its worker is brought up, and the worker left to whoever does so. -/
  | forget (there : i ∈ s.pool.tracked) (starting : s.pool.status? i = some .starting)
      (gone : i ∉ s'.pool.tracked) (calls : s'.pool.calls i = s.pool.calls i)
      (starts : ∀ u, s'.scene.Stands (Stage.Starts i) u ↔ s.scene.Stands (Stage.Starts i) u)
      (closes : ∀ u, s'.scene.Stands (Stage.Closes i) u ↔ s.scene.Stands (Stage.Closes i) u)
      (asks : ∀ u, s'.scene.Stands (Stage.Asks i) u ↔ s.scene.Stands (Stage.Asks i) u)
  /-- The entry is removed, and task `t` is to shut its worker down, after all who want to restart
  it. -/
  | close (t : TaskId) (there : i ∈ s.pool.tracked) (gone : i ∉ s'.pool.tracked)
      (settled : ∀ u, s.scene.Stands (Stage.Starts i) u → s.pool.status? i = some .restarting)
      (calls : s'.pool.calls i = s.pool.calls i)
      (starts : ∀ u, s'.scene.Stands (Stage.Starts i) u ↔ s.scene.Stands (Stage.Starts i) u)
      (closes : ∀ u, s'.scene.Stands (Stage.Closes i) u ↔
        u = t ∨ s.scene.Stands (Stage.Closes i) u)
      (asks : ∀ u, s'.scene.Stands (Stage.Asks i) u ↔ s.scene.Stands (Stage.Asks i) u)
      (last : ∀ v, s'.scene.Stands (Stage.Asks i) v →
        [v, t].Sublist (s'.pool.queue (.worker i)))
  /-- The worker is shut down by the task that removed the entry. -/
  | shut (t : TaskId) (kept : i ∈ s'.pool.tracked ↔ i ∈ s.pool.tracked)
      (calls : s'.pool.calls i = s.pool.calls i ++ [.shutdown])
      (was : s.scene.Stands (Stage.Closes i) t)
      (first : (s.pool.queue (.worker i)).head? = some t)
      (starts : ∀ u, s'.scene.Stands (Stage.Starts i) u ↔ s.scene.Stands (Stage.Starts i) u)
      (closes : ∀ u, s'.scene.Stands (Stage.Closes i) u ↔
        u ≠ t ∧ s.scene.Stands (Stage.Closes i) u)
      (asks : ∀ u, s'.scene.Stands (Stage.Asks i) u ↔ s.scene.Stands (Stage.Asks i) u)
  /-- The worker is shut down by the task that brought it up. -/
  | abandon (t : TaskId) (gone : i ∉ s'.pool.tracked)
      (calls : s'.pool.calls i = s.pool.calls i ++ [.shutdown])
      (was : s.scene.Stands (Stage.Starts i) t) (st : Stage) (why : String)
      (shown : s.strides l = [⟨t, st, .wait (.abandoning i (.start why))⟩])
      (starts : ∀ u, s'.scene.Stands (Stage.Starts i) u ↔
        u ≠ t ∧ s.scene.Stands (Stage.Starts i) u)
      (closes : ∀ u, s'.scene.Stands (Stage.Closes i) u ↔ s.scene.Stands (Stage.Closes i) u)
      (asks : ∀ u, s'.scene.Stands (Stage.Asks i) u ↔ s.scene.Stands (Stage.Asks i) u)
  /-- The worker is up. -/
  | up (there : i ∈ s.pool.tracked) (kept : i ∈ s'.pool.tracked)
      (calls : s'.pool.calls i = s.pool.calls i)
      (closes : ∀ u, s'.scene.Stands (Stage.Closes i) u ↔ s.scene.Stands (Stage.Closes i) u)
      (asks : ∀ u, s'.scene.Stands (Stage.Asks i) u ↔ s.scene.Stands (Stage.Asks i) u)
  /-- The worker is restarted. -/
  | restart (t : TaskId) (kept : i ∈ s'.pool.tracked ↔ i ∈ s.pool.tracked)
      (calls : s'.pool.calls i = s.pool.calls i ++ [.restart])
      (was : s.scene.Stands (Stage.Asks i) t)
      (starts : ∀ u, s'.scene.Stands (Stage.Starts i) u ↔ s.scene.Stands (Stage.Starts i) u)
      (closes : ∀ u, s'.scene.Stands (Stage.Closes i) u ↔ s.scene.Stands (Stage.Closes i) u)
      (asks : ∀ u, s'.scene.Stands (Stage.Asks i) u ↔ u ≠ t ∧ s.scene.Stands (Stage.Asks i) u)

/-- A worker whose lock is free is wanted by nobody. -/
theorem queue_of_isDead {p : Pool} (h : p.isDead i = true) : p.queue (.worker i) = [] := by
  refine List.eq_nil_iff_forall_not_mem.mpr fun u hu => ?_
  exact absurd (h.symm.trans (Pool.isDead_of_mem_worker hu)) (by simp)

/-- The task of a step inside the pool. -/
theorem bearing_of_stride {w : Work} {st : Stage} {p : Pool} {m : Move} (sound : s.scene.Sound)
    (guarded : s.scene.Guarded) (was : s.tasks.get? t = some (.pool w st))
    (adv : Pool.Advance t s.pool st p m) (shown : s.strides l = [⟨t, st, m⟩])
    (same : p.SameWorkers s'.pool) (moved : s'.scene.stage? = update s.scene.stage? t m.stage?)
    (i : Nat) : Bearing i s l s' := by
  have hst : s.scene.stage? t = some st := Sound.stage_of_act was
  have own : ∀ {P : Stage → Prop}, s.scene.Stands P t ↔ P st := stands_iff hst
  have kept : ∀ {P : Stage → Prop}, (m.To P ↔ P st) →
      ∀ u, s'.scene.Stands P u ↔ s.scene.Stands P u :=
    fun h => stands_kept moved (h.trans own.symm)
  have unasked : ¬m.To (Stage.Asks i) := by
    intro h
    cases m with
    | wait st' => exact adv.ne_restartLock (congrArg Move.wait h)
    | finish => exact h
  have tracked : i ∈ s'.pool.tracked ↔ i ∈ p.tracked := by rw [same.tracked]
  have neither : ∀ {P : Stage → Prop}, ¬m.To P → ¬P st →
      ∀ u, s'.scene.Stands P u ↔ s.scene.Stands P u :=
    fun hm hs => kept (iff_of_false hm hs)
  have fate := adv.fate i sound.there
    (fun j hj => Pool.has_of_mem_worker (sound.mem_worker hst hj))
    fun f hf => guarded.gone t i f (hst.trans (congrArg some hf))
  cases fate with
  | aside same' told calls mild starts closes elsewhere =>
    exact .aside (tracked.trans same') told ((same.calls i).trans calls) mild (kept starts)
      (kept closes) (kept (iff_of_false unasked elsewhere))
  | insert newborn there calls before after elsewhere =>
    have hn : s.scene.newborn? t = some i := by simp [newborn?, hst, newborn]
    subst after
    exact .insert t hn (tracked.mpr there) ((same.calls i).trans calls)
      (kept (iff_of_false id fun h => before (.inr h))) (neither unasked elsewhere)
  | forget there starting gone calls before after elsewhere =>
    rw [Move.to_owes, not_or] at after
    exact .forget there starting (fun h => gone (tracked.mp h)) ((same.calls i).trans calls)
      (neither after.1 fun h => before (.inl h)) (neither after.2 fun h => before (.inr h))
      (neither unasked elsewhere)
  | close there settled gone calls before after queue elsewhere =>
    have unstarted : ¬m.To (Stage.Starts i) := by
      cases m with
      | wait => exact after.not_starts
      | finish => exact id
    refine .close t there (fun h => gone (tracked.mp h)) ?_ ((same.calls i).trans calls)
      (neither unstarted fun h => before (.inl h)) (stands_gained moved after)
      (neither unasked elsewhere) ?_
    · rintro u ⟨su, hu, starts⟩
      exact (guarded.unready u su i hu (.inr starts)).status.resolve_left settled
    · intro v hv
      have old := (neither unasked elsewhere v).mp hv
      rw [same.queue, queue]
      exact (List.singleton_sublist.mpr (sound.mem_of_asks old)).append (List.Sublist.refl [t])
  | shut same' calls before held after =>
    rw [Move.to_owes, not_or] at after
    have elsewhere : ¬st.Asks i := by
      rintro rfl
      exact before
    exact .shut t (tracked.trans same') ((same.calls i).trans calls) (own.mpr before) held
      (neither after.1 before.not_starts) (stands_lost moved after.2) (neither unasked elsewhere)
  | abandon gone calls before why after =>
    subst after
    have elsewhere : ¬st.Asks i := by
      rintro rfl
      exact before
    exact .abandon t (fun h => gone (tracked.mp h)) ((same.calls i).trans calls) (own.mpr before) st
      why shown (stands_lost moved id) (neither id fun h => h.not_starts before)
      (neither unasked elsewhere)
  | up there same' calls before after =>
    rw [Move.to_owes, not_or] at after
    have elsewhere : ¬st.Asks i := by
      rintro rfl
      exact before
    exact .up there (tracked.mpr same') ((same.calls i).trans calls)
      (neither after.2 fun h => h.not_starts before) (neither unasked elsewhere)
  | restart same' calls before after =>
    subst before after
    exact .restart t (tracked.trans same') ((same.calls i).trans calls) (own.mpr rfl)
      (neither id id) (neither id id) (stands_lost moved unasked)

/-- What the beginning of a call means for an entry. -/
theorem bearing_of_begin {call : PoolCall} {p q : Pool} {dead : List Nat} {m : Move} {n : TaskId}
    (sound : s.scene.Sound) (single : dead.Nodup) (before : s.pool.SameWorkers p)
    (opening : Pool.Opening t p call q dead m) (after : q.SameWorkers s'.pool)
    (may : l = .call (.pool call) ∨ call.Inner) (free : s.scene.stage? t = none)
    (fresh : ∀ u, n ≤ u → s.scene.stage? u = none)
    (stages : ∀ u, s'.scene.stage? u =
      if u < n then update s.scene.stage? t m.stage? u else dead[u - n]?.map .reap)
    (i : Nat) : Bearing i s l s' := by
  have tracked : i ∈ s'.pool.tracked ↔ i ∈ s.pool.tracked ∧ i ∉ dead := by
    rw [after.tracked, opening.mem_tracked_iff, before.tracked]
  have calls : s'.pool.calls i = s.pool.calls i := by
    rw [after.calls, opening.calls_eq, before.calls]
  have all : ∀ {P : Stage → Prop}, ¬m.To P → (∀ j ∈ dead, ¬P (.reap j)) →
      ∀ u, s'.scene.Stands P u ↔ s.scene.Stands P u := by
    intro P hm hdead u
    refine (stands_begun free fresh stages hm u).trans (or_iff_left ?_)
    rintro ⟨k, j, -, hj, hP⟩
    exact hdead j (List.mem_of_getElem? hj) hP
  have owes : ¬m.To (Stage.Starts i) ∧ ¬m.To (Stage.Closes i) :=
    not_or.mp fun h => opening.owes_nothing (Move.to_owes.mpr h)
  have starts := all owes.1 fun j _ => id
  by_cases hi : i ∈ dead
  · -- nobody has the dead worker, and the new task is the only one that is to shut it down
    obtain ⟨there, isDead, ended⟩ := opening.of_mem_dead hi
    have idle : s.pool.queue (.worker i) = [] := before.queue i ▸ queue_of_isDead isDead
    have elsewhere : ¬m.To (Stage.Asks i) := by
      cases m with
      | wait => cases ended
      | finish => exact id
    obtain ⟨k, hk⟩ := List.getElem?_of_mem hi
    have asks := all elsewhere fun j _ => by simp [Stage.Asks]
    refine .close (n + k) (before.tracked ▸ there) (fun h => (tracked.mp h).2 hi) ?_ calls starts ?_
      asks ?_
    · intro u hu
      have hmem := List.mem_of_mem_head? (sound.head_of_starts hu)
      exact absurd (idle ▸ hmem) List.not_mem_nil
    · intro u
      rw [stands_begun free fresh stages owes.2 u, or_comm]
      refine or_congr_left ⟨?_, ?_⟩
      · rintro ⟨l, j, rfl, hj, rfl⟩
        have hlt := (List.getElem?_eq_some_iff.mp hj).1
        rw [(List.getElem?_inj hlt single).mp (hj.trans hk.symm)]
      · rintro rfl
        exact ⟨k, i, rfl, hk, rfl⟩
    · intro v hv
      have hmem := sound.mem_of_asks ((asks v).mp hv)
      exact absurd (idle ▸ hmem) List.not_mem_nil
  · have kept : i ∈ s'.pool.tracked ↔ i ∈ s.pool.tracked := by rw [tracked, and_iff_left hi]
    have unclosed : ∀ j ∈ dead, ¬(Stage.reap j).Closes i := by
      rintro j hj rfl
      exact hi hj
    have closes := all owes.2 unclosed
    by_cases ha : m.To (Stage.Asks i)
    · obtain ⟨st', rfl, rfl⟩ : ∃ st', m = .wait st' ∧ st' = .restartLock i := by
        cases m with
        | wait st' => exact ⟨st', rfl, ha⟩
        | finish => exact False.elim ha
      obtain ⟨there, id, rfl⟩ := opening.of_restartLock
      rw [before.tracked] at there
      exact .ask id (may.resolve_right fun h => h) there (kept.mpr there) closes
    · exact .aside kept [] (by rw [calls, List.append_nil]) (by simp) starts closes
        (all ha fun j _ => by simp [Stage.Asks])

theorem bearing_of_step (sound : s.scene.Sound) (guarded : s.scene.Guarded)
    (single : s.pool.tracked.Nodup) (step : s.step l = some s') (i : Nat) : Bearing i s l s' := by
  cases deed_of_step sound.fresh step with
  | calm shown same stages =>
    have kept : ∀ {P : Stage → Prop} (u), s'.scene.Stands P u ↔ s.scene.Stands P u :=
      fun u => stands_congr (congrFun stages u)
    exact .aside (by rw [same.tracked]) [] (by rw [same.calls, List.append_nil]) (by simp) kept kept
      kept
  | stride t w st p m own was adv shown same stages =>
    exact bearing_of_stride sound guarded was adv shown same stages i
  | begin t call p q dead m n shown before opening after may distinct free fresh begun stages =>
    exact bearing_of_begin sound (distinct single) before opening after may free fresh stages i

/-- As long as callers set no status by themselves, a run has no other steps. -/
theorem bearing_of_reached (quiet : ∀ id status, .call (.pool (.updateStatus id status)) ∉ before)
    (reached : (init config catalog).run before = some d) (step : d.step l = some d') (i : Nat) :
    Bearing i d l d' := by
  obtain ⟨sound, guarded⟩ := guarded_run quiet reached
  exact bearing_of_step sound guarded (within_run reached).2.distinct step i

/-! ## One task removes a kernel -/

/-- Whoever is to shut the worker of an entry down because it removed the entry has removed it, and is
the only one who has. -/
structure Removed (i : Nat) (s : Services) : Prop where
  gone : ∀ u, s.scene.Stands (Stage.Closes i) u → i ∉ s.pool.tracked ∧ s.scene.Grown i
  sole : ∀ u v, s.scene.Stands (Stage.Closes i) u → s.scene.Stands (Stage.Closes i) v → u = v

theorem Removed.next (h : Removed i s) (sound : s.scene.Sound)
    (grown : s.scene.Grown i → s'.scene.Grown i) (bearing : Bearing i s l s') : Removed i s' := by
  -- nobody is to shut the worker of a tracked kernel down
  have unclosed : i ∈ s.pool.tracked → ∀ u, ¬s.scene.Stands (Stage.Closes i) u :=
    fun there u hu => (h.gone u hu).1 there
  have same : (i ∈ s'.pool.tracked → i ∈ s.pool.tracked) →
      (∀ u, s'.scene.Stands (Stage.Closes i) u → s.scene.Stands (Stage.Closes i) u) →
      Removed i s' := by
    intro kept closes
    refine ⟨fun u hu => ?_, fun u v hu hv => h.sole u v (closes u hu) (closes v hv)⟩
    obtain ⟨gone, hgrown⟩ := h.gone u (closes u hu)
    exact ⟨fun hi => gone (kept hi), grown hgrown⟩
  cases bearing with
  | aside kept told calls mild starts closes => exact same kept.mp fun u => (closes u).mp
  | ask id called there kept closes | up there kept calls closes =>
    exact same (fun _ => there) fun u => (closes u).mp
  | insert t newborn there calls closes =>
    obtain ⟨st, hst, hn⟩ := Option.bind_eq_some_iff.mp newborn
    have none : ∀ u, ¬s'.scene.Stands (Stage.Closes i) u :=
      fun u hu => (h.gone u ((closes u).mp hu)).2.unborn t st hst hn
    exact ⟨fun u hu => absurd hu (none u), fun u v hu => absurd hu (none u)⟩
  | forget there starting gone calls starts closes =>
    exact same (fun hi => absurd hi gone) fun u => (closes u).mp
  | close t there gone settled calls starts closes =>
    have only : ∀ u, s'.scene.Stands (Stage.Closes i) u → u = t :=
      fun u hu => ((closes u).mp hu).resolve_right (unclosed there u)
    refine ⟨fun u _ => ⟨gone, grown (.of_tracked sound there)⟩, fun u v hu hv => ?_⟩
    rw [only u hu, only v hv]
  | shut t kept calls was first starts closes => exact same kept.mp fun u hu => ((closes u).mp hu).2
  | abandon t gone calls was st why shown starts closes =>
    exact same (fun hi => absurd hi gone) fun u => (closes u).mp
  | restart t kept calls was starts closes => exact same kept.mp fun u => (closes u).mp

/-- As long as callers set no status by themselves, a kernel is removed by one task. -/
theorem removed_run {ls : List Label}
    (quiet : ∀ id status, .call (.pool (.updateStatus id status)) ∉ ls)
    (run : (init config catalog).run ls = some s) (i : Nat) : Removed i s := by
  refine run_induction (I := fun ls s =>
    (∀ id status, .call (.pool (.updateStatus id status)) ∉ ls) → Removed i s) ?_ ?_ run quiet
  · intro _
    have none : ∀ u, ¬(init config catalog).scene.Stands (Stage.Closes i) u := by
      rintro u ⟨st, hst, -⟩
      cases hst
    exact ⟨fun u hu => absurd hu (none u), fun u v hu => absurd hu (none u)⟩
  · intro before l d d' reached step ih quiet
    have quiet' : ∀ id status, .call (.pool (.updateStatus id status)) ∉ before :=
      fun id status h => quiet id status (List.mem_append_left _ h)
    have sound := sound_run (sound_init config catalog) reached
    exact (ih quiet').next sound (.step sound step) (bearing_of_reached quiet' reached step i)

end Services
end NotebookKernels
