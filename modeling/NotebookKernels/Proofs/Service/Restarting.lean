import NotebookKernels.Proofs.Pool.Statuses
import NotebookKernels.Proofs.Service.Strides

/- What a restart returns.

   A restart works on the entry that it found when it began, and does not look again whether the entry is
   still tracked when the worker is back. So of a restart that returns a kernel (`restart_returns`):
     1. the kernel is the one that the caller named, idle, with a count of zero;
     2. it is tracked just when nobody removed it while the restart was in progress;
     3. if it is tracked and its worker has not died, the next lookup returns it, with a later time of its
        last activity.
   No removal for a dead worker concerns it: a worker that is locked counts as in use, and the restart
   has its lock or waits for it (`isDead_of_mem_worker`). In `restart_of_removed` a shutdown removes the
   kernel, and the restart returns it all the same. -/
namespace NotebookKernels

namespace Stride

/-- The entry that the task removes in this stride, or finds removed. -/
def removes? (x : Stride) : Option Nat :=
  match x.stage, x.move with
  | .sweep e (i :: todo) found, m => if m = .wait (.sweep e todo found) then none else some i
  | .sweep _ [] _, .wait (.closing _ v _ _) => some v
  | .starting i, .wait (.abandoning ..) | .readying i, .wait (.abandoning ..)
  | .abandoning i _, _ => some i
  | _, _ => none

end Stride

namespace Stage

/-- The task restarts the kernel of this entry, or waits for its worker to do so. -/
def Renews (i : Nat) : Stage → Prop
  | .restartLock j | .restarting j | .restartReadying j => j = i
  | _ => False

/-- The task is to remove a kernel whose restart failed. -/
def GivesUp : Stage → Prop
  | .structure e | .sweep e _ _ | .closing e _ _ _ | .stopping e _ _ _ => ∃ id, e.GivesUp id
  | _ => False

theorem Renews.worker {s : Stage} {i : Nat} (h : s.Renews i) : .worker i ∈ s.locks := by
  cases s with
  | restartLock j | restarting j | restartReadying j =>
    obtain rfl : j = i := h
    exact List.mem_singleton.mpr rfl
  | _ => exact False.elim h

end Stage

namespace Pool

variable {p p' : Pool} {t : TaskId} {s s' : Stage} {m : Move} {i : Nat} {c : PoolCall}
  {dead : List Nat} {k : Kernel}

/-- A worker whose lock somebody has or waits for does not count as dead. -/
theorem isDead_of_mem_worker (h : t ∈ p.queue (.worker i)) : p.isDead i = false := by
  obtain ⟨e, he⟩ := has_iff_entry?.mp (has_of_mem_worker h)
  have hq : t ∈ e.workerLock.queue := by simpa [queue, he] using h
  have hfree : e.workerLock.isFree = false := by
    rw [Lock.isFree, List.isEmpty_eq_false_iff]
    exact List.ne_nil_of_mem hq
  simp [isDead, he, Entry.isDead, hfree]

/-- An entry that nobody is to insert stays tracked in a stride that does not remove it, and only
then. -/
theorem Advance.mem_tracked (h : Advance t p s p' m) (unborn : s.newborn? ≠ some i) :
    i ∈ p'.tracked ↔ i ∈ p.tracked ∧ (⟨t, s, m⟩ : Stride).removes? ≠ some i := by
  cases h with
  | spare e j todo found => simp [Stride.removes?]
  | gone e j todo found may absent =>
    -- a tracked entry is not the one that was found gone
    suffices i ∈ p.tracked → j ≠ i by simpa [Stride.removes?]
    rintro hi rfl
    exact absent hi
  | forget e j todo found => simp [Stride.removes?, eq_comm]
  | close e j todo found => simp [Stride.removes?, eq_comm]
  | evict j ticket v found => simp [Stride.removes?, eq_comm]
  | insert j ticket found =>
    have hne : i ≠ j := fun hij => unborn (congrArg some hij.symm)
    simp [Stride.removes?, hne]
  | late j absent =>
    suffices i ∈ p.tracked → j ≠ i by simpa [Stride.removes?]
    rintro hi rfl
    exact absent hi
  | abandon s j why was => obtain rfl | rfl := was <;> simp [Stride.removes?, eq_comm]
  | abandoned j f => simp [Stride.removes?, eq_comm]
  | restartFailed s j why was => obtain rfl | rfl := was <;> simp [Stride.removes?]
  | conclude e found | park j ticket found | giveUp id f found => simp [Stride.removes?]
  | _ => simp [Stride.removes?]

/-- The beginning of a call leaves an entry tracked whose worker is not dead. -/
theorem Opening.mem_tracked (h : Opening t p c p' dead m) (alive : p.isDead i = false) :
    i ∈ p'.tracked ↔ i ∈ p.tracked := by
  cases h with
  | discard _ dead _ found =>
    rw [mem_tracked_discard, and_iff_left_iff_imp]
    intro _ hi
    exact absurd ((found i hi).2.symm.trans alive) (by simp)
  | _ => simp

/-- A restart goes on restarting, or gives up. -/
theorem Advance.renews (h : Advance t p s p' (.wait s')) (hs : s.Renews i) :
    (s'.Renews i ∧ (⟨t, s, .wait s'⟩ : Stride).removes? = none ∧ p'.tracked = p.tracked) ∨
      s'.GivesUp := by
  cases h with
  | restart j | restarted j => exact .inl ⟨hs, rfl, rfl⟩
  | restartFailed => exact .inr ⟨_, _, rfl⟩
  | abandon _ _ _ was => obtain rfl | rfl := was <;> exact False.elim hs
  | _ => exact False.elim hs

theorem Advance.givesUp (h : Advance t p s p' (.wait s')) (hs : s.GivesUp) : s'.GivesUp := by
  cases h with
  | enter | spare | gone | forget | close | stop | stopped => exact hs
  | evict | insert | park =>
    obtain ⟨id, f, hf⟩ := hs
    cases hf
  | abandon _ _ _ was | restartFailed _ _ _ was => obtain rfl | rfl := was <;> exact False.elim hs
  | _ => exact False.elim hs

theorem Advance.gave_up (h : Advance t p s p' m) (hs : s.GivesUp) (k : Kernel) :
    m ≠ .finish (.kernel k) := by
  cases h with
  | conclude e found grown normal =>
    obtain ⟨id, f, rfl⟩ := hs
    exact absurd rfl (normal id f)
  | up j there => exact False.elim hs
  | back j => exact False.elim hs
  | _ => simp

/-- A restart that comes back returns the record of its kernel, idle and with a count of zero. The one
that is kept has been active since. -/
theorem Advance.renewed (h : Advance t p s p' m) (hm : m = .finish (.kernel k)) (hs : s.Renews i) :
    p'.tracked = p.tracked ∧
      (∃ r, p.record? i = some r ∧ k = { r with status := .idle, executionCount := 0 }) ∧
      p'.record? i = some { k with lastActivity := p'.now } := by
  cases h with
  | back j =>
    obtain rfl : j = i := hs
    obtain ⟨old, kept⟩ := record?_touch_of_returned hm
    rw [record?_releaseWorker] at old
    exact ⟨rfl, old, kept⟩
  | restartFailed | restart | restarted => cases hm
  | abandon _ _ _ was => cases hm
  | _ => exact False.elim hs

end Pool

namespace Scene

variable {l : Label} {t u : TaskId} {c c' : Scene} {w : Work} {p : Pool} {m : Move} {s st su : Stage}
  {seen : List Stride} {i : Nat}

/-- Calm turns leave an entry tracked whose worker somebody has or waits for. -/
theorem mem_tracked_of_calm (turn : Turn l.still u c c') (queued : t ∈ c.pool.queue (.worker i)) :
    i ∈ c'.pool.tracked ↔ i ∈ c.pool.tracked := by
  cases turn with
  | rise | carry | shift | count | drop | reply | reap => exact Iff.rfl
  | advance _ _ _ _ _ _ own => exact absurd own (by simp)
  | begin _ _ _ _ _ _ _ _ step => exact step.mem_tracked (Pool.isDead_of_mem_worker queued)

/-- A restart of the entry goes on, which is tracked unless it was removed in one of these strides; or
the restart has failed. -/
def Renewing (i : Nat) (seen : List Stride) (c : Scene) (s : Stage) : Prop :=
  (s.Renews i ∧ c.Grown i ∧ (i ∈ c.pool.tracked ↔ ∀ x ∈ seen, x.removes? ≠ some i)) ∨ s.GivesUp

namespace Renewing

theorem own {s' : Stage} (ht : c.stage? t = some s) (adv : Pool.Advance t c.pool s p (.wait s'))
    (h : Renewing i seen c s) :
    Renewing i (seen ++ [⟨t, s, .wait s'⟩]) (c.goOn t .operation p (.wait s')) s' := by
  rcases h with ⟨renews, grown, tracked⟩ | givesUp
  · refine (adv.renews renews).imp ?_ id
    rintro ⟨renews', kept, same⟩
    refine ⟨renews', grown.stride ht adv, ?_⟩
    show i ∈ p.tracked ↔ _
    rw [same, tracked, List.forall_mem_append, List.forall_mem_singleton, kept]
    simp
  · exact .inr (adv.givesUp givesUp)

theorem other (hu : c.stage? u = some su) (adv : Pool.Advance u c.pool su p m)
    (h : Renewing i seen c s) : Renewing i (seen ++ [⟨u, su, m⟩]) (c.goOn u w p m) s := by
  refine h.imp_left ?_
  rintro ⟨renews, grown, tracked⟩
  refine ⟨renews, grown.stride hu adv, ?_⟩
  show i ∈ p.tracked ↔ _
  rw [adv.mem_tracked (grown.unborn u su hu), tracked, List.forall_mem_append,
    List.forall_mem_singleton]

theorem calm (sound : c.Sound) (ht : c.stage? t = some s) (turn : Turn l.still u c c')
    (h : Renewing i seen c s) : Renewing i seen c' s := by
  refine h.imp_left ?_
  rintro ⟨renews, grown, tracked⟩
  -- the restart has the worker or waits for it, so no lookup takes the worker for dead
  have queued : t ∈ c.pool.queue (.worker i) :=
    (sound.orderly.mem t _).mpr (sound.locks_of_stage ht ▸ renews.worker)
  exact ⟨renews, grown.calm turn, (mem_tracked_of_calm turn queued).trans tracked⟩

end Renewing
end Scene

namespace Services

open Scene

variable {config : Config} {catalog : Catalog} {ls : List Label} {s s' s₁ : Services} {l : Label}
  {t i : Nat} {id : KernelId}

theorem renewing_run (sound : s.scene.Sound) (ht : t < s.nextTask)
    (h : ∃ st, s.tasks.get? t = some (.pool .operation st) ∧ Renewing i [] s.scene st)
    (run : s.run ls = some s') :
    s'.scene.Sound ∧ (s'.tasks.get? t = none ∨ ∃ st, s'.tasks.get? t = some (.pool .operation st) ∧
      Renewing i (s.gather strides ls) s'.scene st) := by
  have hkeep := operation_run (J := Renewing i) (P := fun _ => True) ?_
    (fun _ _ _ _ _ _ ht adv h => h.own ht adv) (fun _ _ _ _ _ _ _ _ _ _ _ hu adv h => h.other hu adv)
    (fun _ _ _ _ _ _ _ sound ht turn h => h.calm sound ht turn) (fun _ _ => trivial) sound ht h run
  · exact ⟨hkeep.1, hkeep.2.2⟩
  · intro seen s l st h
    refine h.imp_left ?_
    rintro ⟨renews, grown, tracked⟩
    refine ⟨renews, grown.stir, ?_⟩
    show i ∈ (s.stir l).pool.tracked ↔ _
    rw [(alike_stir s l).tracked]
    exact tracked

/-- A restart does not find its kernel alive and fails at once, or it finds it, marks it as restarting and
asks for its worker. -/
theorem restart_begins (step : s.step (.call (.pool (.restart id))) = some s₁) :
    (s₁.tasks.get? s.nextTask = none ∧
      s₁.replies.get? s.nextTask = some (.pool (.failed (.kernelNotFound id))) ∧
      (s.pool.find? id = none ∨ ∃ i, s.pool.find? id = some i ∧ s.pool.isDead i = true)) ∨
    ∃ i, s.pool.find? id = some i ∧ s.pool.isDead i = false ∧
      s₁.pool = (s.pool.setStatus i .restarting).requestWorker s.nextTask i ∧
      s₁.tasks.get? s.nextTask = some (.pool .operation (.restartLock i)) := by
  obtain rfl := Option.some.inj step
  simp only [start, startPool, Pool.start, Pool.withLive]
  split
  · next unfound => exact .inl ⟨Table.get?_erase_self .., Table.get?_set_self .., .inl unfound⟩
  · next i found =>
    split
    · next dead =>
      refine .inl ⟨(reap_of_lt [i] (Nat.lt_succ_self _)).1.trans ?_,
        (reap_of_lt [i] (Nat.lt_succ_self _)).2.trans ?_, .inr ⟨i, found, dead⟩⟩
      · exact Table.get?_erase_self ..
      · exact Table.get?_set_self ..
    · next alive => exact .inr ⟨i, found, by simpa using alive, rfl, Table.get?_set_self ..⟩

theorem renewing_of_begins (sound : s.scene.Sound)
    (step : s.step (.call (.pool (.restart id))) = some s₁) :
    s₁.tasks.get? s.nextTask = none ∨
      ∃ i, s.pool.find? id = some i ∧ ∃ st, s₁.tasks.get? s.nextTask = some (.pool .operation st) ∧
        Renewing i [] s₁.scene st := by
  refine (restart_begins step).imp And.left ?_
  rintro ⟨i, found, -, hpool, was⟩
  have there : i ∈ s₁.scene.pool.tracked := by
    show i ∈ s₁.pool.tracked
    rw [hpool]
    exact (Pool.find?_eq_some found).1
  refine ⟨i, found, _, was, .inl ⟨rfl, .of_tracked (sound_step sound step) there, ?_⟩⟩
  simp [there]

/-- The lookup of a kernel that is tracked and whose worker is not dead returns its record. -/
theorem get_of_tracked {k : Kernel} (named : s.scene.Named) (sound : s.scene.Sound)
    (there : i ∈ s.pool.tracked) (alive : s.pool.isDead i = false) (record : s.pool.record? i = some k)
    (u : TaskId) : s.pool.start s.catalog u (.get (.fresh i)) = ⟨s.pool, [], .finish (.kernel k)⟩ := by
  have found : s.pool.find? (.fresh i) = some i := named.find? sound there
  simp [Pool.start, Pool.withLive, found, alive, record]

/-- A restart that returns a kernel has renewed the one that it found when it began. -/
theorem renewed_of_returns {during : List Label} {s₂ s₃ : Services} {k : Kernel}
    (sound : s.scene.Sound) (call : s.step (.call (.pool (.restart id))) = some s₁)
    (run : s₁.run during = some s₂) (waits : (s₂.tasks.get? s.nextTask).isSome)
    (step : s₂.step l = some s₃) (returns : s₃.replies.get? s.nextTask = some (.pool (.kernel k))) :
    ∃ i r, s.pool.find? id = some i ∧ s₂.pool.record? i = some r ∧
      k = { r with status := .idle, executionCount := 0 } ∧
      s₃.pool.record? i = some { k with lastActivity := s₃.pool.now } ∧
      (i ∈ s₃.pool.tracked ↔ ∀ x ∈ s₁.gather strides during, x.removes? ≠ some i) := by
  have sound₁ := sound_step sound call
  have ht : s.nextTask < s₁.nextTask := nextTask_le_step sound call
  rcases renewing_of_begins sound call with ended | ⟨i, found, h⟩
  · exact absurd waits (by simp [ended_run sound₁ ht ended run])
  obtain ⟨sound₂, ended | ⟨st, was, renewing⟩⟩ := renewing_run sound₁ ht h run
  · exact absurd waits (by simp [ended])
  have adv := advance_of_returns sound₂ was step returns
  rcases renewing with ⟨renews, grown, tracked⟩ | givesUp
  · obtain ⟨same, ⟨r, old, rfl⟩, kept⟩ := adv.renewed rfl renews
    exact ⟨i, r, found, old, rfl, kept, same ▸ tracked⟩
  · exact absurd rfl (adv.gave_up givesUp k)

/-- A restart that returns a kernel returns the one that was named, idle and with a count of zero. The
kernel is tracked unless it was removed since the restart began, and if it is, and its worker has not
died, a lookup returns it. Only the time of the last activity is then another: what the restart returns
is the record from before its end was counted as an activity. -/
theorem restart_returns (config : Config) (catalog : Catalog) (before during : List Label)
    (s s₁ s₂ s₃ : Services) (id : KernelId) (l : Label) (k : Kernel)
    (reached : (init config catalog).run before = some s)
    (call : s.step (.call (.pool (.restart id))) = some s₁) (run : s₁.run during = some s₂)
    (waits : (s₂.tasks.get? s.nextTask).isSome) (step : s₂.step l = some s₃)
    (returns : s₃.replies.get? s.nextTask = some (.pool (.kernel k))) :
    k.id = id ∧ k.status = .idle ∧ k.executionCount = 0 ∧
    ∃ i r, s.pool.find? id = some i ∧ s₂.pool.record? i = some r ∧
      k = { r with status := .idle, executionCount := 0 } ∧
      s₃.pool.record? i = some { k with lastActivity := s₃.pool.now } ∧
      (i ∈ s₃.pool.tracked ↔ ∀ x ∈ s₁.gather strides during, x.removes? ≠ some i) ∧
      (i ∈ s₃.pool.tracked → s₃.pool.isDead i = false →
        ∀ u, s₃.pool.start s₃.catalog u (.get id) =
          ⟨s₃.pool, [], .finish (.kernel { k with lastActivity := s₃.pool.now })⟩) := by
  have sound := sound_run (sound_init config catalog) reached
  obtain ⟨i, r, found, old, hk, kept, tracked⟩ :=
    renewed_of_returns sound call run waits step returns
  have all : (init config catalog).run
      (before ++ .call (.pool (.restart id)) :: (during ++ [l])) = some s₃ := by
    rw [run_append, reached, Option.bind_some, run_cons call, run_append, run, Option.bind_some,
      run_cons step]
    rfl
  have named := named_run all
  have hid : id = .fresh i := (named_run reached).of_find? sound found
  refine ⟨(named.of_record? kept).trans hid.symm, hk ▸ rfl, hk ▸ rfl, i, r, found, old, hk, kept,
    tracked, ?_⟩
  intro there alive u
  rw [hid]
  exact get_of_tracked named (sound_run (sound_init config catalog) all) there alive kept u

/-- A restart that nobody disturbs returns a kernel that the next lookup returns. The restart began when
the kernel was last active, and takes some time. -/
theorem restart_returns_undisturbed :
    ∃ s s₁ s₂ s₃ k, (init { } [.python3]).run booting = some s ∧
      s.step (.call (.pool (.restart (.fresh 0)))) = some s₁ ∧
      s₁.run [.resume 1, .answer 1 .ok, .pass 50] = some s₂ ∧ s₂.step (.answer 1 .ok) = some s₃ ∧
      s₃.replies.get? 1 = some (.pool (.kernel k)) ∧ k.id = .fresh 0 ∧ k.status = .idle ∧
      k.executionCount = 0 ∧ k.lastActivity = 0 ∧
      ∀ u, s₃.pool.start s₃.catalog u (.get (.fresh 0)) =
        ⟨s₃.pool, [], .finish (.kernel { k with lastActivity := 50 })⟩ := by
  have h : ((init { } [.python3]).run booting).bind (fun s =>
      (s.step (.call (.pool (.restart (.fresh 0))))).bind fun s₁ =>
        (s₁.run [.resume 1, .answer 1 .ok, .pass 50]).bind fun s₂ =>
          (s₂.step (.answer 1 .ok)).map fun s₃ =>
            ((s.nextTask, s.pool.tracked, (s₂.tasks.get? 1).isSome), s₃.replies.get? 1,
              s₃.pool.tracked, s₃.pool.isDead 0, s₃.pool.now)) =
      some ((1, [0], true), some (.pool (.kernel ⟨.fresh 0, "python3", .idle, none, 0, 0, 0⟩)), [0],
        false, 50) := by
    decide
  obtain ⟨s, reached, h⟩ := Option.bind_eq_some_iff.mp h
  obtain ⟨s₁, call, h⟩ := Option.bind_eq_some_iff.mp h
  obtain ⟨s₂, run, h⟩ := Option.bind_eq_some_iff.mp h
  obtain ⟨s₃, step, h⟩ := Option.map_eq_some_iff.mp h
  simp only [Prod.mk.injEq] at h
  obtain ⟨⟨next, tracked, waits⟩, returns, tracked₃, alive, now⟩ := h
  rw [← next] at waits returns
  obtain ⟨hid, idle, count, i, r, found, -, -, -, -, get⟩ :=
    restart_returns { } [.python3] booting _ s s₁ s₂ s₃ (.fresh 0) _ _ reached call run waits step
      returns
  have there : i ∈ [0] := tracked ▸ (Pool.find?_eq_some found).1
  obtain rfl := List.mem_singleton.mp there
  rw [now] at get
  exact ⟨s, s₁, s₂, s₃, _, reached, call, run, step, next ▸ returns, hid, idle, count, rfl,
    get (by simp [tracked₃]) alive⟩

/-- While a restart is at its worker, a caller has the kernel shut down. -/
def removedWhileRestarting : List Label :=
  booting ++ [.call (.pool (.restart (.fresh 0))), .resume 1, .call (.pool (.shutdown (.fresh 0))),
    .resume 2, .resume 2, .answer 1 .ok]

/-- The restart returns the kernel, which is gone. -/
theorem restart_of_removed :
    ∃ s₂ s₃ k, (init { } [.python3]).run removedWhileRestarting = some s₂ ∧
      s₂.tasks.get? 1 = some (.pool .operation (.restartReadying 0)) ∧
      s₂.step (.answer 1 .ok) = some s₃ ∧ s₃.replies.get? 1 = some (.pool (.kernel k)) ∧
      s₃.pool.tracked = [] ∧
      (s₃.pool.start s₃.catalog s₃.nextTask (.get (.fresh 0))).move =
        .finish (.failed (.kernelNotFound (.fresh 0))) := by
  have h : ((init { } [.python3]).run removedWhileRestarting).bind (fun s₂ =>
      (s₂.step (.answer 1 .ok)).map fun s₃ =>
        (s₂.tasks.get? 1, s₃.replies.get? 1, s₃.pool.tracked,
          (s₃.pool.start s₃.catalog s₃.nextTask (.get (.fresh 0))).move)) =
      some (some (.pool .operation (.restartReadying 0)),
        some (.pool (.kernel ⟨.fresh 0, "python3", .idle, none, 0, 0, 0⟩)), [],
        .finish (.failed (.kernelNotFound (.fresh 0)))) := by
    decide
  obtain ⟨s₂, run, h⟩ := Option.bind_eq_some_iff.mp h
  obtain ⟨s₃, step, h⟩ := Option.map_eq_some_iff.mp h
  obtain ⟨waits, h⟩ := Prod.mk.inj h
  obtain ⟨returns, h⟩ := Prod.mk.inj h
  obtain ⟨tracked, lookup⟩ := Prod.mk.inj h
  exact ⟨s₂, s₃, _, run, waits, step, returns, tracked, lookup⟩

end Services
end NotebookKernels
