import NotebookKernels.Proofs.Service.Custody
import NotebookKernels.Proofs.Service.Execution

/- Which kernels are tracked, in which order, and what becomes of those who look for the others.

   A step removes kernels, or it inserts one as the last that was never tracked before
   (`tracked_of_step`). So whatever the callers, the workers and the order of the steps
   (`records_once`):
     1. no kernel is inserted twice, and the tracked ones stand in the order of their insertion;
     2. a kernel that was removed stays away, and no call finds it any more;
     3. whoever was queued for its execution slot is turned away, with nothing submitted.
   The third is a matter of looking again: the slot of a removed kernel is still handed on, and each
   task that gets it finds the kernel gone (`turnedAway_of_own`). -/
namespace NotebookKernels

namespace Stage

/-- The task waits for the execution slot of the entry, or for its worker on the way to the slot. -/
def Queues (i : Nat) : Stage → Prop
  | .acquireLock j | .acquireSlot j => j = i
  | _ => False

end Stage

/-- What a task answers that gets no slot. -/
def Work.refusal (f : Failure) (now : Nat) : Work → Reply
  | .execution x => .result (x.result.fail f now) x.sink
  | _ => .pool (.failed f)

/-- The identifier by which a call of the pool looks for a kernel that is alive. -/
def PoolCall.lookup? : PoolCall → Option KernelId
  | .get id | .interrupt id | .restart id | .channel id | .acquire id => some id
  | _ => none

namespace Call

/-- The identifier by which a call looks for a kernel that is alive. -/
def lookup? : Call → Option KernelId
  | .pool c => c.lookup?
  | .introspect id => some id
  | .execute request _ => some request.kernel
  | _ => none

/-- What the task of a call is for, if the call begins now. -/
def work (s : Services) : Call → Work
  | .introspect _ => .introspection
  | .execute request sink =>
    .execution ⟨request, sink,
      .start (.fresh s.nextExecution) request.kernel request.cell s.pool.now, false⟩
  | _ => .operation

end Call

namespace Pool

variable {p p' : Pool} {t : TaskId} {s : Stage} {m : Move} {c : PoolCall} {dead : List Nat}
  {id : KernelId}

theorem tracked_eq_filter (same : p'.tracked = p.tracked) :
    p'.tracked = p.tracked.filter (· ∉ []) :=
  same.trans (List.filter_eq_self.mpr fun _ _ => rfl).symm

theorem tracked_discard (dead : List Nat) :
    (p.discard dead).tracked = p.tracked.filter (· ∉ dead) := by rw [discard_eq]

/-- A step removes entries, or it inserts the task's own as the last. -/
theorem Advance.tracked_cases (h : Advance t p s p' m) :
    (∃ out : List Nat, p'.tracked = p.tracked.filter (· ∉ out)) ∨
      ∃ j, s.newborn? = some j ∧ p'.tracked = p.tracked ++ [j] := by
  cases h with
  | insert j => exact .inr ⟨j, rfl, rfl⟩
  | forget e j | close e j | evict i ticket j | abandon s j | abandoned j =>
    exact .inl ⟨[j], tracked_discard [j]⟩
  | _ => exact .inl ⟨[], tracked_eq_filter rfl⟩

theorem Opening.tracked_eq (h : Opening t p c p' dead m) :
    p'.tracked = p.tracked.filter (· ∉ dead) := by
  cases h with
  | discard => exact tracked_discard dead
  | _ => exact tracked_eq_filter rfl

theorem holdsWorker_of_head {i : Nat} (h : (p.queue (.worker i)).head? = some t) :
    p.holdsWorker t i = true := by
  obtain ⟨e, he⟩ := has_iff_entry?.mp (has_of_mem_worker (List.mem_of_mem_head? h))
  have hl : e.workerLock.queue.head? = some t := by simpa [queue, he] using h
  show (p.entry? i).any (·.workerLock.heldBy t) = true
  rw [he]
  exact decide_eq_true hl

theorem holdsSlot_of_head {i : Nat} (h : (p.queue (.slot i)).head? = some t) :
    p.holdsSlot t i = true := by
  obtain ⟨e, he⟩ := has_iff_entry?.mp (has_of_mem_slot (List.mem_of_mem_head? h))
  have hl : e.slotLock.queue.head? = some t := by simpa [queue, he] using h
  show (p.entry? i).any (·.slotLock.heldBy t) = true
  rw [he]
  exact decide_eq_true hl

/-- The records of the tracked kernels carry their identifiers. -/
theorem ids_records (named : ∀ i ∈ p.tracked, p.id? i = some (.fresh i)) :
    p.records.map (·.id) = p.tracked.map .fresh := by
  have key : ∀ is : List Nat, (∀ i ∈ is, p.id? i = some (.fresh i)) →
      (is.filterMap p.record?).map (·.id) = is.map .fresh := by
    intro is his
    induction is with
    | nil => rfl
    | cons i is ih =>
      have hi := his i (List.mem_cons_self ..)
      obtain ⟨e, he, hid⟩ := Option.map_eq_some_iff.mp hi
      have hr : p.record? i = some e.record := by rw [record?, he, Option.map_some]
      rw [List.filterMap_cons_some hr, List.map_cons, List.map_cons, hid]
      rw [ih fun j hj => his j (List.mem_cons_of_mem _ hj)]
  exact key p.tracked named

/-- A call that does not find the kernel it looks for fails at once, and changes nothing. -/
theorem start_of_find?_eq_none {catalog : Catalog} (h : c.lookup? = some id)
    (gone : p.find? id = none) :
    p.start catalog t c = ⟨p, [], .finish (.failed (.kernelNotFound id))⟩ := by
  cases c with
  | get | interrupt | restart | channel | acquire =>
    obtain rfl := Option.some.inj h
    simp only [start, withLive, gone]
  | create | list | updateStatus | shutdown | shutdownAll | pruneDead | removeIfDead => cases h

end Pool

namespace Scene

variable {c : Scene} {i : Nat}

/-- A kernel that is gone is not found. -/
theorem Named.find?_eq_none (h : c.Named) (sound : c.Sound) (gone : i ∉ c.pool.tracked) :
    c.pool.find? (.fresh i) = none := by
  cases found : c.pool.find? (.fresh i) with
  | none => rfl
  | some j =>
    obtain rfl := KernelId.fresh_injective (h.of_find? sound found)
    exact absurd (Pool.find?_eq_some found).1 gone

end Scene

namespace Services

open Scene

variable {config : Config} {catalog : Catalog} {ls before during : List Label}
  {s s' d : Services} {l : Label} {t u : TaskId} {i : Nat} {w : Work} {f : Failure}

/-! ## Insertions -/

/-- The entries that a step inserts: they are tracked after it, and were not before. -/
def inserted (s : Services) (l : Label) : List Nat :=
  (s.step l).elim [] fun s' => s'.pool.tracked.filter (· ∉ s.pool.tracked)

theorem inserted_eq (step : s.step l = some s') :
    s.inserted l = s'.pool.tracked.filter (· ∉ s.pool.tracked) := by
  rw [inserted, step, Option.elim_some]

theorem mem_inserted (step : s.step l = some s') :
    i ∈ s.inserted l ↔ i ∈ s'.pool.tracked ∧ i ∉ s.pool.tracked := by
  simp [inserted_eq step]

/-- A step removes kernels, or it inserts the one that some task is to insert, as the last. -/
theorem tracked_of_step (fresh : s.scene.Fresh) (step : s.step l = some s') :
    (∃ out : List Nat, s'.pool.tracked = s.pool.tracked.filter (· ∉ out)) ∨
      ∃ t j, s.scene.newborn? t = some j ∧ s'.pool.tracked = s.pool.tracked ++ [j] := by
  cases deed_of_step fresh step with
  | calm shown same => exact .inl ⟨[], Pool.tracked_eq_filter same.tracked⟩
  | stride t w st p m own was adv shown same =>
    rw [same.tracked]
    apply adv.tracked_cases.imp_right
    rintro ⟨j, hj, htracked⟩
    have hst : s.scene.stage? t = some st := Sound.stage_of_act was
    exact ⟨t, j, by simp [newborn?, hst, hj], htracked⟩
  | begin t call p q dead m n shown before opening after =>
    exact .inl ⟨dead, by rw [after.tracked, opening.tracked_eq, before.tracked]⟩

/-- Only an entry that was never tracked is inserted. -/
theorem not_grown_of_mem_inserted (sound : s.scene.Sound) (step : s.step l = some s')
    (h : i ∈ s.inserted l) : ¬s.scene.Grown i := by
  intro grown
  obtain ⟨there, gone⟩ := (mem_inserted step).mp h
  rcases tracked_of_step sound.fresh step with ⟨out, hout⟩ | ⟨t, j, newborn, hj⟩
  · rw [hout] at there
    exact gone (List.mem_filter.mp there).1
  · rw [hj] at there
    rcases List.mem_append.mp there with there | there
    · exact gone there
    · obtain rfl := List.mem_singleton.mp there
      obtain ⟨st, hst, hn⟩ := Option.bind_eq_some_iff.mp newborn
      exact grown.unborn t st hst hn

/-- The tracked entries after a step are those that were tracked or are inserted, in this order. -/
theorem tracked_eq_of_step (sound : s.scene.Sound) (step : s.step l = some s') :
    s'.pool.tracked = (s.pool.tracked ++ s.inserted l).filter (· ∈ s'.pool.tracked) := by
  rw [inserted_eq step]
  rcases tracked_of_step sound.fresh step with ⟨out, hout⟩ | ⟨t, j, newborn, hj⟩
  · have none : (s.pool.tracked.filter (· ∉ out)).filter (· ∉ s.pool.tracked) = [] := by
      simp +contextual [List.filter_eq_nil_iff]
    rw [hout, none, List.append_nil]
    apply List.filter_congr
    simp +contextual
  · have new : j ∉ s.pool.tracked := sound.young t j newborn
    have one : (s.pool.tracked ++ [j]).filter (· ∉ s.pool.tracked) = [j] := by
      simp [List.filter_append, List.filter_eq_nil_iff, new]
    rw [hj, one]
    exact (List.filter_eq_self.mpr fun k hk => decide_eq_true hk).symm

/-- These entries were inserted, each once and in this order, and those of them that were not removed
are tracked. -/
structure Recorded (ins : List Nat) (s : Services) : Prop where
  grown : ∀ i ∈ ins, s.scene.Grown i
  distinct : ins.Nodup
  order : s.pool.tracked = ins.filter (· ∈ s.pool.tracked)

namespace Recorded

variable {ins : List Nat}

theorem next (h : Recorded ins s) (sound : s.scene.Sound) (nodup : s'.pool.tracked.Nodup)
    (step : s.step l = some s') : Recorded (ins ++ s.inserted l) s' where
  grown i hi := by
    rcases List.mem_append.mp hi with hi | hi
    · exact .step sound step (h.grown i hi)
    · exact .of_tracked (sound_step sound step) ((mem_inserted step).mp hi).1
  distinct := by
    refine List.nodup_append.mpr ⟨h.distinct, ?_, ?_⟩
    · rw [inserted_eq step]
      exact nodup.filter _
    · rintro i hi j hj rfl
      exact not_grown_of_mem_inserted sound step hj (h.grown i hi)
  order := by
    -- what was inserted before and is tracked now was tracked in between
    have old : ins.filter (fun i => i ∈ s.pool.tracked ∧ i ∈ s'.pool.tracked) =
        ins.filter (· ∈ s'.pool.tracked) := by
      apply List.filter_congr
      intro i hi
      apply decide_eq_decide.mpr
      refine ⟨And.right, fun there => ⟨?_, there⟩⟩
      by_contra gone
      exact not_grown_of_mem_inserted sound step ((mem_inserted step).mpr ⟨there, gone⟩) (h.grown i hi)
    calc s'.pool.tracked
        = (s.pool.tracked ++ s.inserted l).filter (· ∈ s'.pool.tracked) :=
          tracked_eq_of_step sound step
      _ = (ins.filter (· ∈ s.pool.tracked)).filter (· ∈ s'.pool.tracked) ++
            (s.inserted l).filter (· ∈ s'.pool.tracked) := by rw [List.filter_append, ← h.order]
      _ = (ins ++ s.inserted l).filter (· ∈ s'.pool.tracked) := by
          rw [List.filter_append, List.filter_filter, ← old]
          simp [Bool.and_comm]

end Recorded

theorem recorded_run (run : (init config catalog).run ls = some s) :
    Recorded ((init config catalog).gather inserted ls) s := by
  refine run_induction (I := fun ls s => Recorded ((init config catalog).gather inserted ls) s)
    ⟨by simp [gather], List.nodup_nil, rfl⟩ ?_ run
  intro before l d d' reached step h
  have run' : (init config catalog).run (before ++ [l]) = some d' := by
    rw [run_append, reached, Option.bind_some, run_cons step, Services.run]
  rw [gather_append_singleton reached]
  exact h.next (sound_run (sound_init config catalog) reached) (within_run run').2.distinct step

/-- A kernel that was removed stays away. -/
theorem gone_of_step (sound : s.scene.Sound) (grown : s.scene.Grown i) (gone : i ∉ s.pool.tracked)
    (step : s.step l = some s') : i ∉ s'.pool.tracked := by
  intro there
  exact not_grown_of_mem_inserted sound step ((mem_inserted step).mpr ⟨there, gone⟩) grown

theorem gone_run (sound : s.scene.Sound) (grown : s.scene.Grown i) (gone : i ∉ s.pool.tracked)
    (run : s.run ls = some s') : i ∉ s'.pool.tracked := by
  have hkeep := run_keeps (P := fun _ => True)
    (I := fun s => s.scene.Sound ∧ s.scene.Grown i ∧ i ∉ s.pool.tracked) ?_ (fun _ _ => trivial)
    ⟨sound, grown, gone⟩ run
  · exact hkeep.2.2
  · rintro s l s' - ⟨sound, grown, gone⟩ step
    exact ⟨sound_step sound step, .step sound step grown, gone_of_step sound grown gone step⟩

/-! ## Calls that fail -/

/-- A task whose operation of the pool fails gets no slot, and has ended. -/
theorem move_failed (w : Work) (f : Failure) :
    (s.move t w (.finish (.failed f))).tasks.get? t = none ∧
      (s.move t w (.finish (.failed f))).replies.get? t = some (w.refusal f s.pool.now) := by
  cases w with
  | execution x => exact ⟨Table.get?_erase_self .., Table.get?_set_self ..⟩
  | operation | introspection | listing | stream | submission =>
    exact ⟨Table.get?_erase_self .., Table.get?_set_self ..⟩

theorem startPool_failed {c : PoolCall} {p : Pool}
    (h : s.pool.start s.catalog t c = ⟨p, [], .finish (.failed f)⟩) :
    (s.startPool t w c).tasks.get? t = none ∧
      (s.startPool t w c).replies.get? t = some (w.refusal f p.now) := by
  rw [startPool, h]
  exact move_failed (s := { s with pool := p }) w f

/-- A call that looks for a kernel that is gone fails at once. -/
theorem lookup_of_gone {c : Call} (named : s.scene.Named) (sound : s.scene.Sound)
    (gone : i ∉ s.pool.tracked) (h : c.lookup? = some (.fresh i)) :
    ∃ s', s.step (.call c) = some s' ∧ s'.tasks.get? s.nextTask = none ∧
      s'.replies.get? s.nextTask =
        some ((c.work s).refusal (.kernelNotFound (.fresh i)) s.pool.now) := by
  have unfound : s.pool.find? (.fresh i) = none := named.find?_eq_none sound gone
  have fails : ∀ {c : PoolCall}, c.lookup? = some (.fresh i) → ∀ t,
      s.pool.start s.catalog t c = ⟨s.pool, [], .finish (.failed (.kernelNotFound (.fresh i)))⟩ :=
    fun hc t => Pool.start_of_find?_eq_none hc unfound
  refine ⟨_, rfl, ?_⟩
  cases c with
  | pool c => exact startPool_failed (fails h _)
  | introspect id =>
    obtain rfl := Option.some.inj h
    exact startPool_failed (fails (c := .acquire (.fresh i)) rfl _)
  | execute request sink => exact startPool_failed (fails (c := .acquire request.kernel) h _)
  | record | count | release | result | submit | stream | list | query => cases h

/-! ## Tasks in a queue -/

/-- What became of a task that was queued for the slot of a kernel that is gone: it waits on, and
nothing has passed; or it was refused, and nothing else has passed. -/
inductive TurnedAway (u : TaskId) (w : Work) (i : Nat) (seen : List Exchange) (s : Services) : Prop
  | waiting (st : Stage) (was : s.tasks.get? u = some (.pool w st)) (queued : st.Queues i)
      (none : seen = [])
  | refused (now : Nat) (ended : s.tasks.get? u = none)
      (reply : s.replies.get? u = some (w.refusal (.kernelNotFound (.fresh i)) now))
      (only : seen = [.refused (.kernelNotFound (.fresh i))])

namespace TurnedAway

variable {seen : List Exchange}

/-- The task goes on to the slot, or it has the slot and is refused. -/
theorem own {st : Stage} (named : s.scene.Named) (grown : s.scene.Grown i)
    (gone : i ∉ s.pool.tracked) (own : l.task? = some u) (was : s.tasks.get? u = some (.pool w st))
    (queued : st.Queues i) (step : s.step l = some s') : TurnedAway u w i (s.exchanges u l) s' := by
  obtain ⟨p, m, adv, rfl, htold, -⟩ := move_of_step own was step
  rw [exchanges_of_step step, htold, was]
  cases adv with
  | queue j held =>
    obtain rfl : j = i := queued
    have after : (({ s with pool := (s.pool.releaseWorker j).requestSlot u j } : Services).move u w
        (.wait (.acquireSlot j))).tasks.get? u = some (.pool w (.acquireSlot j)) :=
      Table.get?_set_self ..
    refine .waiting _ after rfl ?_
    rw [after]
    rfl
  | grant j held there =>
    obtain rfl : j = i := queued
    exact absurd there gone
  | refuse j held absent =>
    obtain rfl : j = i := queued
    have hid : s.pool.idOf j = .fresh j := named.idOf grown.has
    rw [hid]
    obtain ⟨ended, reply⟩ := move_failed (s := { s with pool := s.pool.releaseSlot j }) (t := u) w
      (.kernelNotFound (.fresh j))
    refine .refused _ ended reply ?_
    rw [ended]
    rfl
  | abandon _ _ _ was | restartFailed _ _ _ was =>
    obtain rfl | rfl := was <;> exact False.elim queued
  | _ => exact False.elim queued

theorem next (h : TurnedAway u w i seen s) (sound : s.scene.Sound) (named : s.scene.Named)
    (grown : s.scene.Grown i) (gone : i ∉ s.pool.tracked) (hu : u < s.nextTask)
    (step : s.step l = some s') : TurnedAway u w i (seen ++ s.exchanges u l) s' := by
  by_cases hl : l.task? = some u
  · cases h with
    | waiting st was queued none =>
      rw [none, List.nil_append]
      exact own named grown gone hl was queued step
    | refused now ended =>
      obtain ⟨a, ha, -⟩ := activity_of_step hl step
      exact absurd (ended.symm.trans ha) (by simp)
  · -- the steps of others are nothing to the task
    obtain ⟨task, reply⟩ := frame_of_step sound hu hl step
    rw [exchanges_of_frame hu hl step task, List.append_nil]
    cases h with
    | waiting st was queued none => exact .waiting st (task.trans was) queued none
    | refused now ended answered only => exact .refused now (task.trans ended) (reply.trans answered) only

end TurnedAway

/-- A task that is queued for the slot goes on when the lock that it waits for is its own. -/
theorem resume_of_first {st : Stage} {n : LockName} (was : s.tasks.get? u = some (.pool w st))
    (queued : st.Queues i) (awaits : st.awaits = some n) (first : (s.pool.queue n).head? = some u) :
    (s.step (.resume u)).isSome := by
  show ((s.tasks.get? u).bind (s.resume u)).isSome
  rw [was, Option.bind_some, resume, Option.isSome_map]
  cases st with
  | acquireLock j =>
    obtain rfl := Option.some.inj awaits
    simp [Pool.step, Pool.holdsWorker_of_head first]
  | acquireSlot j =>
    obtain rfl := Option.some.inj awaits
    simp only [Pool.step, Pool.holdsSlot_of_head first, if_true]
    split <;> rfl
  | _ => exact False.elim queued

/-- A task that is queued for the slot of a kernel that is gone is turned away. -/
theorem turnedAway_run {st : Stage} (reached : (init config catalog).run before = some d)
    (there : i ∈ (init config catalog).gather inserted before) (gone : i ∉ d.pool.tracked)
    (was : d.tasks.get? u = some (.pool w st)) (queued : st.Queues i)
    (run : d.run during = some s) :
    TurnedAway u w i (d.gather (exchanges u) during) s := by
  have sound := sound_run (sound_init config catalog) reached
  have grown := (recorded_run reached).grown i there
  have hkeep := run_gathers (f := exchanges u) (P := fun _ => True) (I := fun seen s =>
    (s.scene.Sound ∧ s.scene.Named ∧ s.scene.Grown i) ∧ i ∉ s.pool.tracked ∧ u < s.nextTask ∧
      TurnedAway u w i seen s) ?_ (fun _ _ => trivial) []
    ⟨⟨sound, named_run reached, grown⟩, gone, sound.fresh.lt_of_act was, .waiting st was queued rfl⟩
    run
  · exact hkeep.2.2.2
  · rintro seen s l s' - ⟨⟨sound, named, grown⟩, gone, hu, h⟩ step
    have hle := Nat.le_trans (nextTask_le_stir s l) (nextTask_le_step sound step)
    exact ⟨⟨sound_step sound step, named_step named sound step, .step sound step grown⟩,
      gone_of_step sound grown gone step, Nat.lt_of_lt_of_le hu hle,
      h.next sound named grown gone hu step⟩

/-! ## Lists -/

/-- A list inserts nothing, and returns the kernels that are tracked after it, in their order. -/
theorem list_returns (named : s.scene.Named) (sound : s.scene.Sound) :
    ∃ s' ks, s.step (.call (.pool .list)) = some s' ∧
      s'.replies.get? s.nextTask = some (.pool (.kernels ks)) ∧
      ks.map (·.id) = s'.pool.tracked.map .fresh ∧ s.inserted (.call (.pool .list)) = [] := by
  let p := s.pool.discard (s.pool.tracked.filter s.pool.isDead)
  let d : Services :=
    ({ s with pool := p, nextTask := s.nextTask + 1 } : Services).finish s.nextTask
      (.pool (.kernels p.records))
  have step : s.step (.call (.pool .list)) = some (d.reap (s.pool.tracked.filter s.pool.isDead)) := rfl
  have tracked : (d.reap (s.pool.tracked.filter s.pool.isDead)).pool.tracked = p.tracked := by
    rw [pool_reap]
    rfl
  have old : ∀ i ∈ p.tracked, i ∈ s.pool.tracked :=
    fun i hi => (Pool.mem_tracked_discard.mp hi).1
  refine ⟨_, p.records, step, ?_, ?_, ?_⟩
  · rw [(reap_of_lt _ (Nat.lt_succ_self s.nextTask)).2]
    exact Table.get?_set_self ..
  · rw [tracked]
    apply Pool.ids_records
    intro i hi
    rw [Pool.id?_discard]
    exact named i (sound.there i (old i hi))
  · apply List.eq_nil_iff_forall_not_mem.mpr
    intro i hi
    obtain ⟨there, gone⟩ := (mem_inserted step).mp hi
    exact gone (old i (tracked ▸ there))

/-- No kernel is inserted twice, and at any time the tracked ones stand in the order of their insertion,
which is the order in which a list returns them. A kernel that was inserted and is gone stays away, and
every call that looks for it fails at once; whoever was queued for its slot, or is, is refused, with
nothing else passing, and does not wait any longer than for the lock. -/
theorem records_once (config : Config) (catalog : Catalog) (ls : List Label) (s : Services)
    (run : (init config catalog).run ls = some s) :
    ((init config catalog).gather inserted ls).Nodup ∧
    (∀ i ∈ (init config catalog).gather inserted ls, s.pool.idOf i = .fresh i) ∧
    s.pool.tracked = ((init config catalog).gather inserted ls).filter (· ∈ s.pool.tracked) ∧
    (∃ s' ks, s.step (.call (.pool .list)) = some s' ∧
      s'.replies.get? s.nextTask = some (.pool (.kernels ks)) ∧
      ks.map (·.id) = (((init config catalog).gather inserted ls).filter
        (· ∈ s'.pool.tracked)).map .fresh ∧
      (ks.map (·.id)).Nodup) ∧
    ∀ before during d i, ls = before ++ during → (init config catalog).run before = some d →
      i ∈ (init config catalog).gather inserted before → i ∉ d.pool.tracked →
      i ∉ s.pool.tracked ∧
      (∀ c : Call, c.lookup? = some (.fresh i) → ∃ s', s.step (.call c) = some s' ∧
        s'.tasks.get? s.nextTask = none ∧
        s'.replies.get? s.nextTask =
          some ((c.work s).refusal (.kernelNotFound (.fresh i)) s.pool.now)) ∧
      ∀ u w st, d.tasks.get? u = some (.pool w st) → st.Queues i →
        TurnedAway u w i (d.gather (exchanges u) during) s ∧
        ∀ st' n, s.tasks.get? u = some (.pool w st') → st'.Queues i → st'.awaits = some n →
          (s.pool.queue n).head? = some u → (s.step (.resume u)).isSome := by
  have sound := sound_run (sound_init config catalog) run
  have named := named_run run
  have recorded := recorded_run run
  refine ⟨recorded.distinct, fun i hi => named.idOf (recorded.grown i hi).has, recorded.order, ?_, ?_⟩
  · -- the list is a step of its own: what it returns is in order after the run with it
    obtain ⟨s', ks, step, reply, ids, nothing⟩ := list_returns named sound
    have run' : (init config catalog).run (ls ++ [.call (.pool .list)]) = some s' := by
      rw [run_append, run, Option.bind_some, run_cons step, Services.run]
    have order := (recorded_run run').order
    rw [gather_append_singleton run, nothing, List.append_nil] at order
    refine ⟨s', ks, step, reply, ids.trans (congrArg _ order), ?_⟩
    rw [ids]
    exact List.Pairwise.map _ (fun _ _ hne h => hne (KernelId.fresh_injective h))
      (within_run run').2.distinct
  · rintro before during d i rfl reached there gone
    rw [run_append, reached, Option.bind_some] at run
    have grown := (recorded_run reached).grown i there
    have gone' := gone_run (sound_run (sound_init config catalog) reached) grown gone run
    refine ⟨gone', fun c hc => lookup_of_gone named sound gone' hc, ?_⟩
    intro u w st was queued
    refine ⟨turnedAway_run reached there gone was queued run, ?_⟩
    intro st' n was' queued' awaits first
    exact resume_of_first was' queued' awaits first

/-- An execution is queued for the slot of a kernel when the kernel is shut down. -/
def queuedAtShutdown : List Label :=
  booting ++ [.call (.pool (.acquire (.fresh 0))), .resume 1, .resume 1,
    .call (.execute printer.request printer.sink), .resume 2, .call (.pool (.shutdown (.fresh 0))),
    .resume 3, .resume 3]

theorem records_once_shutdown :
    ∃ d s now, (init { } [.python3]).run queuedAtShutdown = some d ∧
      d.tasks.get? 2 = some (.pool (.execution printer) (.acquireSlot 0)) ∧
      d.run [.call (.release 1), .resume 2] = some s ∧
      d.gather (exchanges 2) [.call (.release 1), .resume 2] =
        [.refused (.kernelNotFound (.fresh 0))] ∧
      s.replies.get? 2 =
        some ((Work.execution printer).refusal (.kernelNotFound (.fresh 0)) now) := by
  have h : ((init { } [.python3]).run queuedAtShutdown).bind (fun d =>
      (d.run [.call (.release 1), .resume 2]).map fun s =>
        (d.pool.tracked, d.tasks.get? 2, s.tasks.get? 2)) =
      some ([], some (.pool (.execution printer) (.acquireSlot 0)), none) := by
    decide
  have there : 0 ∈ (init { } [.python3]).gather inserted queuedAtShutdown := by decide
  obtain ⟨d, reached, h⟩ := Option.bind_eq_some_iff.mp h
  obtain ⟨s, run, h⟩ := Option.map_eq_some_iff.mp h
  simp only [Prod.mk.injEq] at h
  obtain ⟨tracked, was, ended⟩ := h
  have all : (init { } [.python3]).run
      (queuedAtShutdown ++ [.call (.release 1), .resume 2]) = some s := by
    rw [run_append, reached, Option.bind_some, run]
  obtain ⟨-, -, -, -, later⟩ := records_once { } [.python3] _ s all
  obtain ⟨-, -, queued⟩ := later queuedAtShutdown _ d 0 rfl reached there (by simp [tracked])
  cases (queued 2 _ _ was rfl).1 with
  | waiting st was => exact absurd (ended.symm.trans was) (by simp)
  | refused now _ reply only => exact ⟨d, s, now, reached, was, run, only, reply⟩

end Services
end NotebookKernels
