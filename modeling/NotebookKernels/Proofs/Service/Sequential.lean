import NotebookKernels.Proofs.Pool.Residue
import NotebookKernels.Proofs.Service.Membership
import NotebookKernels.Proofs.Service.Statuses

/- Operations one after another.

   In a serial run (`Services.Serial`) every operation ends before the next one begins. Workers may die
   between the operations, every call to a worker may fail, and the tasks that tear dead workers down run
   whenever they like. `Services.Solitary` is what holds of the services then: whoever is not the task of
   the operation tears down a worker whose kernel is gone, and only the task of the operation may have a
   kernel in transition. So nobody else changes the order of the kernels, and from the call to the end the
   operation brings about what `PoolCall.reorder` says (`Promised`). -/
namespace NotebookKernels

open Recency

namespace Call

/-- An operation of the pool or of a slot, by callers who set no status but idle and busy. -/
def Plain : Call → Prop
  | .pool (.updateStatus _ status) => status = .idle ∨ status = .busy
  | .pool _ | .record _ | .count _ | .release _ => True
  | _ => False

/-- The slot that an operation is on. -/
def slot? : Call → Option TaskId
  | .record slot | .count slot | .release slot => some slot
  | _ => none

end Call

/-- Did the operation succeed? -/
def Reply.ok : Reply → Bool
  | .pool o => o.ok
  | _ => true

/-- An operation that ended before the next began. -/
structure Operation where
  call : Call
  /-- Did it succeed? -/
  ok : Bool
  /-- The tracked kernels whose workers did not run when it began. -/
  dead : List KernelId
  /-- The kernel that would be created next. -/
  new : KernelId
  /-- The kernel of the slot that it is on, which may be gone. -/
  held : Option KernelId

/-- What an operation makes of the tracked kernels, in the order of their last activities. -/
def Operation.next (catalog : Catalog) (capacity : Nat) (order : List KernelId) (o : Operation) :
    List KernelId :=
  match o.call with
  | .pool c => c.reorder catalog capacity o.dead o.new o.ok order
  | .record _ | .release _ => o.held.elim order (refresh · order)
  | _ => order

namespace Services

/-- No caller begins anything in this step, and no tracked worker starts or stops running that is not in
use. -/
def Inner (s : Services) (l : Label) : Prop :=
  (∀ c, l ≠ .call c) ∧
    ∀ i alive, l = .alive i alive → i ∈ s.pool.tracked → s.pool.queue (.worker i) ≠ []

/-- What may go on while an operation is in progress. -/
abbrev Meanwhile : Services → Services → Prop :=
  Relation.ReflTransGen fun s s' => ∃ l, s.Inner l ∧ s.step l = some s'

/-- The operation of a call that begins now, if it will succeed or if not. -/
def operation (s : Services) (c : Call) (ok : Bool) : Operation where
  call := c
  ok
  dead := s.pool.dead
  new := .fresh s.pool.entries.length
  held := (c.slot?.bind s.held?).map s.pool.idOf

/-- Has the task ended with success? -/
def succeeded (s : Services) (t : TaskId) : Bool := (s.replies.get? t).elim false Reply.ok

/-- The runs in which every operation ends before the next begins, with the operations in their order. -/
inductive Serial (config : Config) (catalog : Catalog) : List Operation → Services → Prop
  | start : Serial config catalog [] (init config catalog)
  /-- Between two operations. -/
  | idle {os : List Operation} {s s' : Services} (l : Label) (serial : Serial config catalog os s)
      (uncalled : ∀ c, l ≠ .call c) (step : s.step l = some s') : Serial config catalog os s'
  | perform {os : List Operation} {s s₁ s' : Services} (c : Call) (serial : Serial config catalog os s)
      (plain : c.Plain) (step : s.step (.call c) = some s₁) (during : Meanwhile s₁ s')
      (ended : s'.tasks.get? s.nextTask = none) :
      Serial config catalog (os ++ [s.operation c (s'.succeeded s.nextTask)]) s'

end Services

theorem Move.eq_wait {m : Move} {s : Stage} (h : m.stage? = some s) : m = .wait s := by
  cases m with
  | wait => exact congrArg Move.wait (Option.some.inj h)
  | finish => cases h

theorem Stage.TearsDown.buries {s : Stage} {i : Nat} (h : s.TearsDown) (hi : .worker i ∈ s.locks) :
    s.Buries i := by
  cases s with
  | reap => cases hi
  | reapLock | reaping => exact (LockName.worker.inj (List.mem_singleton.mp hi)).symm
  | _ => exact False.elim h

namespace Pool

variable {p q p' : Pool} {t : TaskId} {s : Stage} {m : Move} {i : Nat}

/-- To tear a worker down matters for nobody else. -/
theorem Advance.tearsDown (h : Advance t p s p' m) (hs : s.TearsDown) :
    p.Unmoved p' ∧ (∀ i, ¬s.Buries i → p'.isDead i = p.isDead i) ∧
      (∀ s', m = .wait s' → s'.TearsDown) := by
  cases h with
  | reap j =>
    refine ⟨⟨.requestWorker t j, fun _ => by simp, fun _ => by simp, rfl⟩,
      fun i hi => isDead_modify_of_ne hi, ?_⟩
    rintro s' hm
    cases hm
    trivial
  | reapStop j =>
    refine ⟨⟨.call j _, fun _ => by simp, fun _ => by simp, rfl⟩,
      fun i hi => isDead_modify_of_ne hi, ?_⟩
    rintro s' hm
    cases hm
    trivial
  | reaped j =>
    exact ⟨⟨.releaseWorker j, fun _ => by simp, fun _ => by simp, rfl⟩,
      fun i hi => isDead_modify_of_ne hi, fun s' hm => by cases hm⟩
  | abandon _ _ _ was | restartFailed _ _ _ was => obtain rfl | rfl := was <;> exact False.elim hs
  | _ => exact False.elim hs

/-- A caller of a plain operation lets a kernel be in transition only to restart it. -/
theorem Opening.moving {c : PoolCall} {dead : List Nat} {st : KernelStatus}
    (h : Opening t p c p' dead m) (plain : (Call.pool c).Plain) (has : p.Has i)
    (hi : p'.status? i = some st) (idle : st ≠ .idle) (busy : st ≠ .busy) :
    p.status? i = some st ∨ m = .wait (.restartLock i) ∧ st = .restarting := by
  cases h with
  | create request name inspector =>
    rw [status?_requestStructure, status?_requestWorker, status?_launch,
      if_neg (Nat.ne_of_lt has)] at hi
    exact .inl hi
  | update id status j there =>
    rw [status?_setStatus] at hi
    split at hi
    · obtain ⟨_, -, rfl⟩ := Option.map_eq_some_iff.mp hi
      exact absurd plain (not_or.mpr ⟨idle, busy⟩)
    · exact .inl hi
  | restart id j there alive =>
    rw [status?_requestWorker, status?_setStatus] at hi
    split at hi
    · next hji =>
      obtain ⟨_, -, rfl⟩ := Option.map_eq_some_iff.mp hi
      exact .inr ⟨hji ▸ rfl, rfl⟩
    · exact .inl hi
  | _ => exact .inl (by simpa using hi)

/-- A new kernel is starting. -/
theorem Opening.newborn_starting {c : PoolCall} {dead : List Nat} (h : Opening t p c p' dead m)
    (hi : m.newborn? = some i) : p'.status? i = some .starting := by
  cases h with
  | create request name inspector =>
    obtain rfl := Option.some.inj hi
    rw [status?_requestStructure, status?_requestWorker, status?_launch, if_pos rfl]
  | errand _ e grown => exact absurd (grown.symm.trans hi) (by simp)
  | _ => cases hi

end Pool

namespace Services

open Scene

variable {config : Config} {catalog : Catalog} {s s' : Services} {l : Label} {t u : TaskId}
  {here : Option Stage} {st : Stage} {i : Nat} {order : List Nat} {target : Bool → List KernelId}

/-! ## Steps of the pool's own tasks -/

theorem unmoved_stir (s : Services) (l : Label) : s.pool.Unmoved (s.stir l).pool := by
  have alike := alike_stir s l
  refine ⟨⟨alike.tracked, fun i => ?_, ?_⟩, alike.status, alike.id, alike.config⟩
  all_goals
    cases l with
    | resume v =>
      simp only [stir]
      split
      · first | exact Pool.activity_modify fun _ => rfl | rfl
      · rfl
    | alive | deliver | renew => first | exact Pool.activity_modify fun _ => rfl | rfl
    | _ => rfl

/-- Nobody who is not in use dies in a step that callers have no part in. -/
theorem isDead_stir (inner : s.Inner l) (there : i ∈ s.pool.tracked) :
    (s.stir l).pool.isDead i = s.pool.isDead i := by
  cases l with
  | resume v =>
    simp only [stir]
    split
    · exact Pool.isDead_modify fun _ => rfl
    · rfl
  | deliver | renew => exact Pool.isDead_modify fun _ => rfl
  | alive j alive =>
    by_cases hij : j = i
    · subst hij
      have used := inner.2 j alive rfl there
      obtain ⟨v, hv⟩ := List.exists_mem_of_ne_nil _ used
      have used' : v ∈ (s.stir (.alive j alive)).pool.queue (.worker j) := by
        rw [(alike_stir s _).queue]
        exact hv
      rw [Pool.isDead_of_mem_worker hv, Pool.isDead_of_mem_worker used']
    · exact Pool.isDead_modify_of_ne hij
  | _ => rfl

/-- Task `t` has gone on inside an operation of the pool, for no other work, to pool `p` with move
`m`. -/
structure WentOn (s : Services) (t : TaskId) (p : Pool) (m : Move) (s' : Services) : Prop where
  pool : s'.pool = p
  catalog : s'.catalog = s.catalog
  tasks : ∀ u, s'.tasks.get? u =
    if u = t then m.stage?.map (.pool .operation) else s.tasks.get? u
  others : ∀ u, u ≠ t → s'.replies.get? u = s.replies.get? u
  reply : ∀ o, m = .finish o → s'.replies.get? t = some (.pool o)

theorem wentOn (s : Services) (t : TaskId) (p : Pool) (m : Move) :
    WentOn s t p m (({ s with pool := p } : Services).move t .operation m) := by
  cases m with
  | wait st =>
    refine ⟨rfl, rfl, fun u => ?_, fun _ _ => rfl, fun o h => by cases h⟩
    show (s.tasks.set t (.pool .operation st)).get? u = _
    split
    · next h => exact h ▸ Table.get?_set_self ..
    · next h => exact Table.get?_set_of_ne h _ _
  | finish o =>
    have hfinish : ∃ d : Services,
        ({ s with pool := p } : Services).move t .operation (.finish o) = d.finish t (.pool o) ∧
        d.pool = p ∧ d.catalog = s.catalog ∧ d.tasks = s.tasks ∧ d.replies = s.replies := by
      cases o <;> exact ⟨_, rfl, rfl, rfl, rfl, rfl⟩
    obtain ⟨d, hmove, hpool, hcatalog, htasks, hreplies⟩ := hfinish
    rw [hmove]
    refine ⟨hpool, hcatalog, fun u => ?_, fun u hu => ?_, fun o' h => ?_⟩
    · show (d.tasks.erase t).get? u = _
      rw [htasks]
      split
      · next h => exact h ▸ Table.get?_erase_self ..
      · next h => exact Table.get?_erase_of_ne h _
    · show (d.replies.set t _).get? u = _
      rw [hreplies]
      exact Table.get?_set_of_ne hu _ _
    · cases h
      exact Table.get?_set_self ..

theorem catalog_reap (dead : List Nat) : (s.reap dead).catalog = s.catalog := by
  induction dead generalizing s with
  | nil => rfl
  | cons i r ih => exact ih (s := s.spawn i)

/-- The new tasks tear dead workers down. -/
theorem of_tasks_reap {dead : List Nat} {a : Activity} (h : (s.reap dead).tasks.get? u = some a) :
    s.tasks.get? u = some a ∨ ∃ i ∈ dead, a = .pool .operation (.reap i) := by
  induction dead generalizing s with
  | nil => exact .inl h
  | cons i r ih =>
    have hspawn : (s.reap (i :: r)) = (s.spawn i).reap r := rfl
    rw [hspawn] at h
    rcases ih h with h | ⟨j, hj, rfl⟩
    · have hset : (s.tasks.set s.nextTask (.pool .operation (.reap i))).get? u = some a := h
      by_cases hu : u = s.nextTask
      · rw [hu, Table.get?_set_self] at hset
        exact .inr ⟨i, List.mem_cons_self .., (Option.some.inj hset).symm⟩
      · rw [Table.get?_set_of_ne hu] at hset
        exact .inl hset
    · exact .inr ⟨j, List.mem_cons_of_mem _ hj, rfl⟩

theorem WentOn.stage? {p : Pool} {m : Move} (h : WentOn s t p m s') (u : TaskId) :
    s'.scene.stage? u = if u = t then m.stage? else s.scene.stage? u := by
  show (s'.tasks.get? u).bind Activity.stage? = _
  rw [h.tasks]
  split
  · cases m <;> rfl
  · rfl

/-- As long as all tasks are operations of the pool: nobody's task takes a step, or one goes on. -/
theorem step_cases (pooled : ∀ u a, s.tasks.get? u = some a → ∃ st, a = .pool .operation st)
    (uncalled : ∀ c, l ≠ .call c) (step : s.step l = some s') :
    s' = s.stir l ∧ s'.catalog = s.catalog ∧ s'.tasks = s.tasks ∧ s'.replies = s.replies ∨
      ∃ u st p m, s.tasks.get? u = some (.pool .operation st) ∧ Pool.Advance u s.pool st p m ∧
        WentOn s u p m s' := by
  cases hl : l.task? with
  | none =>
    refine .inl ?_
    cases l with
    | call c => exact absurd rfl (uncalled c)
    | alive | deliver | renew | pass =>
      obtain rfl := Option.some.inj step
      exact ⟨rfl, rfl, rfl, rfl⟩
    | resume | answer | submitted | replied | expire => cases hl
  | some u =>
    obtain ⟨a, ha, -⟩ := activity_of_step hl step
    obtain ⟨st, rfl⟩ := pooled u a ha
    obtain ⟨p, m, adv, rfl, -⟩ := move_of_step hl ha step
    exact .inr ⟨u, st, p, m, ha, adv, wentOn s u p m⟩

/-! ## Serial services -/

/-- Only the task `t` is inside an operation of the pool that a caller began, at this stage if at any. All
other tasks tear workers down whose kernels are gone, and only its own kernel is in transition. -/
structure Solitary (config : Config) (catalog : Catalog) (t : TaskId) (here : Option Stage)
    (s : Services) : Prop where
  reached : ∃ ls, (init config catalog).run ls = some s
  offers : s.catalog = catalog
  own : s.tasks.get? t = here.map (.pool .operation)
  others : ∀ u a, u ≠ t → s.tasks.get? u = some a → ∃ st, a = .pool .operation st ∧ st.TearsDown
  buried : ∀ u st i, s.scene.stage? u = some st → st.Buries i →
    i ∉ s.pool.tracked ∧ s.scene.Grown i
  starting : ∀ i ∈ s.pool.tracked, s.pool.status? i = some .starting →
    ∃ st, here = some st ∧ st.Starts i
  restarting : ∀ i ∈ s.pool.tracked, s.pool.status? i = some .restarting →
    ∃ st, here = some st ∧ st.Restarts (.fresh i) i
  /-- A kernel that is not inserted yet is starting. -/
  unborn : ∀ st i, here = some st → st.newborn? = some i → s.pool.status? i = some .starting

namespace Solitary

theorem reached_step (h : Solitary config catalog t here s) (step : s.step l = some s') :
    ∃ ls, (init config catalog).run ls = some s' := by
  obtain ⟨ls, run⟩ := h.reached
  refine ⟨ls ++ [l], ?_⟩
  rw [run_append, run, Option.bind_some, run_cons step, Services.run]

theorem sound (h : Solitary config catalog t here s) : s.scene.Sound := by
  obtain ⟨ls, run⟩ := h.reached
  exact sound_run (sound_init config catalog) run

theorem named (h : Solitary config catalog t here s) : s.scene.Named := by
  obtain ⟨ls, run⟩ := h.reached
  exact named_run run

theorem within (h : Solitary config catalog t here s) : s.scene.Within config := by
  obtain ⟨ls, run⟩ := h.reached
  exact (within_run run).2

theorem stage? (h : Solitary config catalog t here s) : s.scene.stage? t = here := by
  show (s.tasks.get? t).bind Activity.stage? = here
  rw [h.own]
  cases here <;> rfl

theorem tearsDown_of_ne (h : Solitary config catalog t here s) (hut : u ≠ t)
    (hu : s.scene.stage? u = some st) : st.TearsDown := by
  obtain ⟨w, was⟩ := stage_of_scene hu
  obtain ⟨st', hst', tearsDown⟩ := h.others u _ hut was
  obtain rfl := (Activity.pool.inj hst').2
  exact tearsDown

theorem pooled (h : Solitary config catalog t here s) (u : TaskId) (a : Activity)
    (hu : s.tasks.get? u = some a) : ∃ st, a = .pool .operation st := by
  by_cases hut : u = t
  · rw [hut, h.own] at hu
    obtain ⟨st, -, rfl⟩ := Option.map_eq_some_iff.mp hu
    exact ⟨st, rfl⟩
  · obtain ⟨st, rfl, -⟩ := h.others u a hut hu
    exact ⟨st, rfl⟩

/-- Whoever is buried stays away, as long as nobody else comes to be buried but whoever is removed. -/
theorem buried_step (h : Solitary config catalog t here s) (step : s.step l = some s')
    (from' : ∀ u st i, s'.scene.stage? u = some st → st.Buries i →
      (∃ v st', s.scene.stage? v = some st' ∧ st'.Buries i) ∨
        i ∈ s.pool.tracked ∧ i ∉ s'.pool.tracked)
    (u : TaskId) (st : Stage) (i : Nat) (hu : s'.scene.stage? u = some st) (hi : st.Buries i) :
    i ∉ s'.pool.tracked ∧ s'.scene.Grown i := by
  rcases from' u st i hu hi with ⟨v, st', hv, hi'⟩ | ⟨there, gone⟩
  · obtain ⟨gone, grown⟩ := h.buried v st' i hv hi'
    exact ⟨gone_of_step h.sound grown gone step, .step h.sound step grown⟩
  · exact ⟨gone, .step h.sound step (.of_tracked h.sound there)⟩

/-- A step that leaves the task where it is and moves no kernel. -/
theorem keep (h : Solitary config catalog t here s) (step : s.step l = some s')
    (offers : s'.catalog = s.catalog)
    (own : s'.tasks.get? t = s.tasks.get? t)
    (others : ∀ u a, u ≠ t → s'.tasks.get? u = some a → ∃ st, a = .pool .operation st ∧ st.TearsDown)
    (buries : ∀ u st i, s'.scene.stage? u = some st → st.Buries i →
      ∃ v st', s.scene.stage? v = some st' ∧ st'.Buries i)
    (unmoved : s.pool.Unmoved s'.pool) : Solitary config catalog t here s' where
  reached := h.reached_step step
  offers := offers.trans h.offers
  own := own.trans h.own
  others := others
  buried := h.buried_step step fun u st i hu hi => .inl (buries u st i hu hi)
  starting i hi hst := h.starting i (unmoved.times.tracked ▸ hi) ((unmoved.status i).symm.trans hst)
  restarting i hi hst :=
    h.restarting i (unmoved.times.tracked ▸ hi) ((unmoved.status i).symm.trans hst)
  unborn st i hst hi := (unmoved.status i).trans (h.unborn st i hst hi)

/-- A step of the task of the operation. -/
theorem advance {p : Pool} {m : Move} (h : Solitary config catalog t (some st) s)
    (step : s.step l = some s') (adv : Pool.Advance t s.pool st p m) (went : WentOn s t p m s') :
    Solitary config catalog t m.stage? s' := by
  have status : ∀ {i k}, s'.pool.status? i = some k → k ≠ .idle → k ≠ .busy →
      s.pool.status? i = some k := by
    intro i k hk hidle hbusy
    rw [went.pool] at hk
    exact Staffed.older_of_advance (c := s.scene) adv hk hidle hbusy
  have inserted : ∀ {i}, i ∈ s'.pool.tracked →
      i ∈ s.pool.tracked ∨ st.newborn? = some i ∧ m = .wait (.starting i) := by
    intro i hi
    rw [went.pool] at hi
    exact adv.inserted hi
  constructor
  case reached => exact h.reached_step step
  case offers => exact went.catalog.trans h.offers
  case own => rw [went.tasks, if_pos rfl]
  case others =>
    intro u a hu ha
    rw [went.tasks, if_neg hu] at ha
    exact h.others u a hu ha
  case buried =>
    refine h.buried_step step ?_
    intro u su i hu hi
    rw [went.stage?] at hu
    split at hu
    · obtain rfl := Move.eq_wait hu
      rw [went.pool]
      exact (adv.buries hi).imp_left fun hold => ⟨t, st, h.stage?, hold⟩
    · exact .inl ⟨u, su, hu, hi⟩
  case starting =>
    intro i hi hstart
    rcases inserted hi with old | ⟨-, rfl⟩
    · -- it was starting before, and whoever starts it goes on, removes it, or has it settled
      obtain ⟨st', hst', starts⟩ := h.starting i old (status hstart (by simp) (by simp))
      obtain rfl := Option.some.inj hst'
      rw [went.pool] at hi hstart
      rcases adv.starts starts with ⟨st', rfl, starts'⟩ | gone | settled
      · exact ⟨st', rfl, starts'⟩
      · exact absurd hi gone
      · exact absurd hstart settled
    · exact ⟨_, rfl, rfl⟩
  case restarting =>
    intro i hi hrestart
    have was := status hrestart (by simp) (by simp)
    rcases inserted hi with old | ⟨newborn, -⟩
    · obtain ⟨st', hst', restarts⟩ := h.restarting i old was
      obtain rfl := Option.some.inj hst'
      rw [went.pool] at hi hrestart
      rcases adv.restarts restarts (h.named.idOf (h.sound.there i old)) (h.named.find? h.sound)
        with ⟨st', rfl, restarts'⟩ | gone | settled
      · exact ⟨st', rfl, restarts'⟩
      · exact absurd hi gone
      · exact absurd hrestart settled
    · -- a kernel that is just inserted was starting before
      exact absurd ((h.unborn st i rfl newborn).symm.trans was) (by simp)
  case unborn =>
    intro st' i hst' hi
    have newborn : st.newborn? = some i :=
      adv.unborn (by rw [Move.newborn?, hst', Option.bind_some, hi])
    rw [went.pool]
    rcases adv.statuses with same | ⟨j, settles, -⟩ | ⟨j, rfl, -⟩
    · exact (same i).trans (h.unborn st i rfl newborn)
    · exact absurd (newborn.symm.trans settles.newborn?) (by simp)
    · cases hst'

/-- A step of a task that tears a worker down. -/
theorem aside {p : Pool} {m : Move} (h : Solitary config catalog t here s)
    (step : s.step l = some s') (hut : u ≠ t) (was : s.tasks.get? u = some (.pool .operation st))
    (adv : Pool.Advance u s.pool st p m) (went : WentOn s u p m s') :
    Solitary config catalog t here s' ∧ s.pool.Unmoved s'.pool ∧
      ∀ i ∈ s.pool.tracked, s'.pool.isDead i = s.pool.isDead i := by
  have stage : s.scene.stage? u = some st := Sound.stage_of_act was
  obtain ⟨unmoved, dead, still⟩ := adv.tearsDown (h.tearsDown_of_ne hut stage)
  rw [← went.pool] at unmoved dead
  refine ⟨h.keep step went.catalog ?_ ?_ ?_ unmoved, unmoved, ?_⟩
  · rw [went.tasks, if_neg (Ne.symm hut)]
  · intro v a hv ha
    rw [went.tasks] at ha
    split at ha
    · obtain ⟨st', hm, rfl⟩ := Option.map_eq_some_iff.mp ha
      exact ⟨st', rfl, still st' (Move.eq_wait hm)⟩
    · exact h.others v a hv ha
  · intro v sv i hv hi
    rw [went.stage?] at hv
    split at hv
    · obtain rfl := Move.eq_wait hv
      rcases adv.buries hi with hold | ⟨there, gone⟩
      · exact ⟨u, st, stage, hold⟩
      · rw [← went.pool, unmoved.times.tracked] at gone
        exact absurd there gone
    · exact ⟨v, sv, hv, hi⟩
  · intro i hi
    exact dead i fun hb => (h.buried u st i stage hb).1 hi

/-- A step without a call: nobody moves the kernels, or the task of the operation goes on. -/
theorem next (h : Solitary config catalog t here s) (uncalled : ∀ c, l ≠ .call c)
    (step : s.step l = some s') :
    (Solitary config catalog t here s' ∧ s.pool.Unmoved s'.pool ∧
      s'.replies.get? t = s.replies.get? t ∧
      (s.Inner l → ∀ i ∈ s.pool.tracked, s'.pool.isDead i = s.pool.isDead i)) ∨
    ∃ st p m, here = some st ∧ Pool.Advance t s.pool st p m ∧ WentOn s t p m s' ∧
      Solitary config catalog t m.stage? s' := by
  rcases step_cases h.pooled uncalled step with
    ⟨rfl, offers, tasks, replies⟩ | ⟨u, st, p, m, was, adv, went⟩
  · have unmoved := unmoved_stir s l
    refine .inl ⟨h.keep step offers (by rw [tasks]) ?_ ?_ unmoved, unmoved, by rw [replies],
      fun inner i hi => isDead_stir inner hi⟩
    · rw [tasks]
      exact h.others
    · rw [stage?_congr tasks]
      exact fun u st i hu hi => ⟨u, st, hu, hi⟩
  · by_cases hut : u = t
    · subst hut
      obtain rfl : here = some st := h.stage?.symm.trans (Sound.stage_of_act was)
      exact .inr ⟨st, p, m, rfl, adv, went, h.advance step adv went⟩
    · obtain ⟨solitary, unmoved, dead⟩ := h.aside step hut was adv went
      exact .inl ⟨solitary, unmoved, went.others t (Ne.symm hut), fun _ => dead⟩

/-- What the task may rely on for the order of the kernels. -/
theorem placed (h : Solitary config catalog t (some st) s) : s.pool.Placed st where
  ready := h.sound.ready h.stage?
  has i hi := Pool.has_of_mem_worker (h.sound.mem_worker h.stage? hi)
  named := h.named
  buried i hi := (h.buried t st i h.stage? hi).1
  fits := by
    have hcap : s.pool.capacity = config.capacity := congrArg Config.capacity h.within.settings
    exact hcap ▸ h.within.size
  settled := by
    rintro e found rfl i hi
    apply Bool.eq_false_iff.mpr
    intro hmoves
    rcases Pool.inTransition_iff.mp hmoves with hst | hst
    · obtain ⟨st', hst', starts⟩ := h.starting i hi hst
      obtain rfl := Option.some.inj hst'
      exact starts
    · obtain ⟨st', hst', restarts⟩ := h.restarting i hi hst
      obtain rfl := Option.some.inj hst'
      exact List.not_mem_nil restarts.2

/-- Nobody has a tracked worker while no operation is in progress. -/
theorem free (h : Solitary config catalog t none s) (hi : i ∈ s.pool.tracked) :
    s.pool.queue (.worker i) = [] := by
  apply List.eq_nil_iff_forall_not_mem.mpr
  intro u hu
  have hlock := (h.sound.orderly.mem u _).mp hu
  rcases List.mem_append.mp hlock with hstage | hslot
  · cases hst : s.scene.stage? u with
    | none =>
      rw [hst] at hstage
      cases hstage
    | some st =>
      -- nobody but those who tear down has a worker now, and their kernels are gone
      rw [hst] at hstage
      have hut : u ≠ t := by
        rintro rfl
        exact absurd (h.stage?.symm.trans hst) (by simp)
      have buries := (h.tearsDown_of_ne hut hst).buries hstage
      exact (h.buried u st i hst buries).1 hi
  · cases hs : s.scene.slot u with
    | none =>
      rw [hs] at hslot
      cases hslot
    | some j =>
      rw [hs] at hslot
      cases List.mem_singleton.mp hslot

/-- While no operation is in progress all tasks tear workers down. -/
theorem tearsDown (h : Solitary config catalog t none s) (u : TaskId) (a : Activity)
    (hu : s.tasks.get? u = some a) : ∃ st, a = .pool .operation st ∧ st.TearsDown := by
  refine h.others u a ?_ hu
  rintro rfl
  exact absurd (h.own.symm.trans hu) (by simp)

/-- While no operation is in progress no tracked kernel is in transition. -/
theorem settled (h : Solitary config catalog t none s) (hi : i ∈ s.pool.tracked) :
    s.pool.status? i ≠ some .starting ∧ s.pool.status? i ≠ some .restarting := by
  constructor
  · intro hst
    obtain ⟨_, hnone, -⟩ := h.starting i hi hst
    cases hnone
  · intro hst
    obtain ⟨_, hnone, -⟩ := h.restarting i hi hst
    cases hnone

theorem atRest (h : Solitary config catalog t none s) (ordered : s.pool.Ordered order) :
    s.pool.AtRest order :=
  ⟨ordered, h.sound.there, h.named, fun _ => h.free⟩

/-- A call of the pool begins while no operation is in progress. -/
theorem begin {c : PoolCall} {p : Pool} {dead : List Nat} {m : Move} {d : Services}
    (h : Solitary config catalog t none s) (plain : (Call.pool c).Plain)
    (opening : Pool.Opening s.nextTask s.pool c p dead m)
    (went : WentOn { s with nextTask := s.nextTask + 1 } s.nextTask p m d)
    (next : d.nextTask = s.nextTask + 1)
    (step : s.step (.call (.pool c)) = some (d.reap dead)) :
    Solitary config catalog s.nextTask m.stage? (d.reap dead) := by
  have pool : (d.reap dead).pool = p := (pool_reap dead).trans went.pool
  have new : s.nextTask < d.nextTask := next ▸ Nat.lt_succ_self _
  have tasks : ∀ {u a}, (d.reap dead).tasks.get? u = some a →
      (u = s.nextTask ∧ m.stage?.map (.pool .operation) = some a) ∨
        s.tasks.get? u = some a ∨ ∃ i ∈ dead, a = .pool .operation (.reap i) := by
    intro u a hu
    rcases of_tasks_reap hu with hu | hreap
    · rw [went.tasks] at hu
      split at hu
      · next hut => exact .inl ⟨hut, hu⟩
      · exact .inr (.inl hu)
    · exact .inr (.inr hreap)
  have moving : ∀ {i st}, i ∈ (d.reap dead).pool.tracked → (d.reap dead).pool.status? i = some st →
      st ≠ .idle → st ≠ .busy → i ∈ s.pool.tracked ∧
        (s.pool.status? i = some st ∨ m = .wait (.restartLock i) ∧ st = .restarting) := by
    intro i st hi hst idle busy
    rw [pool] at hi hst
    have there := opening.inserted hi
    exact ⟨there, opening.moving plain (h.sound.there i there) hst idle busy⟩
  constructor
  case reached => exact h.reached_step step
  case offers => exact ((catalog_reap dead).trans went.catalog).trans h.offers
  case own => rw [(reap_of_lt dead new).1, went.tasks, if_pos rfl]
  case others =>
    intro u a hne hu
    rcases tasks hu with ⟨hut, -⟩ | hu | ⟨i, -, rfl⟩
    · exact absurd hut hne
    · exact h.tearsDown u a hu
    · exact ⟨_, rfl, trivial⟩
  case buried =>
    refine h.buried_step step ?_
    intro u st i hu hi
    obtain ⟨w, hw⟩ := stage_of_scene hu
    rcases tasks hw with ⟨-, hm⟩ | hw | ⟨j, hj, ha⟩
    · obtain ⟨st', hst', ha⟩ := Option.map_eq_some_iff.mp hm
      obtain rfl := (Activity.pool.inj ha).2
      obtain rfl := Move.eq_wait hst'
      exact absurd hi opening.buries
    · exact .inl ⟨u, st, Sound.stage_of_act hw, hi⟩
    · -- whoever is found dead was tracked until this step
      obtain rfl := (Activity.pool.inj ha).2
      obtain rfl : j = i := hi
      refine .inr ⟨(opening.of_mem_dead hj).1, ?_⟩
      rw [pool]
      exact fun hc => (opening.mem_tracked_iff.mp hc).2 hj
  case starting =>
    intro i hi hst
    obtain ⟨there, hold | ⟨-, hst'⟩⟩ := moving hi hst (by simp) (by simp)
    · exact absurd hold (h.settled there).1
    · cases hst'
  case restarting =>
    intro i hi hst
    obtain ⟨there, hold | ⟨rfl, -⟩⟩ := moving hi hst (by simp) (by simp)
    · exact absurd hold (h.settled there).2
    · exact ⟨_, rfl, rfl⟩
  case unborn =>
    intro st i hm hi
    rw [pool]
    exact opening.newborn_starting (by rw [Move.newborn?, hm, Option.bind_some, hi])

/-- A call on a slot begins and ends while no operation is in progress. -/
theorem onSlot {c : Call} {d : Services} {r : Reply} (h : Solitary config catalog t none s)
    (step : s.step (.call c) = some (d.finish s.nextTask r)) (offers : d.catalog = s.catalog)
    (tasks : d.tasks = s.tasks) (same : s.pool.SameWorkers d.pool) :
    Solitary config catalog s.nextTask none (d.finish s.nextTask r) := by
  have old : ∀ {u a}, u ≠ s.nextTask → (d.finish s.nextTask r).tasks.get? u = some a →
      s.tasks.get? u = some a := by
    intro u a hne hu
    have herase : (d.tasks.erase s.nextTask).get? u = some a := hu
    rwa [tasks, Table.get?_erase_of_ne hne] at herase
  have gone : (d.finish s.nextTask r).tasks.get? s.nextTask = none := Table.get?_erase_self ..
  constructor
  case reached => exact h.reached_step step
  case offers => exact offers.trans h.offers
  case own => exact gone
  case others => exact fun u a hne hu => h.tearsDown u a (old hne hu)
  case buried =>
    refine h.buried_step step ?_
    intro u st i hu hi
    obtain ⟨w, hw⟩ := stage_of_scene hu
    have hne : u ≠ s.nextTask := by
      rintro rfl
      exact absurd (gone.symm.trans hw) (by simp)
    exact .inl ⟨u, st, Sound.stage_of_act (old hne hw), hi⟩
  case starting =>
    intro i hi hst
    have hold := (same.status i _ hst).resolve_right (by simp)
    exact absurd hold (h.settled (same.tracked ▸ hi)).1
  case restarting =>
    intro i hi hst
    have hold := (same.status i _ hst).resolve_right (by simp)
    exact absurd hold (h.settled (same.tracked ▸ hi)).2
  case unborn =>
    intro st i hst
    cases hst

end Solitary

/-! ## Operations -/

/-- The operation of task `t` will leave the kernels of the target in this order, or has done so. -/
def Promised (config : Config) (catalog : Catalog) (t : TaskId) (target : Bool → List KernelId)
    (s : Services) : Prop :=
  ∃ m : Move, Solitary config catalog t m.stage? s ∧ s.pool.Leads m target ∧
    ∀ o, m = .finish o → ∃ r, s.replies.get? t = some r ∧ r.ok = o.ok

theorem Promised.next (h : Promised config catalog t target s) (inner : s.Inner l)
    (step : s.step l = some s') : Promised config catalog t target s' := by
  obtain ⟨m, solitary, leads, replied⟩ := h
  rcases solitary.next inner.1 step with
    ⟨solitary', unmoved, reply, dead⟩ | ⟨st, p, m', hst, adv, went, solitary'⟩
  · refine ⟨m, solitary', leads.congr unmoved (dead inner), fun o ho => ?_⟩
    rw [reply]
    exact replied o ho
  · obtain rfl := Move.eq_wait hst
    refine ⟨m', solitary', ?_, fun o ho => ⟨_, went.reply o ho, rfl⟩⟩
    rw [went.pool]
    exact leads.advance adv solitary.placed

/-- A call on a slot that made the kernel active, or that made none active. -/
theorem promised_of_slot {c : Call} {d : Services} {r : Reply} {order' : List Nat}
    (h : Solitary config catalog t none s)
    (step : s.step (.call c) = some (d.finish s.nextTask r)) (succeeds : r.ok = true)
    (offers : d.catalog = s.catalog) (tasks : d.tasks = s.tasks)
    (same : s.pool.SameWorkers d.pool) (ordered : d.pool.Ordered order')
    (kernels : order'.map .fresh = target true) :
    Promised config catalog s.nextTask target (d.finish s.nextTask r) := by
  refine ⟨.finish .done, h.onSlot step offers tasks same,
    ⟨order', ordered, fun ok hok => ?_⟩, fun o ho => ?_⟩
  · obtain rfl : ok = true := hok
    exact kernels
  · cases ho
    exact ⟨r, Table.get?_set_self .., succeeds⟩

/-- A call of the pool promises what its kind says. -/
theorem promised_of_begin {c : PoolCall} (h : Solitary config catalog t none s)
    (ordered : s.pool.Ordered order) (plain : (Call.pool c).Plain)
    (step : s.step (.call (.pool c)) = some s') :
    Promised config catalog s.nextTask (fun ok => (s.operation (.pool c) ok).next catalog
      config.capacity (order.map .fresh)) s' := by
  have capacity : s.pool.capacity = config.capacity := congrArg Config.capacity h.within.settings
  obtain ⟨b, hb⟩ : ∃ b, s.pool.start s.catalog s.nextTask c = b := ⟨_, rfl⟩
  have opening : Pool.Opening s.nextTask s.pool c b.pool b.dead b.move := hb ▸ Pool.opening_of_start
  have leads := (h.atRest ordered).leads s.catalog s.nextTask c
  rw [hb, h.offers, capacity] at leads
  let d : Services := ({ s with nextTask := s.nextTask + 1, pool := b.pool } : Services).move s.nextTask
    .operation b.move
  have went : WentOn { s with nextTask := s.nextTask + 1 } s.nextTask b.pool b.move d :=
    wentOn { s with nextTask := s.nextTask + 1 } s.nextTask b.pool b.move
  have next : d.nextTask = s.nextTask + 1 := nextTask_move b.move
  have begun : s.step (.call (.pool c)) = some (d.reap b.dead) := by
    subst hb
    rfl
  obtain rfl : d.reap b.dead = s' := Option.some.inj (begun.symm.trans step)
  refine ⟨b.move, h.begin plain opening went next begun, ?_, fun o ho => ⟨.pool o, ?_, rfl⟩⟩
  · rw [pool_reap, went.pool]
    exact leads
  · exact (reap_of_lt _ (next ▸ Nat.lt_succ_self _)).2.trans (went.reply o ho)

/-- A call on a slot that the caller does not have does nothing. -/
theorem step_of_unheld {c : Call} {slot : TaskId} (hc : c.slot? = some slot)
    (h : s.held? slot = none) :
    s.step (.call c) = some (({ s with nextTask := s.nextTask + 1 } : Services).finish s.nextTask
      (.pool .done)) := by
  have h' : ({ s with nextTask := s.nextTask + 1 } : Services).held? slot = none := h
  cases c with
  | record k | count k | release k =>
    obtain rfl := Option.some.inj hc
    simp only [Services.step, start, h']
  | _ => cases hc

theorem next_of_unheld {c : Call} {slot : TaskId} (hc : c.slot? = some slot)
    (h : s.held? slot = none) (ok : Bool) (catalog : Catalog) (capacity : Nat)
    (ids : List KernelId) : (s.operation c ok).next catalog capacity ids = ids := by
  cases c with
  | record k | count k | release k =>
    obtain rfl := Option.some.inj hc
    simp [operation, Operation.next, Call.slot?, h]
  | _ => cases hc

theorem pool_dropSlot {slot : TaskId} (h : s.slots.get? slot = some i) :
    (s.dropSlot slot).pool = (s.pool.touch i fun k =>
      if k.status = .busy then { k with status := .idle } else k).releaseSlot i := by
  simp only [dropSlot, h]

theorem catalog_dropSlot (slot : TaskId) : (s.dropSlot slot).catalog = s.catalog := by
  unfold dropSlot
  split <;> rfl

/-- A call on a slot promises to make the kernel of the slot the latest, if it is still tracked. -/
theorem promised_of_slot_call {c : Call} {slot : TaskId} (h : Solitary config catalog t none s)
    (ordered : s.pool.Ordered order) (hc : c.slot? = some slot) (step : s.step (.call c) = some s') :
    Promised config catalog s.nextTask (fun ok => (s.operation c ok).next catalog config.capacity
      (order.map .fresh)) s' := by
  let d : Services := { s with nextTask := s.nextTask + 1 }
  cases hi : s.held? slot with
  | none =>
    obtain rfl := Option.some.inj ((step_of_unheld hc hi).symm.trans step)
    exact promised_of_slot (d := d) h step rfl rfl rfl (.refl _) ordered
      (next_of_unheld hc hi true catalog config.capacity _).symm
  | some i =>
    have hi' : d.held? slot = some i := hi
    have hslot : d.slots.get? slot = some i := by
      unfold held? at hi
      split at hi
      · cases hi
      · exact hi
    -- whoever has a slot has been launched, and carries the name of its entry
    have hid : s.pool.idOf i = .fresh i := h.named.idOf (h.sound.has_of_slot hslot)
    have active : ∀ g : Kernel → Kernel, (d.pool.touch i g).Ordered (refresh i order) :=
      fun g => ordered.touch h.sound.there i g
    have ended := step
    cases c with
    | count k =>
      obtain rfl := Option.some.inj hc
      simp only [Services.step, start, hi', d] at ended
      obtain rfl := Option.some.inj ended
      exact promised_of_slot (d := d) h step rfl rfl rfl (.refl _) ordered rfl
    | record k =>
      obtain rfl := Option.some.inj hc
      simp only [Services.step, start, hi', d] at ended
      obtain rfl := Option.some.inj ended
      refine promised_of_slot (d := d.countUp i) h step rfl rfl rfl (sameWorkers_countUp i)
        (active fun k => { k with executionCount := k.executionCount + 1 }) ?_
      rw [Pool.AtRest.map_refresh]
      simp [operation, Operation.next, Call.slot?, hi, hid]
    | release k =>
      obtain rfl := Option.some.inj hc
      simp only [Services.step, start, hi', d] at ended
      obtain rfl := Option.some.inj ended
      have dropped : (d.dropSlot k).pool.Ordered (refresh i order) := by
        rw [pool_dropSlot hslot]
        exact (active _).congr (.releaseSlot i)
      refine promised_of_slot (d := d.dropSlot k) h step rfl (catalog_dropSlot k)
        (tasks_dropSlot k) (sameWorkers_dropSlot (s := d) k) dropped ?_
      rw [Pool.AtRest.map_refresh]
      simp [operation, Operation.next, Call.slot?, hi, hid]
    | _ => cases hc

/-- A plain operation promises what its kind says. -/
theorem promised_of_call {c : Call} (h : Solitary config catalog t none s)
    (ordered : s.pool.Ordered order) (plain : c.Plain) (step : s.step (.call c) = some s') :
    Promised config catalog s.nextTask (fun ok => (s.operation c ok).next catalog config.capacity
      (order.map .fresh)) s' := by
  cases c with
  | pool c => exact promised_of_begin h ordered plain step
  | record slot | count slot | release slot => exact promised_of_slot_call h ordered rfl step
  | execute | introspect | result | submit | stream | list | query => exact False.elim plain

/-- Nobody but the callers has a part in what goes on during an operation. -/
theorem Promised.during {target : Bool → List KernelId} (h : Promised config catalog t target s)
    (during : Meanwhile s s') : Promised config catalog t target s' := by
  induction during with
  | refl => exact h
  | tail _ next ih =>
    obtain ⟨l, inner, step⟩ := next
    exact ih.next inner step

theorem Promised.ended (h : Promised config catalog t target s) (ended : s.tasks.get? t = none) :
    Solitary config catalog t none s ∧
      ∃ order, s.pool.Ordered order ∧ order.map .fresh = target (s.succeeded t) := by
  obtain ⟨m, solitary, ⟨order, ordered, leads⟩, replied⟩ := h
  cases m with
  | wait st => exact absurd (ended.symm.trans solitary.own) (by simp [Move.stage?])
  | finish o =>
    obtain ⟨r, hr, hok⟩ := replied o rfl
    refine ⟨solitary, order, ordered, ?_⟩
    rw [succeeded, hr]
    exact leads _ hok

theorem solitary_init (config : Config) (catalog : Catalog) :
    Solitary config catalog 0 none (init config catalog) where
  reached := ⟨[], rfl⟩
  offers := rfl
  own := rfl
  others u a _ hu := by cases hu
  buried u st i hu := by cases hu
  starting i hi := by cases hi
  restarting i hi := by cases hi
  unborn st i hst := by cases hst

theorem serial_solitary {os : List Operation} (serial : Serial config catalog os s) :
    ∃ t order, Solitary config catalog t none s ∧ s.pool.Ordered order ∧
      order.map .fresh = os.foldl (Operation.next catalog config.capacity) [] := by
  -- by induction on the run: between two operations the order stays, and an operation keeps what it
  -- promised when it began
  induction serial with
  | start => exact ⟨0, [], solitary_init config catalog, ⟨.refl _, .nil, by simp⟩, rfl⟩
  | idle l serial uncalled step ih =>
    obtain ⟨t, order, solitary, ordered, kernels⟩ := ih
    rcases solitary.next uncalled step with ⟨solitary', unmoved, -⟩ | ⟨_, _, _, hnone, -⟩
    · exact ⟨t, order, solitary', ordered.congr unmoved.times, kernels⟩
    · cases hnone
  | perform c serial plain step during ended ih =>
    obtain ⟨t, order, solitary, ordered, kernels⟩ := ih
    obtain ⟨solitary', order', ordered', kernels'⟩ :=
      ((promised_of_call solitary ordered plain step).during during).ended ended
    refine ⟨_, order', solitary', ordered', ?_⟩
    rw [kernels', List.foldl_append, ← kernels]
    rfl

/-- In a run in which every operation ends before the next begins, the tracked kernels, in the order of
their last activities, are what the operations make of them one after another. -/
theorem serial_recency (config : Config) (catalog : Catalog) (os : List Operation) (s : Services)
    (serial : Serial config catalog os s) :
    ∃ order, s.pool.Ordered order ∧
      order.map s.pool.idOf = os.foldl (Operation.next catalog (max config.maxKernels 1)) [] := by
  obtain ⟨t, order, solitary, ordered, kernels⟩ := serial_solitary serial
  refine ⟨order, ordered, kernels ▸ List.map_congr_left fun i hi => ?_⟩
  exact solitary.named.idOf (solitary.sound.there i (ordered.mem_iff.mp hi))

/-- An operation during which only tasks take steps. -/
theorem Serial.of_run {os : List Operation} {c : Call} {ls : List Label} {s₁ : Services}
    (serial : Serial config catalog os s) (plain : c.Plain) (step : s.step (.call c) = some s₁)
    (own : ∀ l ∈ ls, l.task?.isSome) (run : s₁.run ls = some s')
    (ended : s'.tasks.get? s.nextTask = none) :
    Serial config catalog (os ++ [s.operation c (s'.succeeded s.nextTask)]) s' := by
  refine .perform c serial plain step ?_ ended
  clear step
  induction ls generalizing s₁ with
  | nil =>
    obtain rfl := Option.some.inj run
    exact .refl
  | cons l ls ih =>
    obtain ⟨s₂, step, run⟩ := Option.bind_eq_some_iff.mp run
    have hl := own l (List.mem_cons_self ..)
    refine .head ⟨l, ⟨?_, ?_⟩, step⟩ (ih (fun k hk => own k (List.mem_cons_of_mem _ hk)) run)
    · rintro c rfl
      cases hl
    · rintro i alive rfl
      cases hl

/-- What follows the call that creates the first kernel. -/
def creating : List Label := [.resume 0, .resume 0, .answer 0 .ok, .answer 0 .ok]

/-- What follows the call that creates another one, if it has to evict the first. -/
def createdInstead : List Label :=
  [.resume 1, .resume 1, .resume 1, .resume 1, .answer 1 .ok, .resume 1, .answer 1 .ok, .answer 1 .ok]

theorem serial_recency_evicting :
    ∃ os s order, Serial { maxKernels := 1 } [.python3] os s ∧ s.pool.tracked = [1] ∧
      s.pool.Ordered order ∧
      order.map s.pool.idOf = os.foldl (Operation.next [.python3] 1) [] := by
  let create : Label := .call (.pool (.create { } none))
  have h : (((init { maxKernels := 1 } [.python3]).step create).bind fun a =>
      (a.run creating).bind fun b => (b.step (.alive 0 true)).bind fun c =>
        (c.step create).bind fun d => (d.run createdInstead).map fun e =>
          (b.tasks.get? 0, c.nextTask, e.tasks.get? 1, e.pool.tracked)) =
      some (none, 1, none, [1]) := by
    decide
  obtain ⟨a, ha, h⟩ := Option.bind_eq_some_iff.mp h
  obtain ⟨b, hb, h⟩ := Option.bind_eq_some_iff.mp h
  obtain ⟨c, hc, h⟩ := Option.bind_eq_some_iff.mp h
  obtain ⟨d, hd, h⟩ := Option.bind_eq_some_iff.mp h
  obtain ⟨e, he, h⟩ := Option.map_eq_some_iff.mp h
  simp only [Prod.mk.injEq] at h
  obtain ⟨ended, next, ended', tracked⟩ := h
  have first := Serial.of_run (c := .pool (.create { } none)) .start trivial ha (by decide) hb ended
  have between := Serial.idle _ first (by simp) hc
  have second := Serial.of_run (c := .pool (.create { } none)) between trivial hd (by decide) he
    (next ▸ ended')
  obtain ⟨order, ordered, kernels⟩ := serial_recency _ _ _ e second
  exact ⟨_, e, order, second, tracked, ordered, kernels⟩

end Services
end NotebookKernels
