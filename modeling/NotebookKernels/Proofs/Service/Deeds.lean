import Mathlib.Data.List.Induction
import NotebookKernels.Proofs.Pool.Calls
import NotebookKernels.Proofs.Service.Strides

/- A whole step, as far as the workers go.

   A step of the services does one of three things to the workers: one task goes on inside an operation
   of the pool; or a call of the pool begins, which may leave new tasks to tear down the dead workers
   that it has found; or nothing. `deed_of_step` says so, with where every task stands afterwards. It
   joins what the turns of a step tell apart: the dead kernel that a lookup removes, and the task that
   is to shut its worker down. So an invariant of who is to shut which worker down is proved step by
   step, from `Deed`. -/
namespace NotebookKernels

open Function (update)

/-- Two pools with the same tracked kernels, whose workers were told the same and are asked for by the
same tasks. A kernel may have become idle. -/
structure Pool.SameWorkers (p q : Pool) : Prop where
  tracked : q.tracked = p.tracked
  has : ∀ i, q.Has i ↔ p.Has i
  calls : ∀ i, q.calls i = p.calls i
  queue : ∀ i, q.queue (.worker i) = p.queue (.worker i)
  status : ∀ i st, q.status? i = some st → p.status? i = some st ∨ st = .idle

namespace Pool.SameWorkers

variable {p q r : Pool} {i : Nat}

theorem refl (p : Pool) : SameWorkers p p :=
  ⟨rfl, fun _ => Iff.rfl, fun _ => rfl, fun _ => rfl, fun _ _ h => .inl h⟩

theorem trans (h : SameWorkers p q) (k : SameWorkers q r) : SameWorkers p r where
  tracked := k.tracked.trans h.tracked
  has i := (k.has i).trans (h.has i)
  calls i := (k.calls i).trans (h.calls i)
  queue i := (k.queue i).trans (h.queue i)
  status i st hr := by
    rcases k.status i st hr with hq | idle
    · exact h.status i st hq
    · exact .inr idle

theorem of_alike (h : Alike p q) (calls : ∀ i, q.calls i = p.calls i) : SameWorkers p q where
  tracked := h.tracked
  has := h.has
  calls := calls
  queue i := h.queue (.worker i)
  status i _ hq := .inl ((h.status i).symm.trans hq)

theorem touch {g : Kernel → Kernel} (h : ∀ k, (g k).status = k.status) :
    SameWorkers p (p.touch i g) where
  tracked := rfl
  has _ := has_touch g
  calls _ := calls_touch g
  queue _ := queue_touch g
  status _ _ hq := .inl ((status?_touch_of_eq h).symm.trans hq)

/-- A slot is given up. -/
theorem dropped : SameWorkers p ((p.touch i fun k =>
    if k.status = .busy then { k with status := .idle } else k).releaseSlot i) where
  tracked := rfl
  has _ := has_releaseSlot.trans (has_touch _)
  calls _ := calls_releaseSlot.trans (calls_touch _)
  queue j := by
    rw [queue_releaseSlot, if_neg (by simp), queue_touch]
  status j st hq := by
    rw [status?_dropped] at hq
    split at hq
    · obtain ⟨old, hold, rfl⟩ := Option.map_eq_some_iff.mp hq
      by_cases hb : old = .busy
      · exact .inr (if_pos hb)
      · rw [if_neg hb]
        exact .inl hold
    · exact .inl hq

end Pool.SameWorkers

/-- Whoever a call is made by, only a caller restarts a kernel or sets its status. -/
def PoolCall.Inner : PoolCall → Prop
  | .acquire _ | .removeIfDead _ => True
  | _ => False

namespace Services

open Scene

variable {s s' d : Services} {l : Label} {t u : TaskId} {i : Nat} {w : Work}

/-- What a step does to the workers. -/
inductive Deed (s : Services) (l : Label) (s' : Services) : Prop
  /-- Nothing. -/
  | calm (shown : s.strides l = []) (same : s.pool.SameWorkers s'.pool)
      (stages : s'.scene.stage? = s.scene.stage?)
  /-- One task goes on inside the pool. -/
  | stride (t : TaskId) (w : Work) (st : Stage) (p : Pool) (m : Move) (own : l.task? = some t)
      (was : s.tasks.get? t = some (.pool w st)) (adv : Pool.Advance t s.pool st p m)
      (shown : s.strides l = [⟨t, st, m⟩]) (same : p.SameWorkers s'.pool)
      (stages : s'.scene.stage? = update s.scene.stage? t m.stage?)
  /-- A call of the pool begins, as task `t`. The new tasks from `n` on are to tear down the dead
  workers that it has found. -/
  | begin (t : TaskId) (call : PoolCall) (p q : Pool) (dead : List Nat) (m : Move) (n : TaskId)
      (shown : s.strides l = []) (before : s.pool.SameWorkers p)
      (opening : Pool.Opening t p call q dead m) (after : q.SameWorkers s'.pool)
      (may : l = .call (.pool call) ∨ call.Inner) (single : s.pool.tracked.Nodup → dead.Nodup)
      (free : s.scene.stage? t = none) (fresh : ∀ u, n ≤ u → s.scene.stage? u = none) (begun : t < n)
      (stages : ∀ u, s'.scene.stage? u =
        if u < n then update s.scene.stage? t m.stage? u else dead[u - n]?.map .reap)

/-! ## Tasks that are through with the pool -/

theorem stage?_congr (h : d.tasks = s.tasks) : d.scene.stage? = s.scene.stage? := by
  funext u
  simp only [scene, stage?, h]

@[simp] theorem tasks_dropSlot (u : TaskId) : (s.dropSlot u).tasks = s.tasks := by
  unfold dropSlot
  split <;> rfl

@[simp] theorem nextTask_dropSlot (u : TaskId) : (s.dropSlot u).nextTask = s.nextTask := by
  unfold dropSlot
  split <;> rfl

theorem sameWorkers_dropSlot (u : TaskId) : s.pool.SameWorkers (s.dropSlot u).pool := by
  unfold dropSlot
  split
  · exact .refl _
  · exact .dropped

theorem sameWorkers_countUp (i : Nat) : s.pool.SameWorkers (s.countUp i).pool :=
  .touch (g := fun k => { k with executionCount := k.executionCount + 1 }) fun _ => rfl

/-- What a step does from outside does not concern the workers. -/
theorem sameWorkers_stir (s : Services) (l : Label) : s.pool.SameWorkers (s.stir l).pool := by
  refine .of_alike (alike_stir s l) fun i => ?_
  cases l with
  | resume t =>
    simp only [stir]
    split
    · exact Pool.calls_modify fun _ => rfl
    · rfl
  | alive | deliver | renew => exact Pool.calls_modify fun _ => rfl
  | call | answer | submitted | replied | expire | pass => rfl

/-- The task has left the pool, or was not in it, and no worker is concerned. -/
structure Rests (t : TaskId) (s s' : Services) : Prop where
  same : s.pool.SameWorkers s'.pool
  stages : s'.scene.stage? = update s.scene.stage? t none

namespace Rests

/-- What is done before to slots, counts and results does not matter. -/
theorem after (same : s.pool.SameWorkers d.pool) (tasks : d.tasks = s.tasks) (h : Rests t d s') :
    Rests t s s' :=
  ⟨same.trans h.same, by rw [h.stages, stage?_congr tasks]⟩

theorem finish (r : Reply) : Rests t s (s.finish t r) := by
  refine ⟨.refl _, ?_⟩
  funext u
  by_cases hu : u = t
  · subst hu
    simp [scene, Services.finish, stage?]
  · simp [scene, Services.finish, stage?, Function.update_of_ne hu, Table.get?_erase_of_ne hu]

theorem setTask {a : Activity} (outside : a.stage? = none) : Rests t s (s.setTask t a) := by
  refine ⟨.refl _, ?_⟩
  rw [scene_setTask, stage?_setAct, lifted, stage?_setAct, Function.update_idem]
  exact congrArg _ outside

theorem conclude (k : Sink) (r : ExecutionResult) : Rests t s (s.conclude t k r) :=
  .after (d := s.remember r) (.refl _) rfl (.finish _)

theorem dropped (h : Rests t (s.dropSlot u) s') : Rests t s s' :=
  .after (sameWorkers_dropSlot u) (tasks_dropSlot u) h

theorem execute (i : Nat) (x : Execution) : Rests t s (s.execute t i x) := by
  unfold Services.execute
  dsimp only
  split
  · exact .dropped (.conclude _ _)
  · exact .setTask rfl

theorem list (i : Nat) : Rests t s (s.list t i) := by
  unfold Services.list
  split
  · exact .dropped (.finish _)
  · exact .setTask rfl

/-- An operation that ends leaves the pool, whatever it was for. -/
theorem move (w : Work) (o : Outcome) : Rests t s (s.move t w (.finish o)) := by
  by_cases ho : ∃ i, o = .slot i
  · obtain ⟨i, rfl⟩ := ho
    refine .after (d := { s with slots := s.slots.set t i }) (.refl _) rfl ?_
    cases w with
    | execution x => exact .execute i x
    | introspection => exact .list i
    | operation | listing | stream | submission => exact .finish _
  · cases w with
    | execution x =>
      cases o with
      | slot i => exact absurd ⟨i, rfl⟩ ho
      | done | kernel | kernels | removed | flag | channel | failed => exact .conclude _ _
    | operation | introspection | listing | stream | submission =>
      cases o with
      | slot i => exact absurd ⟨i, rfl⟩ ho
      | done | kernel | kernels | removed | flag | channel | failed => exact .finish _

/-- A task that was outside the pool and is outside it still. -/
theorem calm (h : Rests t s s') (shown : s.strides l = []) (outside : s.scene.stage? t = none) :
    Deed s l s' :=
  .calm shown h.same (h.stages.trans (update_eq_self outside))

end Rests

/-- The services go on as the move says. -/
theorem moved (p : Pool) (w : Work) (m : Move) :
    p.SameWorkers (({ s with pool := p } : Services).move t w m).pool ∧
      (({ s with pool := p } : Services).move t w m).scene.stage? =
        update s.scene.stage? t m.stage? := by
  cases m with
  | wait st =>
    refine ⟨.refl _, ?_⟩
    rw [move, scene_setTask, stage?_setAct, lifted, stage?_setAct, Function.update_idem]
    rfl
  | finish o =>
    have h := Rests.move (s := { s with pool := p }) (t := t) w o
    exact ⟨h.same, h.stages⟩

/-! ## Calls of the pool -/

/-- The services with one more task, which is to tear a dead worker down. -/
def spawn (s : Services) (i : Nat) : Services :=
  { s with
    tasks := s.tasks.set s.nextTask (.pool .operation (.reap i))
    nextTask := s.nextTask + 1 }

@[simp] theorem pool_reap (dead : List Nat) : (s.reap dead).pool = s.pool := by
  induction dead generalizing s with
  | nil => rfl
  | cons i r ih => exact ih (s := s.spawn i)

/-- The new tasks that tear dead workers down come one after the other. -/
theorem stage?_reap (dead : List Nat) (fresh : ∀ u, s.nextTask ≤ u → s.scene.stage? u = none) :
    (s.reap dead).scene.stage? u =
      if u < s.nextTask then s.scene.stage? u else dead[u - s.nextTask]?.map .reap := by
  -- the first of the dead gets the next task, so that the others are counted from one further
  induction dead generalizing s with
  | nil =>
    split
    · rfl
    · next h => exact fresh u (Nat.le_of_not_lt h)
  | cons i r ih =>
    have old : ∀ v, v ≠ s.nextTask → (s.spawn i).scene.stage? v = s.scene.stage? v := by
      intro v hv
      simp [spawn, scene, stage?, Table.get?_set_of_ne hv]
    have fresh' : ∀ v, (s.spawn i).nextTask ≤ v → (s.spawn i).scene.stage? v = none := by
      intro v hv
      exact (old v (Nat.ne_of_gt hv)).trans (fresh v (Nat.le_of_succ_le hv))
    refine (ih fresh').trans ?_
    show (if u < s.nextTask + 1 then _ else r[u - (s.nextTask + 1)]?.map Stage.reap) = _
    rcases Nat.lt_trichotomy u s.nextTask with hlt | rfl | hgt
    · rw [if_pos (Nat.lt_succ_of_lt hlt), if_pos hlt]
      exact old u (Nat.ne_of_lt hlt)
    · rw [if_pos (Nat.lt_succ_self _), if_neg (Nat.lt_irrefl _), Nat.sub_self]
      simp [spawn, scene, stage?, Activity.stage?]
    · have hk : u - s.nextTask = u - (s.nextTask + 1) + 1 :=
        (Nat.succ_pred_eq_of_pos (Nat.sub_pos_of_lt hgt)).symm
      rw [if_neg (Nat.not_lt.mpr hgt), if_neg (Nat.lt_asymm hgt), hk, List.getElem?_cons_succ]

theorem nextTask_execute (i : Nat) (x : Execution) : (s.execute t i x).nextTask = s.nextTask := by
  unfold execute
  dsimp only
  split
  · exact nextTask_dropSlot t
  · rfl

theorem nextTask_list (i : Nat) : (s.list t i).nextTask = s.nextTask := by
  unfold list
  split
  · exact nextTask_dropSlot t
  · rfl

theorem nextTask_move (m : Move) : (s.move t w m).nextTask = s.nextTask := by
  cases m with
  | wait => rfl
  | finish o =>
    cases o with
    | slot i =>
      cases w with
      | execution x => exact nextTask_execute i x
      | introspection => exact nextTask_list i
      | operation | listing | stream | submission => rfl
    | done | kernel | kernels | removed | flag | channel | failed => cases w <;> rfl

theorem deed_startPool {call : PoolCall} (shown : s.strides l = [])
    (same : s.pool.SameWorkers d.pool) (tasks : d.tasks = s.tasks)
    (may : l = .call (.pool call) ∨ call.Inner) (free : s.scene.stage? t = none)
    (fresh : ∀ u, d.nextTask ≤ u → s.tasks.get? u = none) (begun : t < d.nextTask) :
    Deed s l (d.startPool t w call) := by
  let b := d.pool.start d.catalog t call
  let e : Services := ({ d with pool := b.pool } : Services).move t w b.move
  obtain ⟨after, moves⟩ := moved (s := d) (t := t) b.pool w b.move
  have hnext : e.nextTask = d.nextTask := nextTask_move b.move
  have stage : ∀ u, e.scene.stage? u = update s.scene.stage? t b.move.stage? u := by
    intro u
    rw [← stage?_congr tasks]
    exact congrFun moves u
  have fresh' : ∀ u, e.nextTask ≤ u → e.scene.stage? u = none := by
    intro u hu
    rw [hnext] at hu
    have hut : u ≠ t := Nat.ne_of_gt (Nat.lt_of_lt_of_le begun hu)
    rw [stage u, Function.update_of_ne hut]
    simp [scene, stage?, fresh u hu]
  refine .begin t call d.pool b.pool b.dead b.move d.nextTask shown same Pool.opening_of_start ?_ may
    (fun single => Pool.nodup_dead d.catalog (same.tracked ▸ single)) free ?_ begun ?_
  · show b.pool.SameWorkers (e.reap b.dead).pool
    rw [pool_reap]
    exact after
  · intro u hu
    simp [scene, stage?, fresh u hu]
  · intro u
    rw [← stage u, ← hnext]
    exact stage?_reap b.dead fresh'

/-! ## Tasks outside the pool -/

theorem stage_of_outside {a : Activity} (was : s.tasks.get? t = some a) (outside : a.stage? = none) :
    s.scene.stage? t = none := by
  show (s.tasks.get? t).bind Activity.stage? = none
  rw [was]
  exact outside

theorem deed_endStream (outside : s.scene.stage? t = none) (shown : s.strides l = [])
    (same : s.pool.SameWorkers d.pool) (tasks : d.tasks = s.tasks) (next : d.nextTask = s.nextTask)
    (fresh : s.scene.Fresh) (begun : t < s.nextTask) (i : Nat) (w : Work) :
    Deed s l (d.endStream t i w) := by
  have rests : ∀ {s'}, Rests t d s' → Deed s l s' :=
    fun h => (h.after same tasks).calm shown outside
  cases w with
  | execution x =>
    let e := (d.counting i x).dropSlot t
    have count : d.pool.SameWorkers (d.counting i x).pool ∧ (d.counting i x).tasks = d.tasks ∧
        (d.counting i x).nextTask = d.nextTask := by
      unfold counting
      split
      · exact ⟨.refl _, rfl, rfl⟩
      · exact ⟨sameWorkers_countUp i, rfl, rfl⟩
    have same' : d.pool.SameWorkers e.pool := count.1.trans (sameWorkers_dropSlot t)
    have tasks' : e.tasks = d.tasks := (tasks_dropSlot t).trans count.2.1
    have next' : e.nextTask = s.nextTask := (nextTask_dropSlot t).trans (count.2.2.trans next)
    rw [endStream_eq]
    split
    · -- the transport has failed: the execution goes on as a call to remove the kernel if it is dead
      exact deed_startPool shown (same.trans same') (tasks'.trans tasks) (.inr trivial) outside
        (fun u hu => fresh.act u (Nat.le_trans (Nat.le_of_eq next'.symm) hu)) (next' ▸ begun)
    · exact rests (.after same' tasks' (.conclude _ _))
  | listing => exact rests (.dropped (.finish _))
  | stream | operation | introspection | submission => exact rests (.finish _)

theorem deed_receive (outside : s.scene.stage? t = none) (shown : s.strides l = [])
    (same : s.pool.SameWorkers d.pool) (tasks : d.tasks = s.tasks) (next : d.nextTask = s.nextTask)
    (fresh : s.scene.Fresh) (begun : t < s.nextTask) (w : Work) (i : Nat) (r : RequestId)
    (m : Mail) : Deed s l (d.receive t w i r m) := by
  have rests : ∀ {s'}, Rests t d s' → Deed s l s' :=
    fun h => (h.after same tasks).calm shown outside
  unfold receive
  split
  · exact rests (.setTask rfl)
  · exact rests (.setTask rfl)
  · exact deed_endStream outside shown same tasks next fresh begun i w
  · exact deed_endStream outside shown same tasks next fresh begun i _

theorem deed_start (fresh : s.scene.Fresh) (c : Call) :
    Deed s (.call c) (({ s with nextTask := s.nextTask + 1 } : Services).start s.nextTask c) := by
  let d : Services := { s with nextTask := s.nextTask + 1 }
  have outside : s.scene.stage? s.nextTask = none := by
    have hact := fresh.act s.nextTask (Nat.le_refl _)
    simp [stage?, hact]
  have unborn : ∀ u, s.nextTask + 1 ≤ u → s.tasks.get? u = none :=
    fun u hu => fresh.act u (Nat.le_of_succ_le hu)
  have rests : ∀ {s'}, Rests s.nextTask d s' → Deed s (.call c) s' :=
    fun h => (Rests.after (s := s) (d := d) (.refl _) rfl h).calm rfl outside
  cases c with
  | pool c =>
    exact deed_startPool rfl (.refl _) rfl (.inl rfl) outside unborn (Nat.lt_succ_self _)
  | record slot =>
    simp only [start]
    split
    · exact rests (.finish _)
    · next i hi => exact rests (.after (d := d.countUp i) (sameWorkers_countUp i) rfl (.finish _))
  | count slot =>
    simp only [start]
    split <;> exact rests (.finish _)
  | release slot =>
    simp only [start]
    split
    · exact rests (.finish _)
    · exact rests (.dropped (.finish _))
  | execute request sink =>
    exact deed_startPool rfl (.refl _) rfl (.inr trivial) outside unborn (Nat.lt_succ_self _)
  | introspect id =>
    exact deed_startPool rfl (.refl _) rfl (.inr trivial) outside unborn (Nat.lt_succ_self _)
  | result id =>
    simp only [start]
    split <;> exact rests (.finish _)
  | submit | stream | query => exact rests (.setTask rfl)
  | list i => exact rests (.list i)

/-! A task outside the pool stays outside, or removes a kernel after a failure of the transport. -/

variable {a : Activity}

theorem deed_resume (still : a.stage? = none) (was : s.tasks.get? t = some a)
    (fresh : s.scene.Fresh) (shown : s.strides l = []) (h : s.resume t a = some s') :
    Deed s l s' := by
  cases a with
  | pool => cases still
  | receiving w i r =>
    have outside : s.scene.stage? t = none := stage_of_outside was still
    simp only [resume] at h
    split at h
    · cases h
    · next m rest _ =>
      obtain rfl := Option.some.inj h
      let d : Services := { s with pool := s.pool.modify i ({ · with mail := rest }) }
      have same : s.pool.SameWorkers d.pool :=
        .of_alike (.modify _ _ (fun _ => rfl) (fun _ => rfl) fun _ => rfl)
          fun _ => Pool.calls_modify fun _ => rfl
      exact deed_receive (d := d) outside shown same rfl rfl fresh (fresh.lt_of_act was) w i r m
  | submitting | querying | pausing => simp [resume] at h

theorem deed_answer {ans : Answer} (still : a.stage? = none) (was : s.tasks.get? t = some a)
    (fresh : s.scene.Fresh) (shown : s.strides l = []) (h : s.answer t a ans = some s') :
    Deed s l s' := by
  have outside : s.scene.stage? t = none := stage_of_outside was still
  have rests : ∀ {s'}, Rests t s s' → Deed s l s' := fun h => h.calm shown outside
  cases a with
  | pool => cases still
  | submitting w i code =>
    cases ans with
    | failed f =>
      cases w with
      | execution x =>
        obtain rfl := Option.some.inj h
        exact rests (.dropped (.conclude _ _))
      | operation | introspection | listing | stream | submission =>
        obtain rfl := Option.some.inj h
        exact rests (.dropped (.finish _))
    | ok | elapsed => simp [answer] at h
  | querying i r =>
    cases ans with
    | failed f =>
      obtain rfl := Option.some.inj h
      exact rests (.finish _)
    | ok | elapsed => simp [answer] at h
  | receiving w i r =>
    cases ans with
    | failed f =>
      obtain rfl := Option.some.inj h
      exact deed_receive outside shown (.refl _) rfl rfl fresh (fresh.lt_of_act was) w i r _
    | elapsed =>
      obtain rfl := Option.some.inj h
      exact rests (.setTask rfl)
    | ok => simp [answer] at h
  | pausing w i r =>
    cases ans with
    | elapsed =>
      obtain rfl := Option.some.inj h
      exact rests (.setTask rfl)
    | ok | failed => simp [answer] at h

theorem deed_accept {r : RequestId} (still : a.stage? = none) (was : s.tasks.get? t = some a)
    (shown : s.strides l = []) (h : s.accept t r a = some s') : Deed s l s' := by
  have rests : ∀ {s'}, Rests t s s' → Deed s l s' :=
    fun h => h.calm shown (stage_of_outside was still)
  cases a with
  | submitting w i code =>
    cases w with
    | submission =>
      obtain rfl := Option.some.inj h
      exact rests (.finish _)
    | operation | execution | introspection | listing | stream =>
      obtain rfl := Option.some.inj h
      exact rests (.setTask rfl)
  | pool | querying | receiving | pausing => simp [accept] at h

theorem deed_take {v : Json} (still : a.stage? = none) (was : s.tasks.get? t = some a)
    (shown : s.strides l = []) (h : s.take t v a = some s') : Deed s l s' := by
  cases a with
  | querying =>
    obtain rfl := Option.some.inj h
    exact (Rests.finish _).calm shown (stage_of_outside was still)
  | pool | submitting | receiving | pausing => simp [take] at h

theorem deed_expire (still : a.stage? = none) (was : s.tasks.get? t = some a)
    (shown : s.strides l = []) (h : s.expire t a = some s') : Deed s l s' := by
  cases a with
  | receiving w | pausing w =>
    cases w with
    | listing =>
      obtain rfl := Option.some.inj h
      exact (Rests.dropped (.finish _)).calm shown (stage_of_outside was still)
    | operation | execution | introspection | stream | submission => simp [expire] at h
  | pool | submitting | querying => simp [expire] at h

/-! ## Whole steps -/

/-- What a step does to the workers, and where the tasks stand after it. -/
theorem deed_of_step (fresh : s.scene.Fresh) (step : s.step l = some s') : Deed s l s' := by
  cases hl : l.task? with
  | none =>
    cases l with
    | call c => exact Option.some.inj step ▸ deed_start fresh c
    | alive i b =>
      obtain rfl := Option.some.inj step
      exact .calm rfl (sameWorkers_stir s (.alive i b)) rfl
    | deliver i m =>
      obtain rfl := Option.some.inj step
      exact .calm rfl (sameWorkers_stir s (.deliver i m)) rfl
    | renew i =>
      obtain rfl := Option.some.inj step
      exact .calm rfl (sameWorkers_stir s (.renew i)) rfl
    | pass n =>
      obtain rfl := Option.some.inj step
      exact .calm rfl (sameWorkers_stir s (.pass n)) rfl
    | resume | answer | submitted | replied | expire => cases hl
  | some t =>
    obtain ⟨a, ha, h⟩ := activity_of_step hl step
    by_cases inside : ∃ w st, a = .pool w st
    · obtain ⟨w, st, rfl⟩ := inside
      obtain ⟨p, m, adv, rfl, -, shown⟩ := move_of_step hl ha step
      obtain ⟨same, stages⟩ := moved (s := s) (t := t) p w m
      exact .stride t w st p m hl ha adv shown same stages
    · have aside : a.stage? = none := by
        cases a with
        | pool w st => exact absurd ⟨w, st, rfl⟩ inside
        | submitting | querying | receiving | pausing => rfl
      have shown : s.strides l = [] := strides_eq_nil fun u b hu hb => by
        obtain rfl := Option.some.inj (hl.symm.trans hu)
        exact Option.some.inj (ha.symm.trans hb) ▸ aside
      rcases h with ⟨-, h⟩ | ⟨ans, -, h⟩ | ⟨r, -, h⟩ | ⟨v, -, h⟩ | ⟨-, h⟩
      · exact deed_resume aside ha fresh shown h
      · exact deed_answer aside ha fresh shown h
      · exact deed_accept aside ha shown h
      · exact deed_take aside ha shown h
      · exact deed_expire aside ha shown h

/-! ## Runs -/

/-- What holds at first and is kept by every step from a state that the run comes to, holds at last. -/
theorem run_induction {ls : List Label} {I : List Label → Services → Prop} (first : I [] s)
    (next : ∀ before l d d', s.run before = some d → d.step l = some d' → I before d →
      I (before ++ [l]) d')
    (run : s.run ls = some s') : I ls s' := by
  induction ls using List.reverseRecOn generalizing s' with
  | nil => exact Option.some.inj run ▸ first
  | append_singleton before l ih =>
    rw [run_append] at run
    obtain ⟨d, hd, step⟩ := Option.bind_eq_some_iff.mp run
    obtain ⟨d', hd', hrun⟩ := Option.bind_eq_some_iff.mp step
    obtain rfl := Option.some.inj hrun
    exact next before l d d' hd hd' (ih hd)

end Services
end NotebookKernels
