import NotebookKernels.Proofs.Service.Course

/- A step as what one task does inside the pool, and the calm rest.

   In a step at most one task goes on inside an operation of the pool, and it does so once: this is the
   step's stride. All other turns of the step are calm: calls begin, slots are given up, executions are
   counted and calls are answered, but no operation that has begun goes on. `parts_of_step` takes a
   step apart in this way. Two inductions over runs follow from it:
     1. `strides_run` keeps an invariant of the scene and of the strides so far;
     2. `operation_run` follows one operation of the pool from its first stage to its end, and keeps an
        invariant of its stage, the pool and the strides so far.
   What it has kept when the operation replies is found by `outcome_of_returned`, and by
   `exists_last_stride` where the outcome is known. -/
namespace NotebookKernels

namespace Label

/-- The label of a step in which no task goes on. -/
def still : Label → Label
  | .call c => .call c
  | _ => .pass 0

@[simp] theorem task?_still (l : Label) : l.still.task? = none := by cases l <;> rfl

theorem eq_of_still_eq_call {l : Label} {c : Call} (h : l.still = .call c) : l = .call c := by
  cases l with
  | call => exact h
  | _ => cases h

end Label

namespace Services

open Scene

variable {s s' : Services} {l : Label} {ls : List Label} {t : TaskId} {seen : List Stride}

/-- The parts of a step with these strides. -/
inductive Parts (s : Services) (l : Label) (s' : Services) : List Stride → Prop
  /-- No task goes on inside the pool. -/
  | calm (turns : Turns l.still (s.actor l) (s.stir l).scene s'.scene) : Parts s l s' []
  /-- The task that the step is made for goes on inside the pool. -/
  | stride (t : TaskId) (w : Work) (st : Stage) (p : Pool) (m : Move) (own : l.task? = some t)
      (was : s.scene.act t = some (.pool w st)) (adv : Pool.Advance t s.scene.pool st p m)
      (turns : Turns l.still t (s.scene.goOn t w p m) s'.scene) : Parts s l s' [⟨t, st, m⟩]

/-- A step in which no task goes on inside the pool is calm. -/
theorem turns_still (fresh : s.scene.Fresh) (step : s.step l = some s')
    (outside : ∀ t a, l.task? = some t → s.tasks.get? t = some a → a.stage? = none) :
    Turns l.still (s.actor l) (s.stir l).scene s'.scene := by
  cases l with
  | call c => exact turns_of_step fresh step
  | resume t =>
    obtain ⟨a, was, h⟩ := Option.bind_eq_some_iff.mp step
    exact turns_resume was (.inl (outside t a rfl was)) (fresh.owed _ _ was) h
  | answer t ans =>
    obtain ⟨a, was, h⟩ := Option.bind_eq_some_iff.mp step
    exact turns_answer was (.inl (outside t a rfl was)) (fresh.owed _ _ was) h
  | submitted t r =>
    obtain ⟨a, was, h⟩ := Option.bind_eq_some_iff.mp step
    exact turns_accept was h
  | replied t v =>
    obtain ⟨a, was, h⟩ := Option.bind_eq_some_iff.mp step
    exact turns_take was h
  | expire t =>
    obtain ⟨a, was, h⟩ := Option.bind_eq_some_iff.mp step
    exact turns_expire was (fresh.owed _ _ was) h
  | alive | deliver | renew | pass =>
    obtain rfl := Option.some.inj step
    exact .refl

theorem strides_eq_nil
    (outside : ∀ t a, l.task? = some t → s.tasks.get? t = some a → a.stage? = none) :
    s.strides l = [] := by
  cases l with
  | resume t | answer t =>
    simp only [strides]
    split
    · next w st was => exact absurd (outside t _ rfl was) (by simp [Activity.stage?])
    · rfl
  | _ => rfl

/-- A step is its stride and calm turns. -/
theorem parts_of_step (fresh : s.scene.Fresh) (step : s.step l = some s') :
    Parts s l s' (s.strides l) := by
  by_cases inside : ∃ t w st, l.task? = some t ∧ s.tasks.get? t = some (.pool w st)
  · obtain ⟨t, w, st, own, was⟩ := inside
    obtain ⟨p, m, adv, rfl, -, hstrides⟩ := move_of_step own was step
    rw [hstrides]
    exact .stride t w st p m own was adv (turns_move p m (fresh.owed _ _ was))
  · have outside : ∀ t a, l.task? = some t → s.tasks.get? t = some a → a.stage? = none := by
      intro t a own was
      cases a with
      | pool w st => exact absurd ⟨t, w, st, own, was⟩ inside
      | submitting | querying | receiving | pausing => rfl
    rw [strides_eq_nil outside]
    exact .calm (turns_still fresh step outside)

/-- What holds after what a step does from outside, or after its stride, and is kept by the calm turns
of its task, holds after the step. -/
theorem strides_step {I : List Stride → Scene → Prop} (seen : List Stride) (sound : s.scene.Sound)
    (step : s.step l = some s') (stirred : I seen (s.stir l).scene)
    (stride : ∀ t w st p m, l.task? = some t → s.scene.act t = some (.pool w st) →
      Pool.Advance t s.scene.pool st p m → I (seen ++ [⟨t, st, m⟩]) (s.scene.goOn t w p m))
    (calm : ∀ seen c c', c.Sound → Turn l.still (s.actor l) c c' → I seen c → I seen c') :
    I (seen ++ s.strides l) s'.scene := by
  have parts := parts_of_step sound.fresh step
  generalize s.strides l = xs at parts
  cases parts with
  | calm turns =>
    rw [List.append_nil]
    rcases actor_lt sound.fresh step with hlt | rfl
    · exact (turns.keeps (sound_stir sound l) hlt stirred fun c c' hc _ => calm seen c c' hc).2.2
    · exact stirred
  | stride t w st p m own was adv turns =>
    have ht := sound.fresh.lt_of_act was
    have hactor : s.actor l = t := by simp [actor, own]
    have gone : (s.scene.goOn t w p m).Sound := sound.turn ht (.advance w st p m was adv own)
    refine (turns.keeps gone ht (stride t w st p m own was adv) fun c c' hc _ => ?_).2.2
    exact hactor ▸ calm _ c c' hc

/-- What the permitted steps keep from outside, in their strides and in their calm turns, a run of them
keeps. -/
theorem strides_run {I : List Stride → Scene → Prop} {P : Label → Prop}
    (stirred : ∀ seen (s : Services) l, I seen s.scene → I seen (s.stir l).scene)
    (stride : ∀ seen c t w st p m, c.Sound → c.act t = some (.pool w st) →
      Pool.Advance t c.pool st p m → I seen c → I (seen ++ [⟨t, st, m⟩]) (c.goOn t w p m))
    (calm : ∀ seen l t c c', P l → c.Sound → Turn l.still t c c' → I seen c → I seen c')
    (permitted : ∀ l ∈ ls, P l) (sound : s.scene.Sound) (h : I [] s.scene)
    (run : s.run ls = some s') : s'.scene.Sound ∧ I (s.gather strides ls) s'.scene := by
  refine run_gathers (I := fun seen s => s.scene.Sound ∧ I seen s.scene) ?_ permitted []
    ⟨sound, h⟩ run
  intro seen s l s' hl h step
  refine ⟨sound_step h.1 step, strides_step seen h.1 step (stirred seen s l h.2) ?_ ?_⟩
  · intro t w st p m _ was adv
    exact stride seen s.scene t w st p m h.1 was adv h.2
  · intro seen c c' sound turn hc
    exact calm seen l _ c c' hl sound turn hc

/-- After a move of one task, another stands where it stood. -/
theorem stage_of_goOn {c : Scene} {w : Work} {p : Pool} {m : Move} {u : TaskId} {st : Stage}
    (hu : (c.goOn t w p m).stage? u = some st) :
    (u = t ∧ m = .wait st) ∨ (u ≠ t ∧ c.stage? u = some st) := by
  rw [stage?_goOn] at hu
  by_cases hut : u = t
  · rw [hut, Function.update_self] at hu
    cases m with
    | wait => exact .inl ⟨hut, congrArg Move.wait (Option.some.inj hu)⟩
    | finish => cases hu
  · rw [Function.update_of_ne hut] at hu
    exact .inr ⟨hut, hu⟩

/-- After a calm turn a task stands where it stood, or a call of its own has just begun, or it is a new
task that is to tear a dead worker down. -/
theorem stage_of_calm {c c' : Scene} {u : TaskId} {st : Stage} (turn : Turn l.still t c c')
    (hu : c'.stage? u = some st) :
    c.stage? u = some st ∨
      (u = t ∧ ∃ call p dead, c'.pool = p ∧ Pool.Opening t c.pool call p dead (.wait st)) ∨
      ∃ i, st = .reap i := by
  -- an activity outside the pool has no stage
  have aside : ∀ {a : Option Activity}, a.bind Activity.stage? = none →
      (c.setAct t a).stage? u = some st → c.stage? u = some st := by
    intro a ha hu
    rw [stage?_setAct, ha] at hu
    by_cases hut : u = t
    · rw [hut, Function.update_self] at hu
      cases hu
    · rwa [Function.update_of_ne hut] at hu
  cases turn with
  | rise a was outside => exact .inl (aside rfl hu)
  | carry a risen outside => exact .inl (aside (a := some a) outside hu)
  | shift a b was outside still => exact .inl (aside (a := some b) still hu)
  | count | drop | reply => exact .inl hu
  | advance _ _ _ _ _ _ own => exact absurd own (by simp)
  | begin w call p dead m may risen free step =>
    rcases stage_of_goOn hu with ⟨rfl, rfl⟩ | ⟨-, hu⟩
    · exact .inr (.inl ⟨rfl, call, p, dead, rfl, step⟩)
    · exact .inl hu
  | reap i there =>
    rw [stage?_spawn] at hu
    by_cases hun : u = c.next
    · rw [hun, Function.update_self] at hu
      exact .inr (.inr ⟨i, (Option.some.inj hu).symm⟩)
    · rw [Function.update_of_ne hun] at hu
      exact .inl hu

/-- A calm turn leaves every task inside the pool where it stands. -/
theorem stage_of_still {c c' : Scene} {u : TaskId} {st : Stage} (sound : c.Sound)
    (turn : Turn l.still t c c') (hu : c.stage? u = some st) : c'.stage? u = some st := by
  have aside : ∀ {v : TaskId} {a : Option Activity}, c.stage? v = none →
      (c.setAct v a).stage? u = some st := by
    intro v a hv
    have huv : u ≠ v := by
      rintro rfl
      exact absurd (hv.symm.trans hu) (by simp)
    rw [stage?_setAct, Function.update_of_ne huv, hu]
  cases turn with
  | rise a was outside => exact aside (by simp [stage?, was, outside])
  | carry a risen outside => exact aside (by simp [stage?, risen])
  | shift a b was outside => exact aside (by simp [stage?, was, outside])
  | count | drop | reply => exact hu
  | advance _ _ _ _ _ _ own => exact absurd own (by simp)
  | begin w call p dead m may risen free step =>
    have hut : u ≠ t := by
      rintro rfl
      simp [stage?, risen] at hu
    rw [stage?_goOn, Function.update_of_ne hut, hu]
  | reap i there =>
    have hnone := sound.fresh.act c.next (Nat.le_refl _)
    exact aside (v := c.next) (a := some (.pool .operation (.reap i))) (by simp [stage?, hnone])

/-- A task comes to a stage inside an operation by a stride of its own. -/
theorem stride_of_arrives {st : Stage} (sound : s.scene.Sound) (step : s.step l = some s')
    (before : s.scene.stage? t ≠ some st) (after : s'.scene.stage? t = some st)
    (inner : ∀ c p p' dead, ¬Pool.Opening t p c p' dead (.wait st)) (grown : ∀ i, st ≠ .reap i) :
    l.task? = some t ∧ ∃ w su p, s.tasks.get? t = some (.pool w su) ∧
      Pool.Advance t s.scene.pool su p (.wait st) := by
  refine strides_step (I := fun _ c => c.stage? t = some st → _) [] sound step ?_ ?_ ?_ after
  · intro h
    rw [scene_stir] at h
    exact absurd h before
  · intro u w su p m hu was adv h
    rcases stage_of_goOn h with ⟨rfl, rfl⟩ | ⟨-, h⟩
    · exact ⟨hu, w, su, p, was, adv⟩
    · exact absurd h before
  · intro seen c c' _ turn hc h
    rcases stage_of_calm turn h with h | ⟨rfl, call, p, dead, -, opening⟩ | ⟨j, hj⟩
    · exact hc h
    · exact absurd opening (inner _ _ _ _)
    · exact absurd hj (grown j)

/-- A task that waits for no answer goes on when it is resumed. -/
theorem resumed_of_own {w : Work} {st : Stage} (own : l.task? = some t)
    (was : s.tasks.get? t = some (.pool w st)) (silent : ∀ a, s.pool.answer t st a = none)
    (step : s.step l = some s') : l = .resume t := by
  obtain ⟨a, ha, h⟩ := activity_of_step own step
  obtain rfl := Option.some.inj (was.symm.trans ha)
  rcases h with ⟨rfl, -⟩ | ⟨ans, rfl, h⟩ | ⟨r, rfl, h⟩ | ⟨v, rfl, h⟩ | ⟨rfl, h⟩
  · rfl
  · simp [answer, silent] at h
  · simp [accept] at h
  · simp [take] at h
  · simp [expire] at h

end Services

namespace Scene

variable {l : Label} {t : TaskId} {c c' : Scene} {i : Nat}

/-- The entry is there, and nobody is to insert it any more. -/
structure Grown (i : Nat) (c : Scene) : Prop where
  has : c.pool.Has i
  unborn : ∀ u st, c.stage? u = some st → st.newborn? ≠ some i

namespace Grown

theorem of_tracked (sound : c.Sound) (there : i ∈ c.pool.tracked) : c.Grown i where
  has := sound.there i there
  unborn u st hu hn := sound.young u i (by simpa [newborn?, hu] using hn) there

theorem stride {w : Work} {st : Stage} {p : Pool} {m : Move} (h : c.Grown i)
    (hst : c.stage? t = some st) (adv : Pool.Advance t c.pool st p m) :
    (c.goOn t w p m).Grown i := by
  refine ⟨adv.has_iff.mpr h.has, fun u su hu hn => ?_⟩
  rcases Services.stage_of_goOn hu with ⟨rfl, rfl⟩ | ⟨-, hu⟩
  · exact h.unborn u st hst (adv.unborn hn)
  · exact h.unborn u su hu hn

theorem calm (h : c.Grown i) (turn : Turn l.still t c c') : c'.Grown i := by
  refine ⟨turn.has_mono h.has, fun u st hu hn => ?_⟩
  rcases Services.stage_of_calm turn hu with hu | ⟨rfl, call, p, dead, -, step⟩ | ⟨j, rfl⟩
  · exact h.unborn u st hu hn
  · exact step.unborn hn h.has
  · cases hn

theorem stir {s : Services} (h : s.scene.Grown i) : (s.stir l).scene.Grown i := by
  rw [Services.scene_stir]
  exact ⟨((Services.alike_stir s l).has i).mpr h.has, h.unborn⟩

end Grown
end Scene

namespace Services

open Scene

variable {s s' : Services} {l : Label} {ls : List Label} {t : TaskId} {seen : List Stride}

/-! ## One operation -/

/-- A task that is not in progress does not come back. -/
theorem ended_of_step (sound : s.scene.Sound) (ht : t < s.nextTask) (ended : s.tasks.get? t = none)
    (step : s.step l = some s') : s'.tasks.get? t = none := by
  by_cases hl : l.task? = some t
  · obtain ⟨a, ha, -⟩ := activity_of_step hl step
    exact absurd (ended.symm.trans ha) (by simp)
  · exact (frame_of_step sound ht hl step).1.trans ended

theorem ended_run (sound : s.scene.Sound) (ht : t < s.nextTask) (ended : s.tasks.get? t = none)
    (run : s.run ls = some s') : s'.tasks.get? t = none := by
  have hkeep := run_keeps (I := fun s => s.scene.Sound ∧ t < s.nextTask ∧ s.tasks.get? t = none)
    (P := fun _ => True) ?_ (fun _ _ => trivial) ⟨sound, ht, ended⟩ run
  · exact hkeep.2.2
  · rintro s l s' - ⟨sound, ht, ended⟩ step
    have hle := Nat.le_trans (nextTask_le_stir s l) (nextTask_le_step sound step)
    exact ⟨sound_step sound step, Nat.lt_of_lt_of_le ht hle, ended_of_step sound ht ended step⟩

theorem nextTask_le_run (sound : s.scene.Sound) (run : s.run ls = some s') :
    s.nextTask ≤ s'.nextTask := by
  have hkeep := run_keeps (I := fun d => d.scene.Sound ∧ s.nextTask ≤ d.nextTask)
    (P := fun _ => True) ?_ (fun _ _ => trivial) ⟨sound, Nat.le_refl _⟩ run
  · exact hkeep.2
  · rintro d l d' - ⟨sound, hle⟩ step
    have hle' := Nat.le_trans (nextTask_le_stir d l) (nextTask_le_step sound step)
    exact ⟨sound_step sound step, Nat.le_trans hle hle'⟩

/-- The reply of a task that is not in progress stays. -/
theorem reply_of_step (sound : s.scene.Sound) (ht : t < s.nextTask) (ended : s.tasks.get? t = none)
    (step : s.step l = some s') : s'.replies.get? t = s.replies.get? t := by
  by_cases hl : l.task? = some t
  · obtain ⟨a, ha, -⟩ := activity_of_step hl step
    exact absurd (ended.symm.trans ha) (by simp)
  · exact (frame_of_step sound ht hl step).2

theorem reply_run (sound : s.scene.Sound) (ht : t < s.nextTask) (ended : s.tasks.get? t = none)
    (run : s.run ls = some s') : s'.replies.get? t = s.replies.get? t := by
  have hkeep := run_keeps (I := fun d => d.scene.Sound ∧ t < d.nextTask ∧ d.tasks.get? t = none ∧
    d.replies.get? t = s.replies.get? t) (P := fun _ => True) ?_ (fun _ _ => trivial)
    ⟨sound, ht, ended, rfl⟩ run
  · exact hkeep.2.2.2
  · rintro d l d' - ⟨sound, ht, ended, reply⟩ step
    have hle := Nat.le_trans (nextTask_le_stir d l) (nextTask_le_step sound step)
    exact ⟨sound_step sound step, Nat.lt_of_lt_of_le ht hle, ended_of_step sound ht ended step,
      (reply_of_step sound ht ended step).trans reply⟩

/-- An operation of the pool goes on, or answers its caller. -/
theorem operation_of_step {st : Stage} (hl : l.task? = some t)
    (was : s.tasks.get? t = some (.pool .operation st)) (step : s.step l = some s') :
    ∃ p m, Pool.Advance t s.scene.pool st p m ∧ s.strides l = [⟨t, st, m⟩] ∧ s'.pool = p ∧
      ((∃ st', m = .wait st' ∧ s'.scene = s.scene.goOn t .operation p m) ∨
        ∃ o, m = .finish o ∧ s'.tasks.get? t = none ∧ s'.replies.get? t = some (.pool o)) := by
  obtain ⟨p, m, adv, rfl, -, hstrides⟩ := move_of_step hl was step
  refine ⟨p, m, adv, hstrides, ?_⟩
  cases m with
  | wait st' =>
    refine ⟨rfl, .inl ⟨st', rfl, ?_⟩⟩
    rw [move, scene_setTask]
    simp only [goOn, lifted, setAct, Function.update_idem]
    rfl
  | finish o =>
    have hmove : ∃ q : Services, q.pool = p ∧
        ({ s with pool := p } : Services).move t .operation (.finish o) = q.finish t (.pool o) := by
      cases o <;> exact ⟨_, rfl, rfl⟩
    obtain ⟨q, rfl, hmove⟩ := hmove
    rw [hmove]
    exact ⟨rfl, .inr ⟨o, rfl, Table.get?_erase_self .., Table.get?_set_self ..⟩⟩

/-- An operation of the pool replies with the outcome of its last stride. -/
theorem outcome_of_step {st : Stage} {reply : Reply} (sound : s.scene.Sound)
    (was : s.tasks.get? t = some (.pool .operation st)) (step : s.step l = some s')
    (returned : s'.replies.get? t = some reply) :
    ∃ o, reply = .pool o ∧ Pool.Advance t s.scene.pool st s'.pool (.finish o) := by
  by_cases hl : l.task? = some t
  · obtain ⟨p, m, adv, -, rfl, ⟨st', rfl, hgo⟩ | ⟨o, rfl, -, hreply⟩⟩ := operation_of_step hl was step
    · have hact : s'.scene.act t = some (.pool .operation st') := by
        rw [hgo]
        exact Function.update_self ..
      have owed := (sound_step sound step).fresh.owed t _ hact
      exact absurd (owed.symm.trans returned) (by simp)
    · exact ⟨o, Option.some.inj (returned.symm.trans hreply), adv⟩
  · have ht := sound.fresh.lt_of_act was
    have owed := sound.fresh.owed t _ was
    have same := (frame_of_step sound ht hl step).2
    exact absurd (owed.symm.trans (same.symm.trans returned)) (by simp)

/-- An operation of the pool answers its caller with its last stride. -/
theorem advance_of_returns {st : Stage} {o : Outcome} (sound : s.scene.Sound)
    (was : s.tasks.get? t = some (.pool .operation st)) (step : s.step l = some s')
    (returns : s'.replies.get? t = some (.pool o)) :
    Pool.Advance t s.scene.pool st s'.pool (.finish o) := by
  obtain ⟨o', ho, adv⟩ := outcome_of_step sound was step returns
  cases ho
  exact adv

/-- What the strides of an operation keep, and all else that happens in permitted steps, a run of them
keeps as long as the operation is in progress. -/
theorem operation_run {J : List Stride → Scene → Stage → Prop} {P : Label → Prop}
    (stirred : ∀ seen (s : Services) l st, J seen s.scene st → J seen (s.stir l).scene st)
    (own : ∀ seen (c : Scene) st p st', c.Sound → c.stage? t = some st →
      Pool.Advance t c.pool st p (.wait st') → J seen c st →
      J (seen ++ [⟨t, st, .wait st'⟩]) (c.goOn t .operation p (.wait st')) st')
    (other : ∀ seen (c : Scene) st u w su p m, c.Sound → c.stage? t = some st → u ≠ t →
      c.stage? u = some su → Pool.Advance u c.pool su p m → J seen c st →
      J (seen ++ [⟨u, su, m⟩]) (c.goOn u w p m) st)
    (calm : ∀ seen l u (c c' : Scene) st, P l → c.Sound → c.stage? t = some st →
      Turn l.still u c c' → J seen c st → J seen c' st)
    (permitted : ∀ l ∈ ls, P l) (sound : s.scene.Sound) (ht : t < s.nextTask)
    (h : ∃ st, s.tasks.get? t = some (.pool .operation st) ∧ J [] s.scene st)
    (run : s.run ls = some s') :
    s'.scene.Sound ∧ t < s'.nextTask ∧ (s'.tasks.get? t = none ∨
      ∃ st, s'.tasks.get? t = some (.pool .operation st) ∧
        J (s.gather strides ls) s'.scene st) := by
  refine run_gathers (P := P) (I := fun seen s => s.scene.Sound ∧ t < s.nextTask ∧
    (s.tasks.get? t = none ∨ ∃ st, s.tasks.get? t = some (.pool .operation st) ∧ J seen s.scene st))
    ?_ permitted [] ⟨sound, ht, .inr h⟩ run
  rintro seen s l s' hl ⟨sound, ht, h⟩ step
  have hle := Nat.le_trans (nextTask_le_stir s l) (nextTask_le_step sound step)
  refine ⟨sound_step sound step, Nat.lt_of_lt_of_le ht hle, ?_⟩
  rcases h with ended | ⟨st, was, hJ⟩
  · exact .inl (ended_of_step sound ht ended step)
  have hst : s.scene.stage? t = some st := Sound.stage_of_act was
  by_cases hown : l.task? = some t
  · obtain ⟨p, m, adv, hstrides, -, ⟨st', rfl, hgo⟩ | ⟨o, rfl, hend, -⟩⟩ :=
      operation_of_step hown was step
    · have hact : s'.scene.act t = some (.pool .operation st') := by
        rw [hgo]
        exact Function.update_self ..
      rw [hstrides, hgo]
      exact .inr ⟨st', hact, own seen s.scene st p st' sound hst adv hJ⟩
    · exact .inl hend
  · refine .inr ⟨st, (frame_of_step sound ht hown step).1.trans was, ?_⟩
    -- the task stays where it is while others go on
    have hkeep : t < s'.scene.next ∧ s'.scene.stage? t = some st ∧
        J (seen ++ s.strides l) s'.scene st := by
      refine strides_step (I := fun seen c => t < c.next ∧ c.stage? t = some st ∧ J seen c st)
        seen sound step ⟨Nat.lt_of_lt_of_le ht (nextTask_le_stir s l), ?_, stirred seen s l st hJ⟩ ?_ ?_
      · rw [scene_stir]
        exact hst
      · intro u w su p m hu was adv
        have hne : u ≠ t := fun hut => hown (hut ▸ hu)
        refine ⟨ht, ?_, other seen s.scene st u w su p m sound hst hne (Sound.stage_of_act was) adv hJ⟩
        rw [stage?_goOn, Function.update_of_ne hne.symm, hst]
      · rintro seen c c' hc turn ⟨hlt, hst, hJ⟩
        have hact := (frame_of_turn (actor_ne ht hown) hlt turn).1
        refine ⟨Nat.lt_of_lt_of_le hlt turn.next_le, ?_, calm seen l _ c c' st hl hc hst turn hJ⟩
        rw [stage?, hact]
        exact hst
    exact hkeep.2.2

/-- An operation that has replied did so with the outcome of its last stride. -/
theorem outcome_of_returned {J : Services → Stage → Prop} {reply : Reply} (sound : s.scene.Sound)
    (ht : t < s.nextTask) (owed : s.replies.get? t = none)
    (stands : ∀ mid d, s.run mid = some d → d.tasks.get? t = none ∨
      ∃ st, d.tasks.get? t = some (.pool .operation st) ∧ J d st)
    (run : s.run ls = some s') (returned : s'.replies.get? t = some reply) :
    ∃ o, reply = .pool o ∧ ∃ mid l rest d d' st, ls = mid ++ l :: rest ∧ s.run mid = some d ∧
      d.step l = some d' ∧ d'.run rest = some s' ∧ d.scene.Sound ∧
      d.tasks.get? t = some (.pool .operation st) ∧ J d st ∧
      d'.replies.get? t = some (.pool o) ∧ Pool.Advance t d.pool st d'.pool (.finish o) := by
  obtain ⟨mid, l, rest, d, d', hsplit, hmid, step, hrest, first, last⟩ :=
    run_reaches (Q := fun s => s.replies.get? t = some reply) (by simp [owed]) returned run
  have sound' := sound_run sound hmid
  rcases stands mid d hmid with ended | ⟨st, was, hJ⟩
  · have ht' : t < d.nextTask := Nat.lt_of_lt_of_le ht (nextTask_le_run sound hmid)
    exact absurd ((reply_of_step sound' ht' ended step).symm.trans last) first
  · obtain ⟨o, rfl, adv⟩ := outcome_of_step sound' was step last
    exact ⟨o, rfl, mid, l, rest, d, d', st, hsplit, hmid, step, hrest, sound', was, hJ, last, adv⟩

/-- An operation that has answered its caller did so with its last stride. -/
theorem exists_last_stride {J : Services → Stage → Prop} {o : Outcome} (sound : s.scene.Sound)
    (ht : t < s.nextTask) (owed : s.replies.get? t = none)
    (stands : ∀ mid d, s.run mid = some d → d.tasks.get? t = none ∨
      ∃ st, d.tasks.get? t = some (.pool .operation st) ∧ J d st)
    (run : s.run ls = some s') (returns : s'.replies.get? t = some (.pool o)) :
    ∃ mid l rest d d' st, ls = mid ++ l :: rest ∧ s.run mid = some d ∧ d.step l = some d' ∧
      d'.run rest = some s' ∧ d.scene.Sound ∧ d.tasks.get? t = some (.pool .operation st) ∧ J d st ∧
      d'.replies.get? t = some (.pool o) ∧ Pool.Advance t d.pool st d'.pool (.finish o) := by
  obtain ⟨o', ho, stride⟩ := outcome_of_returned sound ht owed stands run returns
  cases ho
  exact stride

end Services
end NotebookKernels
