import Mathlib.Data.List.Perm.Subperm
import NotebookKernels.Proofs.Service.Capacity
import NotebookKernels.Proofs.Service.Statuses
import NotebookKernels.Proofs.Service.Strides

/- Who wakes a call that waits for room.

   A call to create a kernel parks when all kernels of a full pool are starting or restarting. It takes
   a ticket before it looks, the number of wakes so far, and goes on when there was a wake since.
     1. `Advance.wakes`: a task that brings up or restarts a kernel goes on doing so, shuts the worker
        down or gives the kernel up after a failure, until it wakes those who wait;
     2. so while a parked call cannot go on by itself, each of the kernels that were tracked when it
        parked has a task that will wake it (`parked_awaited`).
   If these kernels are still tracked, and by their statuses starting or restarting, then the pool is
   still full of such kernels. They need not be: in `parked_with_room` the kernel that the parked call
   waits for is shut down, which wakes nobody. -/
namespace NotebookKernels

/-- How often waiters had been woken before the task asked for room. -/
def Errand.ticket? : Errand → Option Nat
  | .room _ n => some n
  | _ => none

namespace Stage

def ticket? : Stage → Option Nat
  | .structure e | .sweep e _ _ | .closing e _ _ _ | .stopping e _ _ _ => e.ticket?
  | .parked _ n => some n
  | _ => none

/-- The task has to do with the kernel of this entry, and wakes those who wait for room when it is
through: it brings the kernel up or restarts it, or has failed to. -/
def Wakes (i : Nat) : Stage → Prop
  | .starting j | .readying j | .abandoning j _ | .restartLock j | .restarting j
  | .restartReadying j => j = i
  | .structure e | .sweep e _ _ | .closing e _ _ _ | .stopping e _ _ _ => e.GivesUp (.fresh i)
  | _ => False

theorem Starts.wakes {s : Stage} {i : Nat} (h : s.Starts i) : s.Wakes i := by
  cases s with
  | starting | readying => exact h
  | _ => exact False.elim h

theorem Restarts.wakes {s : Stage} {i : Nat} (h : s.Restarts (.fresh i) i) : s.Wakes i := by
  cases s with
  | restartLock | restarting | restartReadying | «structure» => exact h
  | sweep | closing | stopping => exact h.1
  | _ => exact False.elim h

end Stage

namespace Pool

variable {p p' : Pool} {t : TaskId} {s s' : Stage} {m : Move} {i n : Nat} {c : PoolCall}
  {dead : List Nat}

theorem Advance.settled_le (h : Advance t p s p' m) : p.settled ≤ p'.settled := by
  cases h with
  | stopped | back | up | abandoned | giveUp => exact Nat.le_succ _
  | _ => exact Nat.le_refl _

theorem settled_discard (dead : List Nat) : (p.discard dead).settled = p.settled := by
  induction dead generalizing p with
  | nil => rfl
  | cons i r ih => exact ih (p := p.untrack i)

theorem Opening.settled_eq (h : Opening t p c p' dead m) : p'.settled = p.settled := by
  cases h with
  | discard => exact settled_discard _
  | _ => rfl

/-- A task that is to wake the waiters goes on until it wakes them. -/
theorem Advance.wakes (h : Advance t p s p' m) (hs : s.Wakes i)
    (named : .worker i ∈ s.locks → p.idOf i = .fresh i) :
    (∃ s', m = .wait s' ∧ s'.Wakes i) ∨ p.settled < p'.settled := by
  cases h with
  | started | restart | restarted | enter | spare | gone | forget | close | stop =>
    exact .inl ⟨_, rfl, hs⟩
  | late => exact .inl ⟨_, rfl, hs⟩
  | abandon s j why was => obtain rfl | rfl := was <;> exact .inl ⟨_, rfl, hs⟩
  | restartFailed s j why was =>
    have hj : j = i := by obtain rfl | rfl := was <;> exact hs
    subst hj
    have hlock : .worker j ∈ s.locks := by
      obtain rfl | rfl := was <;> exact List.mem_singleton.mpr rfl
    exact .inl ⟨_, rfl, _, by rw [named hlock]⟩
  | stopped | back | up | abandoned | giveUp => exact .inr (Nat.lt_succ_self _)
  | insert | evict | park =>
    obtain ⟨f, hf⟩ := hs
    cases hf
  | conclude e found grown normal =>
    obtain ⟨f, rfl⟩ := hs
    exact absurd rfl (normal _ f)
  | _ => exact False.elim hs

theorem Advance.ticket (h : Advance t p s p' (.wait s')) (hn : s'.ticket? = some n) :
    s.ticket? = some n ∨ n = p.settled := by
  cases h with
  | enter | spare | gone | forget | close | stop | stopped | park | evict => exact .inl hn
  | unpark => exact .inr (Option.some.inj hn).symm
  | _ => cases hn

theorem Opening.ticket (h : Opening t p c p' dead (.wait s')) (hn : s'.ticket? = some n) :
    n = p.settled := by
  cases h with
  | create => exact (Option.some.inj hn).symm
  | errand _ e grown =>
    cases e with
    | room => cases grown
    | _ => cases hn
  | _ => cases hn

/-- Only who finds no room parks, and then all tracked kernels of a full pool are in transition. -/
theorem Advance.parks (h : Advance t p s p' (.wait (.parked i n))) :
    (∃ found, s = .sweep (.room i n) [] found) ∧ p.capacity ≤ p.size ∧
      ∀ j ∈ p.tracked, p.inTransition j = true := by
  cases h with
  | park _ _ found full victim =>
    exact ⟨⟨found, rfl⟩, full, fun j hj => evictee?_eq_none victim hj⟩

end Pool

namespace Scene

variable {l : Label} {t u : TaskId} {c c' : Scene} {w : Work} {p : Pool} {m : Move} {s : Stage}
  {i n : Nat}

theorem settled_of_calm (turn : Turn l.still t c c') : c'.pool.settled = c.pool.settled := by
  cases turn with
  | rise | carry | shift | count | drop | reply | reap => rfl
  | advance _ _ _ _ _ _ own => exact absurd own (by simp)
  | begin _ _ _ _ _ _ _ _ step => exact step.settled_eq

/-- A tracked kernel in transition has a task that is to wake the waiters. -/
theorem Staffed.waker (h : c.Staffed) (there : i ∈ c.pool.tracked)
    (moving : c.pool.inTransition i = true) : ∃ u s, c.stage? u = some s ∧ s.Wakes i := by
  rcases Pool.inTransition_iff.mp moving with hi | hi
  · obtain ⟨u, s, hu, starts⟩ := h.starting i there hi
    exact ⟨u, s, hu, starts.wakes⟩
  · obtain ⟨u, s, hu, restarts⟩ := h.restarting i there hi
    exact ⟨u, s, hu, restarts.wakes⟩

/-- No task has a ticket for a wake that is still to come. -/
def Ticketed (c : Scene) : Prop :=
  ∀ t s n, c.stage? t = some s → s.ticket? = some n → n ≤ c.pool.settled

namespace Ticketed

theorem stride (ht : c.stage? t = some s) (adv : Pool.Advance t c.pool s p m) (h : c.Ticketed) :
    (c.goOn t w p m).Ticketed := by
  intro u su n hu hn
  refine Nat.le_trans ?_ adv.settled_le
  rcases Services.stage_of_goOn hu with ⟨rfl, rfl⟩ | ⟨-, hu⟩
  · rcases adv.ticket hn with hn | rfl
    · exact h u s n ht hn
    · exact Nat.le_refl _
  · exact h u su n hu hn

theorem calm (turn : Turn l.still t c c') (h : c.Ticketed) : c'.Ticketed := by
  intro u s n hu hn
  rw [settled_of_calm turn]
  rcases Services.stage_of_calm turn hu with hu | ⟨rfl, call, p, dead, -, step⟩ | ⟨j, rfl⟩
  · exact h u s n hu hn
  · exact Nat.le_of_eq (step.ticket hn)
  · cases hn

end Ticketed

/-- As long as there was no wake after the first `n`, a task is to make one when it is through with the
kernel of this entry. -/
structure Awaited (i n : Nat) (c : Scene) : Prop where
  le : n ≤ c.pool.settled
  waker : c.pool.settled = n → ∃ t s, c.stage? t = some s ∧ s.Wakes i

namespace Awaited

theorem stride (sound : c.Sound) (named : c.Named) (ht : c.stage? t = some s)
    (adv : Pool.Advance t c.pool s p m) (h : c.Awaited i n) : (c.goOn t w p m).Awaited i n := by
  have hle := adv.settled_le
  refine ⟨Nat.le_trans h.le hle, fun none => ?_⟩
  change p.settled = n at none
  -- there was no wake in this stride either, so whoever was to make one still is
  have same : c.pool.settled = n := Nat.le_antisymm (none ▸ hle) h.le
  obtain ⟨u, su, hu, wakes⟩ := h.waker same
  by_cases hut : u = t
  · subst hut
    obtain rfl := Option.some.inj (ht.symm.trans hu)
    have name : .worker i ∈ s.locks → c.pool.idOf i = .fresh i := by
      intro hlock
      have queued := (sound.orderly.mem u _).mpr (sound.locks_of_stage ht ▸ hlock)
      exact named.idOf (Pool.has_of_mem_worker queued)
    rcases adv.wakes wakes name with ⟨s', rfl, wakes'⟩ | hlt
    · exact ⟨u, s', by rw [stage?_goOn, Function.update_self]; rfl, wakes'⟩
    · omega
  · exact ⟨u, su, by rw [stage?_goOn, Function.update_of_ne hut, hu], wakes⟩

theorem calm (sound : c.Sound) (turn : Turn l.still t c c') (h : c.Awaited i n) :
    c'.Awaited i n := by
  have same := settled_of_calm turn
  refine ⟨same ▸ h.le, fun none => ?_⟩
  obtain ⟨u, s, hu, wakes⟩ := h.waker (same.symm.trans none)
  exact ⟨u, s, Services.stage_of_still sound turn hu, wakes⟩

end Awaited
end Scene

namespace Services

open Scene

variable {config : Config} {catalog : Catalog} {ls : List Label} {s s' d d₁ : Services} {l : Label}
  {t : TaskId} {i n : Nat}

theorem settled_stir (s : Services) (l : Label) : (s.stir l).pool.settled = s.pool.settled := by
  cases l with
  | resume t =>
    simp only [stir]
    split <;> rfl
  | _ => rfl

theorem ticketed_run (run : (init config catalog).run ls = some s) : s.scene.Ticketed := by
  have hinit : (init config catalog).scene.Ticketed := fun t s k h => (by cases h)
  have hkeep := strides_run (I := fun _ c => c.Ticketed) (P := fun _ => True) ?_
    (fun _ _ _ _ _ _ _ _ was adv h => h.stride (Sound.stage_of_act was) adv)
    (fun _ _ _ _ _ _ _ turn h => h.calm turn) (fun _ _ => trivial) (sound_init config catalog) hinit
    run
  · exact hkeep.2
  · intro seen s l h
    rw [scene_stir]
    intro t st k ht hk
    exact Nat.le_trans (h t st k ht hk) (Nat.le_of_eq (settled_stir s l).symm)

theorem awaited_run (sound : s.scene.Sound) (named : s.scene.Named) (h : s.scene.Awaited i n)
    (run : s.run ls = some s') : s'.scene.Awaited i n := by
  have hkeep := strides_run (I := fun _ c => c.Named ∧ c.Awaited i n) (P := fun _ => True)
    ?_ ?_ ?_ (fun _ _ => trivial) sound ⟨named, h⟩ run
  · exact hkeep.2.2
  · rintro seen s l ⟨named, h⟩
    have hsettled := settled_stir s l
    refine ⟨named.alike (alike_stir s l), ?_⟩
    rw [scene_stir]
    exact ⟨Nat.le_trans h.le (Nat.le_of_eq hsettled.symm), fun none => h.waker (hsettled.symm.trans none)⟩
  · rintro seen c t w st p m sound was adv ⟨named, h⟩
    have turn : Turn (.resume t) t c (c.goOn t w p m) := .advance w st p m was adv rfl
    exact ⟨named.turn turn, h.stride sound named (Sound.stage_of_act was) adv⟩
  · rintro seen l t c c' - sound turn ⟨named, h⟩
    exact ⟨named.turn turn, h.calm sound turn⟩

/-- A call parks when it is resumed and finds a full pool whose kernels are all in transition. -/
theorem parks_of_step (sound : d.scene.Sound) (before : d.scene.stage? t ≠ some (.parked i n))
    (after : d₁.scene.stage? t = some (.parked i n)) (step : d.step l = some d₁) :
    l = .resume t ∧ (∃ w found, d.tasks.get? t = some (.pool w (.sweep (.room i n) [] found))) ∧
      d.pool.capacity ≤ d.pool.size ∧ ∀ j ∈ d.pool.tracked, d.pool.inTransition j = true := by
  obtain ⟨own, w, st, p, was, adv⟩ := stride_of_arrives sound step before after
    (by rintro c p p' dead ⟨⟩) (by simp)
  obtain ⟨⟨found, rfl⟩, full, moving⟩ := adv.parks
  exact ⟨resumed_of_own own was (fun _ => rfl) step, ⟨w, found, was⟩, full, moving⟩

/-- A parked task that cannot go on was not woken since it took its ticket. -/
theorem ticket_of_stuck {w : Work} (ticketed : s.scene.Ticketed)
    (parked : s.tasks.get? t = some (.pool w (.parked i n))) (stuck : s.step (.resume t) = none) :
    s.pool.settled = n := by
  have hle : n ≤ s.pool.settled := ticketed t _ n (Sound.stage_of_act parked) rfl
  have hnot : ¬n < s.pool.settled := by
    intro hlt
    simp [step, parked, resume, Pool.step, hlt] at stuck
  omega

/-- Tracked kernels in transition, as many as fit, are all that are tracked. -/
theorem full_of_moving {crowd : List Nat} (within : s.scene.Within config) (distinct : crowd.Nodup)
    (large : config.capacity ≤ crowd.length)
    (moving : ∀ j ∈ crowd, j ∈ s.pool.tracked ∧ s.pool.inTransition j = true) :
    s.pool.size = config.capacity ∧ ∀ j ∈ s.pool.tracked, s.pool.inTransition j = true := by
  have among : crowd.Subperm s.pool.tracked := distinct.subperm fun j hj => (moving j hj).1
  have hle : s.pool.tracked.length ≤ config.capacity := within.size
  have hlen := among.length_le
  refine ⟨?_, fun j hj => ?_⟩
  · show s.pool.tracked.length = _
    omega
  · have same := among.perm_of_length_le (by omega)
    exact (moving j (same.mem_iff.mpr hj)).2

/-- As long as callers set no status by themselves: when a call to create a kernel parked, the pool was
full and all its kernels were starting or restarting, and while it cannot go on by itself each of these
kernels has a task that is to wake it. If they are all still tracked and in transition, then the pool is
still full, and all its kernels are starting or restarting. -/
theorem parked_awaited (config : Config) (catalog : Catalog) (ls : List Label) (s : Services)
    (quiet : ∀ id status, .call (.pool (.updateStatus id status)) ∉ ls)
    (run : (init config catalog).run ls = some s) (t : TaskId) (w : Work) (i n : Nat)
    (parked : s.tasks.get? t = some (.pool w (.parked i n))) (stuck : s.step (.resume t) = none) :
    ∃ before during d, ls = before ++ .resume t :: during ∧
      (init config catalog).run before = some d ∧
      (∃ v found, d.tasks.get? t = some (.pool v (.sweep (.room i n) [] found))) ∧
      d.pool.size = d.pool.capacity ∧
      (∀ j ∈ d.pool.tracked,
        d.pool.status? j = some .starting ∨ d.pool.status? j = some .restarting) ∧
      (∀ j ∈ d.pool.tracked, ∃ u v st, s.tasks.get? u = some (.pool v st) ∧ st.Wakes j) ∧
      ((∀ j ∈ d.pool.tracked, j ∈ s.pool.tracked ∧ s.pool.inTransition j = true) →
        s.pool.size = s.pool.capacity ∧ ∀ j ∈ s.pool.tracked,
          s.pool.status? j = some .starting ∨ s.pool.status? j = some .restarting) := by
  have unwoken := ticket_of_stuck (ticketed_run run) parked stuck
  have within := (within_run run).2
  have hcap : s.pool.capacity = config.capacity := congrArg Config.capacity within.settings
  -- the step in which the call parked
  obtain ⟨before, l, during, d, d₁, rfl, hbefore, hstep, hduring, hnot, hnow⟩ :=
    run_reaches (Q := fun s => s.scene.stage? t = some (.parked i n)) (by simp [init, scene, stage?])
      (Sound.stage_of_act parked) run
  have quiet' : ∀ id status, .call (.pool (.updateStatus id status)) ∉ before :=
    fun id status h => quiet id status (List.mem_append_left _ h)
  obtain ⟨sound, staffed⟩ := staffed_run quiet' hbefore
  have within' := (within_run hbefore).2
  have hcap' : d.pool.capacity = config.capacity := congrArg Config.capacity within'.settings
  obtain ⟨rfl, ⟨v, found, looks⟩, full, moving⟩ := parks_of_step sound hnot hnow hstep
  have awaited : ∀ j ∈ d.pool.tracked, s.scene.Awaited j n := by
    intro j hj
    have hle : n ≤ d.pool.settled := ticketed_run hbefore t _ n (Sound.stage_of_act looks) rfl
    refine awaited_run sound staffed.named ?_ ((run_cons hstep).trans hduring)
    exact ⟨hle, fun _ => staffed.waker hj (moving j hj)⟩
  refine ⟨before, during, d, rfl, hbefore, ⟨v, found, looks⟩, ?_, ?_, ?_, ?_⟩
  · exact Nat.le_antisymm (Nat.le_trans within'.size (Nat.le_of_eq hcap'.symm)) full
  · exact fun j hj => Pool.inTransition_iff.mp (moving j hj)
  · intro j hj
    obtain ⟨u, st, hu, wakes⟩ := (awaited j hj).waker unwoken
    obtain ⟨v, hv⟩ := stage_of_scene hu
    exact ⟨u, v, st, hv, wakes⟩
  · intro still
    obtain ⟨size, all⟩ := full_of_moving within within'.distinct (hcap' ▸ full) still
    exact ⟨size.trans hcap.symm, fun j hj => Pool.inTransition_iff.mp (all j hj)⟩

/-- In a pool for one, a second call to create a kernel waits until the first kernel is up. -/
def waiting : List Label :=
  [.call (.pool (.create { } none)), .resume 0, .resume 0, .call (.pool (.create { } none)),
    .resume 1, .resume 1, .resume 1]

theorem parked_awaited_waiting :
    ∃ s, (init { maxKernels := 1 } [.python3]).run waiting = some s ∧
      s.step (.resume 1) = none ∧ s.pool.size = s.pool.capacity ∧
      ∀ j ∈ s.pool.tracked, s.pool.status? j = some .starting ∨ s.pool.status? j = some .restarting := by
  have h : ((init { maxKernels := 1 } [.python3]).run waiting).map (fun s =>
      (s.step (.resume 1), s.tasks, s.pool.tracked, s.pool.inTransition 0)) =
      some (none, [(0, .pool .operation (.starting 0)), (1, .pool .operation (.parked 1 0))], [0],
        true) := by
    decide
  obtain ⟨s, run, h⟩ := Option.map_eq_some_iff.mp h
  simp only [Prod.mk.injEq] at h
  obtain ⟨stuck, tasks, tracked, moving⟩ := h
  have quiet : ∀ id status, .call (.pool (.updateStatus id status)) ∉ waiting := by simp [waiting]
  have parked : s.tasks.get? 1 = some (.pool .operation (.parked 1 0)) := by
    rw [tasks]
    rfl
  obtain ⟨_, _, d, -, -, -, -, -, awake, full⟩ :=
    parked_awaited _ _ waiting s quiet run 1 .operation 1 0 parked stuck
  refine ⟨s, run, stuck, full fun j hj => ?_⟩
  obtain ⟨u, v, st, hu, wakes⟩ := awake j hj
  have hmem := Table.mem_of_get?_eq_some hu
  rw [tasks] at hmem
  simp only [List.mem_cons, Prod.mk.injEq, Activity.pool.injEq, List.not_mem_nil, or_false] at hmem
  rcases hmem with ⟨-, -, rfl⟩ | ⟨-, -, rfl⟩
  · obtain rfl : 0 = j := wakes
    exact ⟨by simp [tracked], moving⟩
  · exact False.elim wakes

/-- The first kernel is shut down before it is up. -/
def shutDownWhileAwaited : List Label :=
  waiting ++ [.call (.pool (.shutdown (.fresh 0))), .resume 2, .resume 2, .resume 2]

/-- No task has a next step when none of those in progress has. -/
theorem resume_eq_none (h : ∀ x ∈ s.tasks, s.step (.resume x.1) = none) (t : TaskId) :
    s.step (.resume t) = none := by
  cases hact : s.tasks.get? t with
  | none => simp [step, hact]
  | some a => exact h (t, a) (Table.mem_of_get?_eq_some hact)

/-- The second call goes on waiting, though the pool has room and no task has a next step. -/
theorem parked_with_room :
    ∃ s, (init { maxKernels := 1 } [.python3]).run shutDownWhileAwaited = some s ∧
      (∀ t, s.step (.resume t) = none) ∧
      s.tasks.get? 1 = some (.pool .operation (.parked 1 0)) ∧ s.pool.tracked = [] ∧
      s.pool.size < s.pool.capacity := by
  have h : ((init { maxKernels := 1 } [.python3]).run shutDownWhileAwaited).map (fun s =>
      ((s.tasks.all fun x => s.step (.resume x.1) = none), s.tasks.get? 1, s.pool.tracked,
        s.pool.capacity)) = some (true, some (.pool .operation (.parked 1 0)), [], 1) := by
    decide
  obtain ⟨s, run, h⟩ := Option.map_eq_some_iff.mp h
  simp only [Prod.mk.injEq] at h
  obtain ⟨stuck, parked, tracked, capacity⟩ := h
  refine ⟨s, run, resume_eq_none ?_, parked, tracked, ?_⟩
  · simpa using stuck
  · simp [Pool.size, tracked, capacity]

end Services
end NotebookKernels
