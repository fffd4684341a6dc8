import NotebookKernels.Proofs.Service.Strides

/- What an acquisition waits out.

   An acquisition first takes the lock of the kernel's worker and gives it up again, and then queues for
   the execution slot. The first waits out whoever is starting or restarting the worker. But the wait
   for the slot comes after it, and a restart may take the worker meanwhile; so of a granted slot
   (`grant_waits_out`):
     1. no call to create the kernel is in progress;
     2. when the acquisition gave the worker up, nobody was starting or restarting it;
     3. whoever is restarting it now took it later than that, while the acquisition was in the queue.
   `grant_during_restart` is such a late restart. -/
namespace NotebookKernels

namespace Stage

/-- The task brings the worker of a new kernel up, or shuts it down because it did not come up. -/
def Launches (i : Nat) : Stage → Prop
  | .starting j | .readying j | .abandoning j _ => j = i
  | _ => False

/-- The task has the worker of a kernel replaced. -/
def Replaces (i : Nat) : Stage → Prop
  | .restarting j | .restartReadying j => j = i
  | _ => False

/-- Whoever brings a worker up or replaces it has its lock. -/
theorem worker_of_launches {s : Stage} {i : Nat} (h : s.Launches i ∨ s.Replaces i) :
    .worker i ∈ s.locks ∧ s.awaits = none := by
  cases s with
  | starting j | readying j | abandoning j =>
    obtain rfl : j = i := h.resolve_right id
    exact ⟨List.mem_singleton.mpr rfl, rfl⟩
  | restarting j | restartReadying j =>
    obtain rfl : j = i := h.resolve_left id
    exact ⟨List.mem_singleton.mpr rfl, rfl⟩
  | _ => exact absurd h (by simp [Launches, Replaces])

end Stage

/-- A task is given the worker of the entry, to restart it. -/
def Stride.restart (u : TaskId) (i : Nat) : Stride := ⟨u, .restartLock i, .wait (.restarting i)⟩

namespace Pool

variable {p p' : Pool} {t : TaskId} {s s' : Stage} {i : Nat} {c : PoolCall} {dead : List Nat}

/-- Only the task that is to insert an entry brings its worker up. -/
theorem Advance.launches (h : Advance t p s p' (.wait s')) (hs : s'.Launches i) :
    s.Launches i ∨ s.newborn? = some i := by
  cases h with
  | insert j => exact .inr (congrArg some hs)
  | started j | late j => exact .inl hs
  | abandon _ _ _ was => obtain rfl | rfl := was <;> exact .inl hs
  | _ => exact False.elim hs

/-- Only a task that was given the worker replaces it. -/
theorem Advance.replaces (h : Advance t p s p' (.wait s')) (hs : s'.Replaces i) :
    s.Replaces i ∨ (⟨t, s, .wait s'⟩ : Stride) = .restart t i := by
  cases h with
  | restart j =>
    obtain rfl : j = i := hs
    exact .inr rfl
  | restarted j => exact .inl hs
  | _ => exact False.elim hs

theorem Opening.idle (h : Opening t p c p' dead (.wait s')) : ¬s'.Launches i ∧ ¬s'.Replaces i := by
  cases h <;> exact ⟨False.elim, False.elim⟩

theorem Advance.queues_up (h : Advance t p s p' (.wait (.acquireSlot i))) : s = .acquireLock i := by
  cases h
  rfl

end Pool

namespace Scene

variable {l : Label} {t : TaskId} {c c' : Scene} {seen : List Stride} {i : Nat}

/-- The kernel has come up, and whoever is restarting it was given its worker in one of these
strides. -/
structure WaitedOut (i : Nat) (seen : List Stride) (c : Scene) : Prop where
  grown : c.Grown i
  up : ∀ u st, c.stage? u = some st → ¬st.Launches i
  late : ∀ u st, c.stage? u = some st → st.Replaces i → .restart u i ∈ seen

namespace WaitedOut

/-- Nobody but the one who has the worker brings it up or replaces it. -/
theorem of_held (sound : c.Sound) (held : (c.pool.queue (.worker i)).head? = some t)
    (ht : c.stage? t = some (.acquireLock i)) : c.WaitedOut i [] := by
  -- a stage that has the worker is the stage of the acquisition
  have sole : ∀ {u st}, c.stage? u = some st → .worker i ∈ st.locks →
      st.awaits ≠ some (.worker i) → st = .acquireLock i := by
    intro u st hu hl ha
    obtain rfl : u = t := Option.some.inj ((sound.holds hu hl ha).symm.trans held)
    exact Option.some.inj (hu.symm.trans ht)
  have idle : ∀ {u st}, c.stage? u = some st → ¬(st.Launches i ∨ st.Replaces i) := by
    intro u st hu h
    have hw := Stage.worker_of_launches h
    obtain rfl := sole hu hw.1 (by simp [hw.2])
    exact h.elim id id
  refine ⟨⟨Pool.has_of_mem_worker (List.mem_of_mem_head? held), ?_⟩,
    fun u st hu h => idle hu (.inl h), fun u st hu h => absurd (.inr h) (idle hu)⟩
  intro u st hu hn
  have hw := Stage.worker_of_newborn hn (sound.ready hu).single
  obtain rfl := sole hu hw.1 hw.2
  cases hn

theorem stride {w : Work} {st : Stage} {p : Pool} {m : Move} (h : c.WaitedOut i seen)
    (hst : c.stage? t = some st) (adv : Pool.Advance t c.pool st p m) :
    (c.goOn t w p m).WaitedOut i (seen ++ [⟨t, st, m⟩]) := by
  refine ⟨h.grown.stride hst adv, ?_, ?_⟩
  · intro u su hu hl
    rcases Services.stage_of_goOn hu with ⟨rfl, rfl⟩ | ⟨-, hu⟩
    · exact (adv.launches hl).elim (h.up u st hst) (h.grown.unborn u st hst)
    · exact h.up u su hu hl
  · intro u su hu hr
    rw [List.mem_append, List.mem_singleton]
    rcases Services.stage_of_goOn hu with ⟨rfl, rfl⟩ | ⟨-, hu⟩
    · exact (adv.replaces hr).imp (h.late u st hst) Eq.symm
    · exact .inl (h.late u su hu hr)

theorem calm (h : c.WaitedOut i seen) (turn : Turn l.still t c c') : c'.WaitedOut i seen := by
  refine ⟨h.grown.calm turn, ?_, ?_⟩
  · intro u st hu hl
    rcases Services.stage_of_calm turn hu with hu | ⟨rfl, call, p, dead, -, step⟩ | ⟨j, rfl⟩
    · exact h.up u st hu hl
    · exact step.idle.1 hl
    · exact hl
  · intro u st hu hr
    rcases Services.stage_of_calm turn hu with hu | ⟨rfl, call, p, dead, -, step⟩ | ⟨j, rfl⟩
    · exact h.late u st hu hr
    · exact absurd hr step.idle.2
    · exact False.elim hr

end WaitedOut
end Scene

namespace Services

open Scene

variable {config : Config} {catalog : Catalog} {ls : List Label} {s s' d d₁ : Services}
  {l : Label} {t : TaskId} {i : Nat}

theorem waitedOut_run (sound : s.scene.Sound) (h : s.scene.WaitedOut i [])
    (run : s.run ls = some s') : s'.scene.WaitedOut i (s.gather strides ls) := by
  have hkeep := strides_run (I := fun seen c => c.WaitedOut i seen) (P := fun _ => True) ?_
    (fun _ _ _ _ _ _ _ _ was adv h => h.stride (Sound.stage_of_act was) adv)
    (fun _ _ _ _ _ _ _ turn h => h.calm turn) (fun _ _ => trivial) sound h run
  · exact hkeep.2
  · intro seen s l h
    have grown : (s.stir l).scene.Grown i := h.grown.stir
    rw [scene_stir] at grown ⊢
    exact ⟨grown, h.up, h.late⟩

/-- A task comes to queue for a slot when it is resumed and has the worker. -/
theorem gave_up_worker (sound : d.scene.Sound) (before : d.scene.stage? t ≠ some (.acquireSlot i))
    (after : d₁.scene.stage? t = some (.acquireSlot i)) (step : d.step l = some d₁) :
    l = .resume t ∧ d.scene.stage? t = some (.acquireLock i) ∧
      (d.scene.pool.queue (.worker i)).head? = some t := by
  obtain ⟨own, w, st, p, was, adv⟩ := stride_of_arrives sound step before after
    (by rintro c p p' dead ⟨⟩) (by simp)
  obtain rfl := adv.queues_up
  exact ⟨resumed_of_own own was (fun _ => rfl) step, Sound.stage_of_act was, adv.granted rfl⟩

/-- When an acquisition is granted the slot of a kernel, the kernel is marked busy and nobody creates
it. Before, the acquisition waited until it had the worker, when nobody was starting or restarting it;
who is restarting it now was given the worker after that. -/
theorem grant_waits_out (config : Config) (catalog : Catalog) (ls : List Label) (s : Services)
    (run : (init config catalog).run ls = some s) (t i : Nat) (w : Work) (p : Pool)
    (at' : s.tasks.get? t = some (.pool w (.acquireSlot i)))
    (grant : s.pool.step t (.acquireSlot i) = some (p, .finish (.slot i))) :
    p.status? i = some .busy ∧
    (∀ u v st, s.tasks.get? u = some (.pool v st) → ¬st.Launches i) ∧
    ∃ before during d, ls = before ++ .resume t :: during ∧
      (init config catalog).run before = some d ∧
      (∃ v, d.tasks.get? t = some (.pool v (.acquireLock i))) ∧
      (∀ u v st, d.tasks.get? u = some (.pool v st) → ¬st.Launches i ∧ ¬st.Replaces i) ∧
      ∀ u v st, s.tasks.get? u = some (.pool v st) → st.Replaces i →
        .restart u i ∈ d.gather strides (.resume t :: during) := by
  have hst : s.scene.stage? t = some (.acquireSlot i) := Sound.stage_of_act at'
  -- the step in which the acquisition came to queue for the slot
  obtain ⟨before, l, during, d, d₁, rfl, hbefore, hstep, hduring, hnot, hnow⟩ :=
    run_reaches (Q := fun s => s.scene.stage? t = some (.acquireSlot i)) (by simp [init, scene, stage?])
      hst run
  have sound := sound_run (sound_init config catalog) hbefore
  obtain ⟨rfl, hlock, held⟩ := gave_up_worker sound hnot hnow hstep
  have first := WaitedOut.of_held sound held hlock
  have last : s.scene.WaitedOut i (d.gather strides (.resume t :: during)) :=
    waitedOut_run sound first ((run_cons hstep).trans hduring)
  refine ⟨?_, fun u v st hu => last.up u st (Sound.stage_of_act hu), before, during, d, rfl, hbefore,
    stage_of_scene hlock, fun u v st hu => ⟨first.up u st (Sound.stage_of_act hu), fun hr => ?_⟩,
    fun u v st hu => last.late u st (Sound.stage_of_act hu)⟩
  · cases Pool.advance_of_step grant with
    | grant => exact Pool.status?_setStatus_self .busy last.grown.has
  · exact absurd (first.late u st (Sound.stage_of_act hu) hr) List.not_mem_nil

/-- Two acquisitions of a kernel: the second queues for the slot of the first. Then a restart takes the
worker, and the slot is given up. -/
def overtaken : List Label :=
  booting ++
    [.call (.pool (.acquire (.fresh 0))), .resume 1, .resume 1, .call (.pool (.acquire (.fresh 0))),
      .resume 2, .call (.pool (.restart (.fresh 0))), .resume 3, .call (.release 1)]

theorem grant_waits_out_overtaken :
    ∃ s p, (init { } [.python3]).run overtaken = some s ∧
      s.pool.step 2 (.acquireSlot 0) = some (p, .finish (.slot 0)) ∧ p.status? 0 = some .busy ∧
      ∃ before during d, overtaken = before ++ .resume 2 :: during ∧
        (init { } [.python3]).run before = some d ∧
        .restart 3 0 ∈ d.gather strides (.resume 2 :: during) := by
  have h : ((init { } [.python3]).run overtaken).map (fun s =>
      (s.tasks, (s.pool.step 2 (.acquireSlot 0)).map (·.2))) =
      some ([(2, .pool .operation (.acquireSlot 0)), (3, .pool .operation (.restarting 0))],
        some (.finish (.slot 0))) := by
    decide
  obtain ⟨s, run, hs⟩ := Option.map_eq_some_iff.mp h
  obtain ⟨tasks, granted⟩ := Prod.mk.inj hs
  obtain ⟨⟨p, m⟩, grant, rfl⟩ := Option.map_eq_some_iff.mp granted
  have queued : s.tasks.get? 2 = some (.pool .operation (.acquireSlot 0)) := by
    rw [tasks]
    rfl
  have replaces : s.tasks.get? 3 = some (.pool .operation (.restarting 0)) := by
    rw [tasks]
    rfl
  obtain ⟨busy, -, before, during, d, hls, hbefore, -, -, late⟩ :=
    grant_waits_out { } [.python3] overtaken s run 2 0 .operation p queued grant
  exact ⟨s, p, run, grant, busy, before, during, d, hls, hbefore, late 3 _ _ replaces rfl⟩

/-- The slot is granted, and the kernel marked busy, while its worker is being replaced. -/
theorem grant_during_restart :
    ∃ s p, (init { } [.python3]).run overtaken = some s ∧
      s.tasks.get? 2 = some (.pool .operation (.acquireSlot 0)) ∧
      s.pool.step 2 (.acquireSlot 0) = some (p, .finish (.slot 0)) ∧
      s.tasks.get? 3 = some (.pool .operation (.restarting 0)) := by
  have h : ((init { } [.python3]).run overtaken).map (fun s =>
      (s.tasks.get? 2, s.tasks.get? 3, (s.pool.step 2 (.acquireSlot 0)).map (·.2))) =
      some (some (.pool .operation (.acquireSlot 0)), some (.pool .operation (.restarting 0)),
        some (.finish (.slot 0))) := by
    decide
  obtain ⟨s, run, hs⟩ := Option.map_eq_some_iff.mp h
  obtain ⟨queued, hs⟩ := Prod.mk.inj hs
  obtain ⟨replaces, granted⟩ := Prod.mk.inj hs
  obtain ⟨⟨p, m⟩, grant, rfl⟩ := Option.map_eq_some_iff.mp granted
  exact ⟨s, p, run, queued, grant, replaces⟩

end Services
end NotebookKernels
