import NotebookKernels.Proofs.Service.Sound

/- The pool never tracks more kernels than fit.

   Room is looked for and taken in one step, under the pool's own lock; all other steps only remove
   kernels. So the bound holds after every step, whoever removed what in between. A setting of no
   kernels at all counts as one. -/
namespace NotebookKernels

open Scene

/-- The pool has these settings, tracks no entry twice and no more entries than fit. -/
structure Scene.Within (config : Config) (c : Scene) : Prop where
  settings : c.pool.config = config
  distinct : c.pool.tracked.Nodup
  size : c.pool.size ≤ config.capacity

namespace Scene.Within

variable {config : Config} {l : Label} {t : TaskId} {c c' : Scene}

theorem turn (sound : c.Sound) (turn : Turn l t c c') (h : c.Within config) : c'.Within config := by
  cases turn with
  | rise | carry | shift | count | drop | reply | reap => exact ⟨h.settings, h.distinct, h.size⟩
  | advance w s p m was step =>
    have ready := sound.ready (Sound.stage_of_act was)
    refine ⟨step.config_eq.trans h.settings, step.nodup_tracked ready h.distinct, ?_⟩
    have hle := step.size_le
    have hcap : c.pool.capacity = config.capacity := congrArg Config.capacity h.settings
    rw [hcap, Nat.max_eq_right h.size] at hle
    exact hle
  | begin w call p dead m may risen free step =>
    refine ⟨step.config_eq.trans h.settings, step.nodup_tracked h.distinct, ?_⟩
    exact Nat.le_trans step.size_le h.size

end Scene.Within

namespace Services

variable {config : Config} {catalog : Catalog} {ls : List Label} {s : Services}

theorem within_init : (init config catalog).scene.Within config :=
  ⟨rfl, List.nodup_nil, Nat.zero_le _⟩

theorem within_stir {l : Label} (h : s.scene.Within config) : (s.stir l).scene.Within config := by
  have alike := alike_stir s l
  refine ⟨alike.config.trans h.settings, ?_, ?_⟩
  · show (s.stir l).pool.tracked.Nodup
    rw [alike.tracked]
    exact h.distinct
  · show (s.stir l).pool.tracked.length ≤ _
    rw [alike.tracked]
    exact h.size

theorem within_run (run : (init config catalog).run ls = some s) :
    s.scene.Sound ∧ s.scene.Within config :=
  scene_run (P := fun _ => True) (fun _ _ h => within_stir h)
    (fun _ _ _ _ _ sound turn => Within.turn sound turn) (fun _ _ => trivial)
    (sound_init config catalog) within_init run

/-- Whatever the settings, the callers, the workers and the order of the steps: no kernel is tracked
twice, and no more kernels are tracked than fit, those that are starting included. -/
theorem size_le_capacity (config : Config) (catalog : Catalog) (ls : List Label) (s : Services)
    (run : (init config catalog).run ls = some s) :
    s.pool.tracked.Nodup ∧ s.pool.size ≤ max config.maxKernels 1 := by
  have h := (within_run run).2
  exact ⟨h.distinct, h.size⟩

/-- Two kernels are created, one after the other. -/
def evicting : List Label :=
  [.call (.pool (.create { } none)), .resume 0, .resume 0, .alive 0 true, .answer 0 .ok,
    .answer 0 .ok, .call (.pool (.create { } none)), .resume 1, .resume 1, .resume 1, .resume 1,
    .answer 1 .ok, .resume 1]

/-- With a setting of no kernels at all, the second takes the place of the first. -/
theorem size_le_capacity_evicting :
    ∃ s, (init { maxKernels := 0 } [.python3]).run evicting = some s ∧ s.pool.tracked = [1] ∧
      s.pool.tracked.Nodup ∧ s.pool.size ≤ max 0 1 := by
  have h : ((init { maxKernels := 0 } [.python3]).run evicting).map (·.pool.tracked) = some [1] := by
    decide
  obtain ⟨s, run, tracked⟩ := Option.map_eq_some_iff.mp h
  exact ⟨s, run, tracked, size_le_capacity { maxKernels := 0 } [.python3] evicting s run⟩

end Services
end NotebookKernels
