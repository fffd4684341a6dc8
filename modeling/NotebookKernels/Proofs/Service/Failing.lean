import NotebookKernels.Proofs.Service.Clearing

/- How a call to create or to restart a kernel fails.

   Whatever the worker answers to the calls that bring it up or replace it, and when their time runs out,
   the caller is told that the kernel failed to start, and the kernel is gone for good by then. A restart
   that does not find its kernel, or finds the worker dead, says so at once. So there is one way out for
   anything else (`create_and_restart_fail`): a launcher that refuses. Its failure is passed on as it is,
   whatever its kind, as `create_of_refusal` has it; the pool is left as it was. -/
namespace NotebookKernels

namespace Pool

variable {p p' : Pool} {t : TaskId} {s s' : Stage} {i : Nat} {f : Failure}

/-- A restart of an entry's kernel goes on, or is to remove the kernel by its identifier. -/
theorem Advance.renews_or_givesUp (h : Advance t p s p' (.wait s')) (hs : s.Renews i) :
    s'.Renews i ∨ ∃ why, s' = .structure (.giveUp (p.idOf i) (.start why)) := by
  cases h with
  | restart | restarted => exact .inl hs
  | restartFailed s j why was =>
    obtain rfl : j = i := by obtain rfl | rfl := was <;> exact hs
    exact .inr ⟨why, rfl⟩
  | abandon _ _ _ was => obtain rfl | rfl := was <;> exact False.elim hs
  | _ => exact False.elim hs

/-- As long as it goes on, it does not fail. -/
theorem Advance.not_failed (h : Advance t p s p' (.finish (.failed f))) : ¬s.Renews i := by
  intro hs
  generalize hm : Move.finish (.failed f) = m at h
  cases h with
  | back j => exact absurd (Move.finish.inj hm).symm (Outcome.ofRecord_ne_failed _ f)
  | restart | restarted | restartFailed => cases hm
  | abandon _ _ _ was => cases hm
  | _ => exact False.elim hs

end Pool

namespace Scene

variable {l : Label} {t u : TaskId} {c c' : Scene} {w : Work} {p : Pool} {m : Move} {s su : Stage}
  {i : Nat}

/-- A restart of an entry's kernel goes on, or has failed to start the worker and is to remove the
kernel. -/
def Replacing (i : Nat) (c : Scene) (s : Stage) : Prop :=
  (s.Renews i ∧ c.Named) ∨ ∃ why, Clearing (.giveUp (.fresh i) (.start why)) i c s

namespace Replacing

theorem own {s' : Stage} (sound : c.Sound) (ht : c.stage? t = some s)
    (adv : Pool.Advance t c.pool s p (.wait s')) (h : Replacing i c s) :
    Replacing i (c.goOn t w p (.wait s')) s' := by
  rcases h with ⟨renews, named⟩ | ⟨why, clearing⟩
  · rcases adv.renews_or_givesUp renews with renews' | ⟨why, rfl⟩
    · exact .inl ⟨renews', named.stride adv⟩
    · have id : c.pool.idOf i = .fresh i :=
        named.idOf (Pool.has_of_mem_worker (sound.mem_worker ht renews.worker))
      exact .inr ⟨why, named.stride adv, by rw [Stage.Clears, id]⟩
  · exact .inr ⟨why, clearing.own sound rfl adv⟩

theorem other (sound : c.Sound) (ht : c.stage? t = some s) (hne : u ≠ t)
    (hu : c.stage? u = some su) (adv : Pool.Advance u c.pool su p m) (h : Replacing i c s) :
    Replacing i (c.goOn u w p m) s := by
  rcases h with ⟨renews, named⟩ | ⟨why, clearing⟩
  · exact .inl ⟨renews, named.stride adv⟩
  · exact .inr ⟨why, clearing.other sound ht hne hu adv⟩

theorem calm (turn : Turn l.still u c c') (h : Replacing i c s) : Replacing i c' s := by
  rcases h with ⟨renews, named⟩ | ⟨why, clearing⟩
  · exact .inl ⟨renews, named.turn turn⟩
  · exact .inr ⟨why, clearing.calm turn⟩

theorem stir {s₀ : Services} (h : Replacing i s₀.scene s) : Replacing i (s₀.stir l).scene s := by
  rcases h with ⟨renews, named⟩ | ⟨why, clearing⟩
  · exact .inl ⟨renews, named.alike (Services.alike_stir s₀ l)⟩
  · exact .inr ⟨why, clearing.stir⟩

end Replacing
end Scene

namespace Services

open Scene

variable {config : Config} {catalog : Catalog} {ls during : List Label} {s s' s₁ s₂ : Services}
  {l : Label} {t i : Nat} {id : KernelId} {f : Failure} {o : Outcome}

/-! ## Creating a kernel -/

/-- A call to create a kernel that goes on and fails has failed to start it, and the kernel is gone for
good. -/
theorem failed_of_create {request : KernelCreate} {refusal : Option Failure} (sound : s.scene.Sound)
    (call : s.step (.call (.pool (.create request refusal))) = some s₁)
    (goes : (s₁.tasks.get? s.nextTask).isSome) (run : s₁.run during = some s₂)
    (returns : s₂.replies.get? s.nextTask = some (.pool (.failed f))) :
    (∃ why, f = .start why) ∧ s.pool.entries.length ∉ s₂.pool.tracked := by
  have sound₁ := sound_step sound call
  have ht : s.nextTask < s₁.nextTask := nextTask_le_step sound call
  obtain ⟨a, begun⟩ := Option.isSome_iff_exists.mp goes
  obtain ⟨mid, l, rest, d, d', st, -, -, step, hrest, sound', was, founding, -, adv⟩ :=
    exists_last_stride (J := fun d => Founding s.pool.entries.length d.scene) sound₁ ht
      (sound₁.fresh.owed _ _ begun) (fun _ _ h => founding_of_create sound call goes h) run returns
  obtain ⟨rfl, gone⟩ := adv.abandoned_of_failed founding.1
  -- the task has the worker until it fails, so nobody is to insert the kernel
  have grown : d.scene.Grown s.pool.entries.length := sound'.grown_of_worker (Sound.stage_of_act was)
    (by simp [Stage.locks]) (by simp [Stage.awaits]) (by simp [Stage.newborn?])
  exact ⟨(founding.2 f rfl).1,
    gone_run (sound_step sound' step) (.step sound' step grown) gone hrest⟩

/-! ## Restarting a kernel -/

theorem replacing_of_restart (sound : s.scene.Sound) (named : s.scene.Named)
    (call : s.step (.call (.pool (.restart id))) = some s₁)
    (was : s₁.tasks.get? s.nextTask = some (.pool .operation (.restartLock i)))
    (run : s₁.run during = some s₂) :
    s₂.tasks.get? s.nextTask = none ∨
      ∃ st, s₂.tasks.get? s.nextTask = some (.pool .operation st) ∧ Replacing i s₂.scene st := by
  have ht : s.nextTask < s₁.nextTask := nextTask_le_step sound call
  have first : Replacing i s₁.scene (.restartLock i) := .inl ⟨rfl, named_step named sound call⟩
  have hkeep := operation_run (J := fun _ => Replacing i) (P := fun _ => True)
    (fun _ _ _ _ h => h.stir) (fun _ _ _ _ _ sound ht adv h => h.own sound ht adv)
    (fun _ _ _ _ _ _ _ _ sound ht hne hu adv h => h.other sound ht hne hu adv)
    (fun _ _ _ _ _ _ _ _ _ turn h => h.calm turn) (fun _ _ => trivial) (sound_step sound call) ht
    ⟨_, was, first⟩ run
  exact hkeep.2.2

/-- A restart that goes on and fails has failed to start the worker, and the kernel is gone for good. -/
theorem failed_of_restart (sound : s.scene.Sound) (named : s.scene.Named)
    (call : s.step (.call (.pool (.restart id))) = some s₁) (found : s.pool.find? id = some i)
    (was : s₁.tasks.get? s.nextTask = some (.pool .operation (.restartLock i)))
    (run : s₁.run during = some s₂)
    (returns : s₂.replies.get? s.nextTask = some (.pool (.failed f))) :
    (∃ why, f = .start why) ∧ i ∉ s₂.pool.tracked := by
  have sound₁ := sound_step sound call
  have ht : s.nextTask < s₁.nextTask := nextTask_le_step sound call
  obtain ⟨mid, l, rest, d, d', st, -, hmid, step, hrest, -, -, replacing, -, adv⟩ :=
    exists_last_stride (J := fun d => Replacing i d.scene) sound₁ ht (sound₁.fresh.owed _ _ was)
      (fun _ _ h => replacing_of_restart sound named call was h) run returns
  rcases replacing with ⟨renews, -⟩ | ⟨why, clearing⟩
  · exact absurd renews adv.not_failed
  · obtain ⟨gone, _, hf⟩ := adv.cleared clearing.2
    have whole : s.run (.call (.pool (.restart id)) :: (mid ++ [l])) = some d' :=
      (run_cons call).trans (run_concat hmid step)
    exact ⟨⟨why, Outcome.failed.inj hf⟩,
      gone_of_run sound (Pool.find?_eq_some found).1 whole gone hrest⟩

/-! ## Both -/

/-- Whatever the settings, the other calls, the order of the steps and the answers of the workers: a call
to create a kernel that fails has failed to start it, for want of its spec or because the worker did not
come up, and then the kernel is not tracked; or it fails as its launcher did. A call to restart a kernel
fails because it did not find the kernel, or found its worker dead, when it began; or it has failed to
start the worker, and then the kernel is not tracked. All this stays so from the moment of the failure
on. -/
theorem create_and_restart_fail (config : Config) (catalog : Catalog) (before during : List Label)
    (s s₁ s₂ : Services) (f : Failure) (reached : (init config catalog).run before = some s)
    (run : s₁.run during = some s₂)
    (returns : s₂.replies.get? s.nextTask = some (.pool (.failed f))) :
    (∀ request refusal, s.step (.call (.pool (.create request refusal))) = some s₁ →
      (s.catalog.find? request.name = none ∧ f = .unknownSpec request.name ∨ refusal = some f) ∧
        s₁.pool = s.pool ∨
      (∃ why, f = .start why) ∧ s.pool.entries.length ∉ s₂.pool.tracked ∧
        s₂.pool.find? (.fresh s.pool.entries.length) = none) ∧
    ∀ id, s.step (.call (.pool (.restart id))) = some s₁ →
      f = .kernelNotFound id ∧
        (s.pool.find? id = none ∨ ∃ i, s.pool.find? id = some i ∧ s.pool.isDead i = true) ∨
      (∃ why, f = .start why) ∧ (∃ i, s.pool.find? id = some i ∧ s.pool.isDead i = false) ∧
        s₂.pool.find? id = none := by
  have sound := sound_run (sound_init config catalog) reached
  have named := named_run reached
  -- a kernel that is gone is not found under its identifier
  have unfound : ∀ {c i}, s.step (.call c) = some s₁ → i ∉ s₂.pool.tracked →
      s₂.pool.find? (.fresh i) = none := by
    intro c i call gone
    have whole : (init config catalog).run (before ++ .call c :: during) = some s₂ := by
      rw [run_append, reached, Option.bind_some, run_cons call, run]
    exact (named_run whole).find?_eq_none (sound_run (sound_init config catalog) whole) gone
  -- a call that fails at once has failed as its reply says
  have same : ∀ {c g}, s.step (.call c) = some s₁ → s₁.tasks.get? s.nextTask = none →
      s₁.replies.get? s.nextTask = some (.pool (.failed g)) → f = g := by
    intro c g call ended reply
    have stays := reply_run (sound_step sound call) (nextTask_le_step sound call) ended run
    simpa using (returns.symm.trans stays).trans reply
  constructor
  · intro request refusal call
    rcases create_begins call with ⟨ended, kept, g, reply, because⟩ | ⟨⟨ticket, was⟩, -⟩
    · obtain rfl := same call ended reply
      exact .inl ⟨because, kept⟩
    · obtain ⟨why, gone⟩ := failed_of_create sound call (by simp [was]) run returns
      exact .inr ⟨why, gone, unfound call gone⟩
  · intro id call
    rcases restart_begins call with ⟨ended, reply, because⟩ | ⟨i, found, alive, -, was⟩
    · exact .inl ⟨same call ended reply, because⟩
    · obtain ⟨why, gone⟩ := failed_of_restart sound named call found was run returns
      refine .inr ⟨why, ⟨i, found, alive⟩, ?_⟩
      rw [named.of_find? sound found]
      exact unfound call gone

/-- A restart whose worker cannot be reached, and the removal of its kernel. -/
def unreachable : List Label :=
  [.resume 1, .answer 1 (.failed (.channel "no pipe")), .resume 1, .resume 1, .resume 1, .answer 1 .ok,
    .resume 1]

/-- The calls to bring a worker up break off. -/
def garbled : List Label :=
  [.resume 1, .resume 1, .resume 1, .answer 1 .ok, .answer 1 (.failed (.protocol "bad")), .answer 1 .ok]

/-- Both are told that the kernel failed to start, and the kernels are gone. -/
theorem create_and_restart_fail_at_worker :
    ∃ s s₁ s₂ d₁ d₂, (init { } [.python3]).run booting = some s ∧
      s.step (.call (.pool (.restart (.fresh 0)))) = some s₁ ∧ s₁.run unreachable = some s₂ ∧
      s₂.replies.get? 1 = some (.pool (.failed (.start "channel failure: no pipe"))) ∧
      s₂.pool.find? (.fresh 0) = none ∧
      s.step (.call (.pool (.create { } none))) = some d₁ ∧ d₁.run garbled = some d₂ ∧
      d₂.replies.get? 1 = some (.pool (.failed (.start "protocol error: bad"))) ∧
      1 ∉ d₂.pool.tracked ∧ d₂.pool.find? (.fresh 1) = none := by
  have h : ((init { } [.python3]).run booting).bind (fun s =>
      (s.step (.call (.pool (.restart (.fresh 0))))).bind fun s₁ => (s₁.run unreachable).bind fun s₂ =>
        (s.step (.call (.pool (.create { } none)))).bind fun d₁ => (d₁.run garbled).map fun d₂ =>
          ((s.nextTask, s.pool.entries.length), s₂.replies.get? 1, d₂.replies.get? 1)) =
      some ((1, 1), some (.pool (.failed (.start "channel failure: no pipe"))),
        some (.pool (.failed (.start "protocol error: bad")))) := by
    decide
  obtain ⟨s, reached, h⟩ := Option.bind_eq_some_iff.mp h
  obtain ⟨s₁, restart, h⟩ := Option.bind_eq_some_iff.mp h
  obtain ⟨s₂, run, h⟩ := Option.bind_eq_some_iff.mp h
  obtain ⟨d₁, create, h⟩ := Option.bind_eq_some_iff.mp h
  obtain ⟨d₂, run', h⟩ := Option.map_eq_some_iff.mp h
  simp only [Prod.mk.injEq] at h
  obtain ⟨⟨next, entries⟩, returns, returns'⟩ := h
  have restarted := (create_and_restart_fail { } [.python3] booting unreachable s s₁ s₂ _ reached run
    (next ▸ returns)).2 _ restart
  have created := (create_and_restart_fail { } [.python3] booting garbled s d₁ d₂ _ reached run'
    (next ▸ returns')).1 _ _ create
  rcases restarted with ⟨hf, -⟩ | ⟨-, -, unfound⟩
  · cases hf
  rcases created with ⟨⟨-, hf⟩ | hf, -⟩ | ⟨-, gone, unfound'⟩
  · exact absurd hf (by decide)
  · cases hf
  · rw [entries] at gone unfound'
    exact ⟨s, s₁, s₂, d₁, d₂, reached, restart, run, returns, unfound, create, run', returns', gone, unfound'⟩

/-- A launcher refuses for want of a pipe, and the caller is told so, not that the kernel failed to
start. -/
theorem create_of_refusal :
    ∃ s, (init { } [.python3]).step (.call (.pool (.create { } (some (.channel "no pipe"))))) = some s ∧
      s.replies.get? 0 = some (.pool (.failed (.channel "no pipe"))) ∧
      Failure.kind (.channel "no pipe") ≠ "StartFailure" ∧ ∀ why, Failure.channel "no pipe" ≠ .start why :=
  ⟨_, rfl, by decide, by decide, fun _ h => Failure.noConfusion h⟩

end Services
end NotebookKernels
