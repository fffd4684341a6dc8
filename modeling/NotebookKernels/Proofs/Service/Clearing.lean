import NotebookKernels.Proofs.Service.Handover

/- What is left when all kernels are shut down.

   A task that shuts all kernels down keeps the pool's own lock from its look at the tracked kernels to
   its end. Meanwhile others bring kernels up, restart them and take them away; but none is inserted, and
   each of those that were there is looked at and removed (`Stage.Clears`). So when the task is through
   (`shutdown_all_empties`):
     1. no kernel is tracked;
     2. none that was tracked at any time before is ever tracked again;
     3. when a kernel goes whose call to create it is in progress, this call fails to start it.
   A call to create a kernel that waits for room or for the lock is not concerned: its kernel is not
   tracked yet, and may be inserted afterwards. -/
namespace NotebookKernels

namespace Errand

variable {e : Errand} {i : Nat}

/-- The errand removes the kernel of this entry, whatever its status. -/
def Takes (i : Nat) : Errand → Prop
  | .shutdownAll => True
  | .shutdown id | .giveUp id _ => id = .fresh i
  | .room .. | .pruneDead | .removeIfDead _ => False

theorem Takes.onlyDead (h : e.Takes i) : Pool.onlyDead e = false := by
  cases e with
  | shutdownAll | shutdown | giveUp => rfl
  | room | pruneDead | removeIfDead => exact False.elim h

theorem Takes.mem_agenda {p : Pool} (h : e.Takes i) (there : i ∈ p.tracked)
    (found : p.find? (.fresh i) = some i) : i ∈ p.agenda e := by
  cases e with
  | shutdownAll => exact there
  | shutdown id | giveUp id =>
    obtain rfl : id = .fresh i := h
    simp [Pool.agenda, found]
  | room | pruneDead | removeIfDead => exact False.elim h

end Errand

namespace Stage

/-- The task is on this errand, and has yet to look at the entry if the entry is tracked. -/
def Clears (e : Errand) (i : Nat) (p : Pool) : Stage → Prop
  | .structure e' => e' = e
  | .sweep e' todo _ | .closing e' _ todo _ | .stopping e' _ todo _ =>
    e' = e ∧ (i ∈ p.tracked → i ∈ todo)
  | _ => False

/-- A task that looks at entries has the pool's own lock. -/
theorem Clears.pool {s : Stage} {e : Errand} {i : Nat} {p : Pool} (h : s.Clears e i p) :
    s = .structure e ∨ .pool ∈ s.locks ∧ s.awaits ≠ some .pool := by
  cases s with
  | «structure» => exact .inl (congrArg _ h)
  | sweep | closing | stopping => exact .inr ⟨by simp [locks], by simp [awaits]⟩
  | _ => exact False.elim h

end Stage

namespace Pool

variable {p p' : Pool} {t : TaskId} {s s' : Stage} {m : Move} {e : Errand} {i : Nat} {f : Failure}
  {o : Outcome}

/-- What is left to look at when one entry has been removed. -/
theorem mem_todo_of_untrack {j : Nat} {todo : List Nat} (left : i ∈ p.tracked → i ∈ j :: todo)
    (there : i ∈ (p.untrack j).tracked) : i ∈ todo := by
  obtain ⟨old, hne⟩ := mem_tracked_untrack.mp there
  exact (List.mem_cons.mp (left old)).resolve_left hne

/-- A task that removes the kernel of an entry goes on, and does not pass over it. -/
theorem Advance.clears (h : Advance t p s p' (.wait s')) (takes : e.Takes i)
    (found : i ∈ p.tracked → p.find? (.fresh i) = some i) (hs : s.Clears e i p) :
    s'.Clears e i p' := by
  cases h with
  | enter e' held =>
    obtain rfl : e' = e := hs
    exact ⟨rfl, fun there => takes.mem_agenda there (found there)⟩
  | spare e' j todo found only =>
    obtain ⟨rfl, -⟩ := hs
    exact absurd (takes.onlyDead.symm.trans only) (by simp)
  | gone e' j todo found may absent =>
    obtain ⟨rfl, left⟩ := hs
    refine ⟨rfl, fun there => (List.mem_cons.mp (left there)).resolve_left ?_⟩
    rintro rfl
    exact absent there
  | forget e' j | close e' j =>
    obtain ⟨rfl, left⟩ := hs
    exact ⟨rfl, mem_todo_of_untrack left⟩
  | stop | stopped => exact hs
  | insert | evict | park =>
    obtain ⟨rfl, -⟩ := hs
    exact False.elim takes
  | abandon _ _ _ was | restartFailed _ _ _ was => obtain rfl | rfl := was <;> exact False.elim hs
  | _ => exact False.elim hs

/-- When it is through, the kernel is gone. -/
theorem Advance.cleared (h : Advance t p s p' (.finish o)) (hs : s.Clears e i p) :
    i ∉ p'.tracked ∧ ∃ found, o = e.outcome p found := by
  cases h with
  | conclude e' found =>
    obtain ⟨rfl, left⟩ := hs
    exact ⟨fun there => List.not_mem_nil (left there), found, rfl⟩
  | giveUp id f found =>
    obtain ⟨rfl, left⟩ := hs
    exact ⟨fun there => List.not_mem_nil (left there), found, rfl⟩
  | _ => exact False.elim hs

/-- A kernel is inserted under the pool's own lock. -/
theorem Advance.locked_of_starting (h : Advance t p s p' (.wait (.starting i))) :
    .pool ∈ s.locks ∧ s.awaits ≠ some .pool := by
  cases h with
  | insert => exact ⟨by simp [Stage.locks], by simp [Stage.awaits]⟩

/-- A kernel that does not come up fails to start. -/
theorem Advance.abandons_with (h : Advance t p s p' (.wait (.abandoning i f))) :
    ∃ why, f = .start why := by
  cases h with
  | late | abandon => exact ⟨_, rfl⟩

/-- Only a call to create a kernel that has given it up fails. -/
theorem Advance.abandoned_of_failed (h : Advance t p s p' (.finish (.failed f))) (hs : s.Founds i) :
    s = .abandoning i f ∧ i ∉ p'.tracked := by
  generalize hm : Move.finish (.failed f) = m at h
  cases h with
  | abandoned j f' =>
    obtain rfl : j = i := hs
    obtain rfl : f = f' := by simpa using hm
    exact ⟨rfl, fun there => (mem_tracked_untrack.mp there).2 rfl⟩
  | up j => exact absurd (Move.finish.inj hm).symm (Outcome.ofRecord_ne_failed _ f)
  | conclude e' found unborn => exact absurd (unborn.symm.trans hs) (by simp)
  | giveUp => cases hs
  | back | interrupted | interruptFailed | grant | refuse | reaped => exact False.elim hs
  | _ => cases hm

end Pool

namespace Scene

variable {l : Label} {t u : TaskId} {c c' : Scene} {w : Work} {p : Pool} {m : Move} {s su : Stage}
  {e : Errand} {i : Nat}

theorem Named.stride (h : c.Named) (adv : Pool.Advance t c.pool s p m) : (c.goOn t w p m).Named :=
  fun j hj => adv.id?_eq.trans (h j (adv.has_iff.mp hj))

/-- As long as a task has the pool's own lock, no other inserts a kernel. -/
theorem Sound.mem_tracked_of_other (sound : c.Sound) (ht : c.stage? t = some s)
    (lock : .pool ∈ s.locks) (held : s.awaits ≠ some .pool) (hne : u ≠ t)
    (hu : c.stage? u = some su) (adv : Pool.Advance u c.pool su p m) (there : i ∈ p.tracked) :
    i ∈ c.pool.tracked := by
  rcases adv.inserted there with old | ⟨-, rfl⟩
  · exact old
  · obtain ⟨lock', held'⟩ := adv.locked_of_starting
    have first := sound.holds ht lock held
    have first' := sound.holds hu lock' held'
    exact absurd (Option.some.inj (first'.symm.trans first)) hne

/-- Whoever has the worker of an entry and is not to insert it knows that nobody is. -/
theorem Sound.grown_of_worker (sound : c.Sound) (ht : c.stage? t = some s)
    (lock : .worker i ∈ s.locks) (held : s.awaits ≠ some (.worker i)) (unborn : s.newborn? ≠ some i) :
    c.Grown i where
  has := Pool.has_of_mem_worker (sound.mem_worker ht lock)
  unborn u su hu newborn := by
    obtain ⟨lock', held'⟩ := Stage.worker_of_newborn newborn (sound.ready hu).single
    have same := (sound.holds ht lock held).symm.trans (sound.holds hu lock' held')
    obtain rfl := Option.some.inj same
    obtain rfl := Option.some.inj (ht.symm.trans hu)
    exact unborn newborn

/-- A task is on its way to remove the kernel of an entry. -/
def Clearing (e : Errand) (i : Nat) (c : Scene) (s : Stage) : Prop := c.Named ∧ s.Clears e i c.pool

namespace Clearing

theorem own {s' : Stage} (sound : c.Sound) (takes : e.Takes i)
    (adv : Pool.Advance t c.pool s p (.wait s')) (h : Clearing e i c s) :
    Clearing e i (c.goOn t w p (.wait s')) s' :=
  ⟨h.1.stride adv, adv.clears takes (h.1.find? sound) h.2⟩

/-- What was not tracked is not tracked after it either, or the task has not looked yet. -/
theorem congr (h : Clearing e i c s) (named : c'.Named)
    (kept : .pool ∈ s.locks ∧ s.awaits ≠ some .pool → i ∈ c'.pool.tracked → i ∈ c.pool.tracked) :
    Clearing e i c' s := by
  refine ⟨named, ?_⟩
  have clears := h.2
  rcases h.2.pool with rfl | held
  · exact clears
  · cases s with
    | sweep | closing | stopping => exact ⟨clears.1, fun there => clears.2 (kept held there)⟩
    | _ => exact clears

theorem other (sound : c.Sound) (ht : c.stage? t = some s) (hne : u ≠ t)
    (hu : c.stage? u = some su) (adv : Pool.Advance u c.pool su p m) (h : Clearing e i c s) :
    Clearing e i (c.goOn u w p m) s :=
  h.congr (h.1.stride adv) fun held => sound.mem_tracked_of_other ht held.1 held.2 hne hu adv

theorem calm (turn : Turn l.still u c c') (h : Clearing e i c s) : Clearing e i c' s :=
  h.congr (h.1.turn turn) fun _ => tracked_of_calm turn

theorem stir {s₀ : Services} (h : Clearing e i s₀.scene s) : Clearing e i (s₀.stir l).scene s :=
  h.congr (h.1.alike (Services.alike_stir s₀ l)) fun _ there =>
    (Services.alike_stir s₀ l).tracked ▸ there

end Clearing

/-- A task creates the kernel of an entry; if it has given the kernel up, the kernel is gone. -/
def Founding (i : Nat) (c : Scene) (s : Stage) : Prop :=
  s.Founds i ∧ ∀ f, s = .abandoning i f → (∃ why, f = .start why) ∧ i ∉ c.pool.tracked

namespace Founding

theorem own {s' : Stage} (adv : Pool.Advance t c.pool s p (.wait s')) (h : Founding i c s) :
    Founding i (c.goOn t w p (.wait s')) s' := by
  refine ⟨adv.founds h.1, ?_⟩
  rintro f rfl
  exact ⟨adv.abandons_with, adv.abandons.1⟩

theorem congr (h : Founding i c s)
    (kept : ∀ f, s = .abandoning i f → i ∈ c'.pool.tracked → i ∈ c.pool.tracked) :
    Founding i c' s := by
  refine ⟨h.1, fun f hf => ?_⟩
  obtain ⟨why, gone⟩ := h.2 f hf
  exact ⟨why, fun there => gone (kept f hf there)⟩

theorem other (sound : c.Sound) (ht : c.stage? t = some s) (hu : c.stage? u = some su)
    (adv : Pool.Advance u c.pool su p m) (h : Founding i c s) :
    Founding i (c.goOn u w p m) s := by
  refine h.congr fun f hf there => ?_
  subst hf
  have grown : c.Grown i := sound.grown_of_worker ht (by simp [Stage.locks]) (by simp [Stage.awaits])
    (by simp [Stage.newborn?])
  exact (adv.inserted there).resolve_right fun new => grown.unborn u su hu new.1

theorem calm (turn : Turn l.still u c c') (h : Founding i c s) : Founding i c' s :=
  h.congr fun _ _ => tracked_of_calm turn

theorem stir {s₀ : Services} (h : Founding i s₀.scene s) : Founding i (s₀.stir l).scene s :=
  h.congr fun _ _ there => (Services.alike_stir s₀ l).tracked ▸ there

/-- As long as its kernel is tracked, the task brings the worker up. -/
theorem starts (sound : c.Sound) (ht : c.stage? t = some s) (h : Founding i c s)
    (there : i ∈ c.pool.tracked) : s.Starts i := by
  have unborn : s.newborn? ≠ some i := fun hn => (sound.ready ht).young i hn there
  cases s with
  | starting | readying => exact h.1
  | abandoning j f =>
    obtain rfl : j = i := h.1
    exact absurd there (h.2 f rfl).2
  | «structure» | sweep | closing | stopping => exact absurd h.1 unborn
  | parked => exact absurd (congrArg some h.1) unborn
  | _ => exact False.elim h.1

end Founding
end Scene

namespace Services

open Scene

variable {config : Config} {catalog : Catalog} {ls : List Label} {s s' s₁ d d' : Services} {l : Label}
  {t i : Nat} {e : Errand} {st : Stage}

/-! ## Errands that remove kernels -/

theorem clearing_run (takes : e.Takes i) (sound : s.scene.Sound) (ht : t < s.nextTask)
    (was : s.tasks.get? t = some (.pool .operation st)) (h : Clearing e i s.scene st)
    (run : s.run ls = some s') :
    s'.tasks.get? t = none ∨
      ∃ st, s'.tasks.get? t = some (.pool .operation st) ∧ Clearing e i s'.scene st := by
  have hkeep := operation_run (J := fun _ => Clearing e i) (P := fun _ => True)
    (fun _ _ _ _ h => h.stir) (fun _ _ _ _ _ sound _ adv h => h.own sound takes adv)
    (fun _ _ _ _ _ _ _ _ sound ht hne hu adv h => h.other sound ht hne hu adv)
    (fun _ _ _ _ _ _ _ _ _ turn h => h.calm turn) (fun _ _ => trivial) sound ht ⟨st, was, h⟩ run
  exact hkeep.2.2

/-- An operation of the pool that ends in a step ends with its last stride. -/
theorem finish_of_ends (sound : s.scene.Sound) (was : s.tasks.get? t = some (.pool .operation st))
    (step : s.step l = some s') (ends : s'.tasks.get? t = none) :
    ∃ o, Pool.Advance t s.pool st s'.pool (.finish o) ∧ s'.replies.get? t = some (.pool o) := by
  by_cases hl : l.task? = some t
  · obtain ⟨p, m, adv, -, rfl, ⟨st', rfl, hgo⟩ | ⟨o, rfl, -, reply⟩⟩ := operation_of_step hl was step
    · have hact : s'.scene.act t = some (.pool .operation st') := by
        rw [hgo]
        exact Function.update_self ..
      exact absurd (ends.symm.trans hact) (by simp)
    · exact ⟨o, adv, reply⟩
  · have same := (frame_of_step sound (sound.fresh.lt_of_act was) hl step).1
    exact absurd (ends.symm.trans (same.trans was)) (by simp)

theorem shutdownAll_begins (step : s.step (.call (.pool .shutdownAll)) = some s₁) :
    s₁.tasks.get? s.nextTask = some (.pool .operation (.structure .shutdownAll)) := by
  obtain rfl := Option.some.inj step
  exact Table.get?_set_self ..

/-! ## Calls to create a kernel -/

/-- The call to create the kernel of entry `i` was made in these steps, as task `t`. -/
def CreatedBy (s : Services) (ls : List Label) (i : Nat) (t : TaskId) : Prop :=
  ∃ before request refusal during d, ls = before ++ .call (.pool (.create request refusal)) :: during ∧
    s.run before = some d ∧ i = d.pool.entries.length ∧ t = d.nextTask

/-- The task of a call to create a kernel goes on creating it until it has ended. -/
theorem founding_of_create {request : KernelCreate} {refusal : Option Failure} (sound : d.scene.Sound)
    (call : d.step (.call (.pool (.create request refusal))) = some d')
    (goes : (d'.tasks.get? d.nextTask).isSome) (run : d'.run ls = some s) :
    s.tasks.get? d.nextTask = none ∨ ∃ st, s.tasks.get? d.nextTask = some (.pool .operation st) ∧
      Founding d.pool.entries.length s.scene st := by
  have sound' := sound_step sound call
  have ht : d.nextTask < d'.nextTask := nextTask_le_step sound call
  rcases create_begins call with ⟨ended, -⟩ | ⟨⟨ticket, was⟩, -⟩
  · exact absurd goes (by simp [ended])
  · have first : Founding d.pool.entries.length d'.scene
        (.structure (.room d.pool.entries.length ticket)) := ⟨rfl, by simp⟩
    have hkeep := operation_run (J := fun _ => Founding d.pool.entries.length) (P := fun _ => True)
      (fun _ _ _ _ h => h.stir) (fun _ _ _ _ _ _ _ adv h => h.own adv)
      (fun _ _ _ _ _ _ _ _ sound ht _ hu adv h => h.other sound ht hu adv)
      (fun _ _ _ _ _ _ _ _ _ turn h => h.calm turn) (fun _ _ => trivial) sound' ht ⟨_, was, first⟩ run
    exact hkeep.2.2

/-- Every entry was launched by a call to create its kernel. -/
theorem exists_created (run : (init config catalog).run ls = some s) (has : s.pool.Has i) :
    ∃ before request during d d', ls = before ++ .call (.pool (.create request none)) :: during ∧
      (init config catalog).run before = some d ∧
      d.step (.call (.pool (.create request none))) = some d' ∧ d'.run during = some s ∧
      i = d.pool.entries.length ∧ (d'.tasks.get? d.nextTask).isSome := by
  obtain ⟨before, l, during, d, d', rfl, reached, step, rest, unborn, born⟩ :=
    run_reaches (s := init config catalog) (Q := fun s => s.pool.Has i) (Nat.not_lt_zero i) has run
  have sound := sound_run (sound_init config catalog) reached
  cases deed_of_step sound.fresh step with
  | calm shown same => exact absurd ((same.has i).mp born) unborn
  | stride t w st p m own was adv shown same =>
    exact absurd (adv.has_iff.mp ((same.has i).mp born)) unborn
  | begin t call p q dead m n shown same opening after may =>
    have old : ¬p.Has i := fun hp => unborn ((same.has i).mp hp)
    have new : q.Has i := (after.has i).mp born
    cases opening with
    | create request name inspector =>
      obtain rfl := may.resolve_right fun inner => inner
      rcases create_begins step with ⟨-, kept, -⟩ | ⟨⟨ticket, was⟩, has, -⟩
      · exact absurd (kept ▸ born) unborn
      · exact ⟨before, request, during, d, d', rfl, reached, step, rest,
          ((has i).mp born).resolve_left unborn, by simp [was]⟩
    | _ => exact absurd (by simpa using new) old

/-- A call to create a kernel that is in progress is to fail from the step on in which the kernel goes. -/
theorem forsaken_of_createdBy {s₂ : Services} {before : List Label} {k : Label}
    (created : CreatedBy (init config catalog) before i t)
    (reached : (init config catalog).run before = some s) (goes : (s.tasks.get? t).isSome)
    (there : i ∈ s.pool.tracked) (step : s.step k = some s₁) (gone : i ∉ s₁.pool.tracked)
    (run : s₁.run ls = some s₂) : Forsaken t i (s₁.gather strides ls) s₂ := by
  obtain ⟨earlier, request, refusal, between, d, rfl, hd, rfl, rfl⟩ := created
  rw [run_append, hd, Option.bind_some] at reached
  obtain ⟨d', call, hrun⟩ := Option.bind_eq_some_iff.mp reached
  have sound := sound_run (sound_init config catalog) hd
  have sound' := sound_step sound call
  have ht : d.nextTask < d'.nextTask := nextTask_le_step sound call
  have begun : (d'.tasks.get? d.nextTask).isSome := by
    cases h : d'.tasks.get? d.nextTask with
    | none => simp [ended_run sound' ht h hrun] at goes
    | some => rfl
  rcases founding_of_create sound call begun hrun with ended | ⟨st, was, founding⟩
  · simp [ended] at goes
  · have sound₁ := sound_run sound' hrun
    have starts := founding.starts sound₁ (Sound.stage_of_act was) there
    exact forsaken_of_starts sound₁ was starts there step gone run

/-- As long as callers set no status by themselves, the call to create a tracked kernel that says that it
is starting is in progress. -/
theorem createdBy_of_starting (quiet : ∀ id status, .call (.pool (.updateStatus id status)) ∉ ls)
    (run : (init config catalog).run ls = some s) (there : i ∈ s.pool.tracked)
    (starting : s.pool.status? i = some .starting) :
    ∃ t, CreatedBy (init config catalog) ls i t ∧ (s.tasks.get? t).isSome := by
  obtain ⟨sound, staffed⟩ := staffed_run quiet run
  obtain ⟨before, request, during, d, d', rfl, reached, call, rest, rfl, goes⟩ :=
    exists_created run (sound.there i there)
  have sound₀ := sound_run (sound_init config catalog) reached
  obtain ⟨st, was, -⟩ := starts_of_starting sound₀ call goes rest staffed there starting
  exact ⟨d.nextTask, ⟨before, request, none, during, d, rfl, reached, rfl, rfl⟩, by simp [was]⟩

/-! ## When all kernels are shut down -/

/-- What is tracked at some time and not at a later one is never tracked again. -/
theorem gone_of_run {s₂ : Services} {ks : List Label} (sound : s.scene.Sound)
    (there : i ∈ s.pool.tracked) (run : s.run ls = some s₁) (gone : i ∉ s₁.pool.tracked)
    (later : s₁.run ks = some s₂) : i ∉ s₂.pool.tracked := by
  obtain ⟨sound₁, grown⟩ := grown_run sound (.of_tracked sound there) run
  exact gone_run sound₁ grown gone later

/-- Whatever kernel there was is gone when all have been shut down. -/
theorem cleared_of_shutdownAll {during : List Label} {s₂ s₃ : Services} (named : s.scene.Named)
    (sound : s.scene.Sound) (call : s.step (.call (.pool .shutdownAll)) = some s₁)
    (run : s₁.run during = some s₂) (waits : (s₂.tasks.get? s.nextTask).isSome)
    (step : s₂.step l = some s₃) (ends : s₃.tasks.get? s.nextTask = none) (i : Nat) :
    i ∉ s₃.pool.tracked ∧ s₃.replies.get? s.nextTask = some (.pool .done) := by
  have sound₁ := sound_step sound call
  have ht : s.nextTask < s₁.nextTask := nextTask_le_step sound call
  have takes : Errand.shutdownAll.Takes i := trivial
  have first : Clearing .shutdownAll i s₁.scene (.structure .shutdownAll) :=
    ⟨named_step named sound call, rfl⟩
  rcases clearing_run takes sound₁ ht (shutdownAll_begins call) first run with ended | ⟨st, was, clearing⟩
  · simp [ended] at waits
  · obtain ⟨o, adv, reply⟩ := finish_of_ends (sound_run sound₁ run) was step ends
    obtain ⟨gone, found, rfl⟩ := adv.cleared clearing.2
    exact ⟨gone, reply⟩

/-- Whatever the callers and the workers do and whichever task goes next: in the step in which a call to
shut all kernels down ends, no kernel is tracked, and none that was tracked at any time before is tracked
at any time after. When a kernel goes in the meantime and the call to create it is in progress, this call
fails to start it, in at most three steps that no answer of the worker holds up; and as long as callers
set no status by themselves, there is such a call for every tracked kernel that says that it is
starting. -/
theorem shutdown_all_empties (config : Config) (catalog : Catalog) (before during after : List Label)
    (s s₁ s₂ s₃ s₄ : Services) (l : Label) (reached : (init config catalog).run before = some s)
    (call : s.step (.call (.pool .shutdownAll)) = some s₁) (run : s₁.run during = some s₂)
    (waits : (s₂.tasks.get? s.nextTask).isSome) (step : s₂.step l = some s₃)
    (ends : s₃.tasks.get? s.nextTask = none) (later : s₃.run after = some s₄) :
    s₃.pool.tracked = [] ∧ s₃.replies.get? s.nextTask = some (.pool .done) ∧
    (∀ ks rest d i, before ++ .call (.pool .shutdownAll) :: during = ks ++ rest →
      (init config catalog).run ks = some d → i ∈ d.pool.tracked → i ∉ s₄.pool.tracked) ∧
    ∀ mid k rest d₁ d₂ i, during = mid ++ k :: rest → s₁.run mid = some d₁ → d₁.step k = some d₂ →
      i ∈ d₁.pool.tracked → i ∉ d₂.pool.tracked →
      (∀ t, CreatedBy (init config catalog) (before ++ .call (.pool .shutdownAll) :: mid) i t →
        (d₁.tasks.get? t).isSome →
        Forsaken t i (d₂.gather strides (rest ++ l :: after)) s₄ ∧
        ∀ st, s₄.tasks.get? t = some (.pool .operation st) →
          (s₄.step (.answer t .ok)).isSome ∧ ∀ f, (s₄.step (.answer t (.failed f))).isSome) ∧
      ((∀ id status, .call (.pool (.updateStatus id status)) ∉
          before ++ .call (.pool .shutdownAll) :: mid) →
        d₁.pool.status? i = some .starting →
        ∃ t, CreatedBy (init config catalog) (before ++ .call (.pool .shutdownAll) :: mid) i t ∧
          (d₁.tasks.get? t).isSome) := by
  have sound := sound_run (sound_init config catalog) reached
  have cleared := cleared_of_shutdownAll (named_run reached) sound call run waits step ends
  have empty : s₃.pool.tracked = [] := List.eq_nil_iff_forall_not_mem.mpr fun i => (cleared i).1
  refine ⟨empty, (cleared 0).2, ?_, ?_⟩
  · intro ks rest d i hsplit hd there
    have all : (init config catalog).run (before ++ .call (.pool .shutdownAll) :: during) = some s₂ := by
      rw [run_append, reached, Option.bind_some, run_cons call, run]
    rw [hsplit, run_append, hd, Option.bind_some] at all
    exact gone_of_run (sound_run (sound_init config catalog) hd) there (run_concat all step)
      (cleared i).1 later
  · rintro mid k rest d₁ d₂ i rfl hmid hk there gone
    have reached₁ : (init config catalog).run (before ++ .call (.pool .shutdownAll) :: mid) = some d₁ := by
      rw [run_append, reached, Option.bind_some, run_cons call, hmid]
    rw [run_append, hmid, Option.bind_some, run_cons hk] at run
    have run₂ : d₂.run (rest ++ l :: after) = some s₄ := by
      rw [run_append, run, Option.bind_some, run_cons step, later]
    refine ⟨fun t created goes => ?_, fun quiet => createdBy_of_starting quiet reached₁ there⟩
    have forsaken := forsaken_of_createdBy created reached₁ goes there hk gone run₂
    refine ⟨forsaken, fun st hst => ?_⟩
    cases forsaken with
    | pending st' was fails => exact answer_of_fails was fails
    | failed why ended => exact absurd (ended.symm.trans hst) (by simp)

/-- There is room for one kernel; one is starting, and a call to create another waits for room. -/
def startingAndParked : List Label :=
  [.call (.pool (.create { } none)), .resume 0, .resume 0, .call (.pool (.create { } none)), .resume 1,
    .resume 1, .resume 1]

/-- All kernels are shut down. The kernel that is starting goes and is not created, and the other takes
the room. -/
theorem shutdown_all_empties_starting :
    ∃ s s₁ s₂ s₃ s₄ why, (init { maxKernels := 1 } [.python3]).run startingAndParked = some s ∧
      s.pool.tracked = [0] ∧ s.step (.call (.pool .shutdownAll)) = some s₁ ∧
      s₁.run [.resume 2, .resume 2] = some s₂ ∧ s₂.step (.resume 2) = some s₃ ∧
      s₃.pool.tracked = [] ∧
      s₃.run [.answer 0 .ok, .answer 0 .ok, .answer 0 .ok, .resume 1, .resume 1, .resume 1] = some s₄ ∧
      0 ∉ s₄.pool.tracked ∧ s₄.pool.tracked = [1] ∧
      s₄.replies.get? 0 = some (.pool (.failed (.start why))) := by
  let create : Label := .call (.pool (.create { } none))
  let others : List Label := [.resume 0, .resume 0, create, .resume 1, .resume 1, .resume 1]
  let after : List Label := [.answer 0 .ok, .answer 0 .ok, .answer 0 .ok, .resume 1, .resume 1, .resume 1]
  have h : ((init { maxKernels := 1 } [.python3]).run startingAndParked).bind (fun s =>
      (s.step (.call (.pool .shutdownAll))).bind fun s₁ => (s₁.step (.resume 2)).bind fun d₁ =>
        (d₁.step (.resume 2)).bind fun s₂ => (s₂.step (.resume 2)).bind fun s₃ =>
          (s₃.run after).map fun s₄ =>
            (s.nextTask, [s.pool.tracked, d₁.pool.tracked, s₂.pool.tracked, s₄.pool.tracked],
              [d₁.tasks.get? 0, s₂.tasks.get? 2, s₃.tasks.get? 2, s₄.tasks.get? 0].map Option.isSome)) =
      some (2, [[0], [0], [], [1]], [true, true, false, false]) := by
    decide
  obtain ⟨s, reached, h⟩ := Option.bind_eq_some_iff.mp h
  obtain ⟨s₁, call, h⟩ := Option.bind_eq_some_iff.mp h
  obtain ⟨d₁, enter, h⟩ := Option.bind_eq_some_iff.mp h
  obtain ⟨s₂, forget, h⟩ := Option.bind_eq_some_iff.mp h
  obtain ⟨s₃, step, h⟩ := Option.bind_eq_some_iff.mp h
  obtain ⟨s₄, later, h⟩ := Option.map_eq_some_iff.mp h
  simp only [Prod.mk.injEq, List.map_cons, List.cons.injEq, Option.isSome_eq_false_iff,
    Option.isNone_iff_eq_none, and_true] at h
  obtain ⟨next, ⟨tracked, there, gone, tracked₄⟩, goes, waits, ends, ended, -⟩ := h
  rw [← next] at waits ends
  have mid : s₁.run [.resume 2] = some d₁ := by rw [run_cons enter, Services.run]
  have run : s₁.run [.resume 2, .resume 2] = some s₂ := by
    rw [run_cons enter, run_cons forget, Services.run]
  obtain ⟨empty, -, old, removals⟩ := shutdown_all_empties { maxKernels := 1 } [.python3]
    startingAndParked [.resume 2, .resume 2] after s s₁ s₂ s₃ s₄ _ reached call run waits step ends later
  have there₀ : 0 ∈ s.pool.tracked := by simp [tracked]
  have gone₄ : 0 ∉ s₄.pool.tracked := old startingAndParked _ s 0 rfl reached there₀
  obtain ⟨forsaken, -⟩ := (removals [.resume 2] (.resume 2) [] d₁ s₂ 0 rfl mid forget (by simp [there])
    (by simp [gone])).1 0 ⟨[], { }, none, others ++ [.call (.pool .shutdownAll), .resume 2], _, rfl, rfl,
      rfl, rfl⟩ goes
  cases forsaken with
  | pending st was => exact absurd (ended.symm.trans was) (by simp)
  | failed why _ reply =>
    exact ⟨s, s₁, s₂, s₃, s₄, why, reached, tracked, call, run, step, empty, later, gone₄, tracked₄, reply⟩

end Services
end NotebookKernels
