import NotebookKernels.Proofs.Service.Membership
import NotebookKernels.Proofs.Service.Statuses

/- Who shuts the worker of a removed kernel down, if nobody restarts kernels.

   A worker belongs to the task that brings it up until its kernel is up or removed, and to the pool
   as long as the kernel is tracked. Whoever removes a kernel takes the worker over, unless the kernel
   is starting: then the worker is left to the task that brings it up, which looks again when the
   worker is ready. `Handed` says where the worker of an entry is on this way. So (`worker_shut_down_once`):
     1. the worker of a tracked kernel was never shut down, and that of a removed one was shut down
        once, or there is exactly one task that is to do so;
     2. a call to create a kernel returns it only in a step after which it is tracked;
     3. when a kernel is removed while it starts, the call to create it fails. -/
namespace NotebookKernels

open Function (update)

namespace Stage

/-- The task creates the kernel of this entry, or gives it up. -/
def Founds (i : Nat) : Stage → Prop
  | .structure e | .sweep e _ _ | .closing e _ _ _ | .stopping e _ _ _ => e.newborn? = some i
  | .parked j _ | .starting j | .readying j | .abandoning j _ => j = i
  | _ => False

/-- The task is on its way to fail to create the kernel of this entry, if the kernel is gone. -/
def Fails (i : Nat) : Stage → Prop
  | .starting j | .readying j | .abandoning j (.start _) => j = i
  | _ => False

theorem Starts.fails {s : Stage} {i : Nat} (h : s.Starts i) : s.Fails i := by
  cases s with
  | starting | readying => exact h
  | _ => exact False.elim h

/-- How many steps a task has left that does not create its kernel. -/
def remaining : Stage → Nat
  | .starting _ => 3
  | .readying _ => 2
  | .abandoning .. => 1
  | _ => 0

end Stage

namespace Pool

variable {p p' : Pool} {t : TaskId} {s s' : Stage} {m : Move} {i : Nat} {k : Kernel}

/-- A task that creates a kernel goes on doing so, or gives it up. -/
theorem Advance.founds (h : Advance t p s p' (.wait s')) (hs : s.Founds i) : s'.Founds i := by
  cases h with
  | enter | spare | gone | forget | close | stop | stopped | evict | started | late => exact hs
  | insert | park => exact Option.some.inj hs
  | unpark => exact congrArg some hs
  | abandon _ _ _ was => obtain rfl | rfl := was <;> exact hs
  | restartFailed _ _ _ was => obtain rfl | rfl := was <;> exact False.elim hs
  | _ => exact False.elim hs

/-- It returns the kernel only when it is up, and tracked. -/
theorem Advance.founded (h : Advance t p s p' m) (hm : m = .finish (.kernel k)) (hs : s.Founds i) :
    i ∈ p'.tracked ∧ (∃ r, p.record? i = some r ∧ k = { r with status := .idle }) ∧
      p'.record? i = some { k with lastActivity := p'.now } := by
  cases h with
  | up j there =>
    obtain rfl : j = i := hs
    obtain ⟨old, kept⟩ := record?_touch_of_returned hm
    refine ⟨there, old, ?_⟩
    rw [record?_releaseWorker, record?_wake]
    exact kept
  | conclude e found unborn => exact absurd (unborn.symm.trans hs) (by simp)
  | abandoned | restart | restarted => cases hm
  | abandon _ _ _ was | restartFailed _ _ _ was => cases hm
  | giveUp => cases hs
  | back | interrupted | interruptFailed | grant | refuse | reaped => exact False.elim hs
  | _ => cases hm

/-- A task whose kernel goes in its own step has given it up. -/
theorem Advance.abandons_of_gone (h : Advance t p s p' m) (hs : s.Starts i) (there : i ∈ p.tracked)
    (gone : i ∉ p'.tracked) : ∃ why, m = .wait (.abandoning i (.start why)) := by
  cases h with
  | started | up => exact absurd there gone
  | late j absent =>
    obtain rfl : j = i := hs
    exact absurd there absent
  | abandon s j why was =>
    obtain rfl : j = i := by obtain rfl | rfl := was <;> exact hs
    exact ⟨why, rfl⟩
  | restartFailed _ _ _ was => obtain rfl | rfl := was <;> exact False.elim hs
  | _ => exact False.elim hs

/-- The task of a kernel that is gone fails after a few steps. -/
theorem Advance.fails (h : Advance t p s p' m) (gone : i ∉ p.tracked) (hs : s.Fails i) :
    (∃ s', m = .wait s' ∧ s'.Fails i ∧ s'.remaining < s.remaining) ∨
      ∃ why, m = .finish (.failed (.start why)) := by
  cases h with
  | started j => exact .inl ⟨_, rfl, hs, Nat.lt_succ_self 2⟩
  | late j absent => exact .inl ⟨_, rfl, hs, Nat.lt_succ_self 1⟩
  | up j there =>
    obtain rfl : j = i := hs
    exact absurd there gone
  | abandon s j why was =>
    have later : Stage.remaining (.abandoning j (.start why)) < s.remaining := by
      obtain rfl | rfl := was <;> simp [Stage.remaining]
    exact .inl ⟨_, rfl, by obtain rfl | rfl := was <;> exact hs, later⟩
  | abandoned j f =>
    cases f with
    | start why => exact .inr ⟨why, rfl⟩
    | _ => exact False.elim hs
  | restartFailed _ _ _ was => obtain rfl | rfl := was <;> exact False.elim hs
  | _ => exact False.elim hs

end Pool

namespace Services

open Scene

variable {config : Config} {catalog : Catalog} {ls before during : List Label}
  {s s' d d' : Services} {l : Label} {t u : TaskId} {i : Nat} {b : Prop}

/-! ## Runs without restarts -/

/-- If no caller restarts a kernel, no status says that one is restarting. -/
theorem unrestarting_step (fresh : s.scene.Fresh)
    (quiet : ∀ id st, l ≠ .call (.pool (.updateStatus id st)))
    (unrestarted : ∀ id, l ≠ .call (.pool (.restart id))) (step : s.step l = some s')
    (h : s.pool.status? i ≠ some .restarting) : s'.pool.status? i ≠ some .restarting := by
  intro hi
  have kept : ∀ {p : Pool}, p.SameWorkers s'.pool → p.status? i = some .restarting :=
    fun same => (same.status i _ hi).resolve_right (by simp)
  cases deed_of_step fresh step with
  | calm shown same => exact h (kept same)
  | stride t w st p m own was adv shown same =>
    exact h (Staffed.older_of_advance (c := s.scene) adv (kept same) (by simp) (by simp))
  | begin t call p q dead m n shown before opening after may =>
    have old : p.status? i ≠ some .restarting := by
      intro hp
      exact h ((before.status i _ hp).resolve_right (by simp))
    have quiet' : ∀ id st, call ≠ .updateStatus id st := by
      rintro id st rfl
      exact may.elim (quiet id st) fun inner => inner
    rcases opening.statuses quiet' with ⟨-, same⟩ | ⟨j, hm, -, -⟩ | ⟨-, new⟩
    · exact old ((same i).symm.trans (kept after))
    · subst hm
      obtain ⟨-, id, rfl⟩ := opening.of_restartLock
      exact may.elim (unrestarted id) fun inner => inner
    · have hi' := (new i).symm.trans (kept after)
      split at hi'
      · cases hi'
      · exact old hi'

/-- If no caller restarts a kernel, nobody asks for a worker to restart. -/
theorem unasked_step (unrestarted : ∀ id, l ≠ .call (.pool (.restart id)))
    (bearing : Bearing i s l s') (h : ∀ u, ¬s.scene.Stands (Stage.Asks i) u) :
    ∀ u, ¬s'.scene.Stands (Stage.Asks i) u := by
  intro u hu
  cases bearing with
  | aside _ _ _ _ _ _ asks | insert _ _ _ _ _ asks | forget _ _ _ _ _ _ asks
  | close _ _ _ _ _ _ _ asks | shut _ _ _ _ _ _ _ asks | abandon _ _ _ _ _ _ _ _ _ asks
  | up _ _ _ _ asks =>
    exact h u ((asks u).mp hu)
  | ask id called => exact unrestarted id called
  | restart t _ _ was => exact h t was

/-! ## The worker of one entry -/

/-- Where the worker of an entry is, if nobody restarts kernels: its kernel is not inserted yet, or
tracked; or it is gone, and one task is to shut the worker down, or has done so. The proposition says
whether the kernel was inserted. -/
inductive Handed (i : Nat) (s : Services) (inserted : Prop) : Prop
  | unborn (gone : i ∉ s.pool.tracked) (none : s.pool.shutdowns i = 0)
      (unowed : ∀ u, ¬s.scene.Stands (Stage.Owes i) u) (before : ¬inserted)
  | tracked (there : i ∈ s.pool.tracked) (none : s.pool.shutdowns i = 0) (after : inserted)
  | owed (gone : i ∉ s.pool.tracked) (none : s.pool.shutdowns i = 0) (grown : s.scene.Grown i)
      (u : TaskId) (owes : s.scene.Stands (Stage.Owes i) u)
      (sole : ∀ v, s.scene.Stands (Stage.Owes i) v → v = u) (after : inserted)
  | settled (gone : i ∉ s.pool.tracked) (once : s.pool.shutdowns i = 1) (grown : s.scene.Grown i)
      (unowed : ∀ u, ¬s.scene.Stands (Stage.Owes i) u) (after : inserted)

namespace Handed

theorem mem_iff (step : s.step l = some s') (gone : i ∉ s.pool.tracked) :
    i ∈ s.inserted l ↔ i ∈ s'.pool.tracked := by
  rw [mem_inserted step, and_iff_left gone]

/-- The tasks that owe the worker a shutdown are the same. -/
theorem owes_congr
    (starts : ∀ u, s'.scene.Stands (Stage.Starts i) u ↔ s.scene.Stands (Stage.Starts i) u)
    (closes : ∀ u, s'.scene.Stands (Stage.Closes i) u ↔ s.scene.Stands (Stage.Closes i) u)
    (u : TaskId) :
    s'.scene.Stands (Stage.Owes i) u ↔ s.scene.Stands (Stage.Owes i) u := by
  rw [stands_owes, starts, closes, ← stands_owes]

/-- Whoever brings a worker up is not the one who is to shut it down. -/
theorem not_starts_of_closes (hu : s.scene.Stands (Stage.Closes i) u) :
    ¬s.scene.Stands (Stage.Starts i) u := by
  obtain ⟨st, hst, closes⟩ := hu
  rw [stands_iff hst]
  exact closes.not_starts

/-- Only the task `t` stands at such stages no more, and it did not stand at the others. -/
theorem ne_of_lost {P Q : Stage → Prop}
    (lost : ∀ u, s'.scene.Stands P u ↔ u ≠ t ∧ s.scene.Stands P u)
    (kept : ∀ u, s'.scene.Stands Q u ↔ s.scene.Stands Q u) (own : ¬s.scene.Stands Q t)
    (h : s'.scene.Stands P v ∨ s'.scene.Stands Q v) :
    v ≠ t ∧ (s.scene.Stands P v ∨ s.scene.Stands Q v) := by
  rw [lost, kept] at h
  rcases h with ⟨hne, hP⟩ | hQ
  · exact ⟨hne, .inl hP⟩
  · refine ⟨?_, .inr hQ⟩
    rintro rfl
    exact own hQ

/-- The task that was alone in owing the worker a shutdown has shut it down. -/
theorem of_paid (gone : i ∉ s'.pool.tracked) (grown : s'.scene.Grown i)
    (none : s.pool.shutdowns i = 0) (calls : s'.pool.calls i = s.pool.calls i ++ [.shutdown])
    (sole : ∀ v, s.scene.Stands (Stage.Owes i) v → v = t)
    (paid : ∀ v, s'.scene.Stands (Stage.Owes i) v → v ≠ t ∧ s.scene.Stands (Stage.Owes i) v)
    (after : b) : Handed i s' b := by
  refine .settled gone ?_ grown ?_ after
  · rw [Pool.shutdowns_append calls, none]
    rfl
  · intro v hv
    obtain ⟨hne, owed⟩ := paid v hv
    exact hne (sole v owed)

theorem of_tracked (sound : s.scene.Sound) (staffed : s.scene.Staffed) (removed : Removed i s)
    (unrestarting : s.pool.status? i ≠ some .restarting)
    (unasked : ∀ u, ¬s.scene.Stands (Stage.Asks i) u)
    (unrestarted : ∀ id, l ≠ .call (.pool (.restart id))) (step : s.step l = some s')
    (there : i ∈ s.pool.tracked) (none : s.pool.shutdowns i = 0) (after : b)
    (bearing : Bearing i s l s') : Handed i s' (b ∨ i ∈ s.inserted l) := by
  have grown' : s'.scene.Grown i := .step sound step (.of_tracked sound there)
  have unclosed : ∀ u, ¬s.scene.Stands (Stage.Closes i) u := fun u hu => (removed.gone u hu).1 there
  have same : s'.pool.calls i = s.pool.calls i → s'.pool.shutdowns i = 0 := by
    intro calls
    rw [Pool.shutdowns, calls]
    exact none
  cases bearing with
  | ask id called => exact absurd called (unrestarted id)
  | restart t _ _ was => exact absurd was (unasked t)
  | shut t _ _ was => exact absurd was (unclosed t)
  | aside kept told calls mild =>
    refine .tracked (kept.mpr there) ?_ (.inl after)
    rw [Pool.shutdowns_append calls, Pool.count_shutdown_of_mild mild, none]
  | insert t newborn there' calls =>
    refine .tracked there' ?_ (.inl after)
    rw [Pool.shutdowns_append calls, none]
    rfl
  | up _ kept calls => exact .tracked kept (same calls) (.inl after)
  | forget _ starting gone calls starts closes =>
    -- the worker is left to the task that brings it up
    obtain ⟨u, st, hu, hst⟩ := staffed.starting i there starting
    have owes := owes_congr starts closes
    refine .owed gone (same calls) grown' u ((owes u).mpr ⟨st, hu, .inl hst⟩) ?_ (.inl after)
    intro v hv
    rw [owes, stands_owes] at hv
    exact sound.starts_inj (hv.resolve_right (unclosed v)) ⟨st, hu, hst⟩
  | close t _ gone settled calls starts closes =>
    refine .owed gone (same calls) grown' t (stands_owes.mpr (.inr ((closes t).mpr (.inl rfl)))) ?_
      (.inl after)
    intro v hv
    rcases stands_owes.mp hv with hv | hv
    · exact absurd (settled v ((starts v).mp hv)) unrestarting
    · exact ((closes v).mp hv).resolve_right (unclosed v)
  | abandon t gone calls was st why shown starts closes =>
    refine of_paid (t := t) gone grown' none calls ?_ ?_ (.inl after)
    · intro v hv
      exact sound.starts_inj ((stands_owes.mp hv).resolve_right (unclosed v)) was
    · intro v hv
      rw [stands_owes] at hv ⊢
      exact ne_of_lost starts closes (unclosed t) hv

theorem of_gone (sound : s.scene.Sound) (unasked : ∀ u, ¬s.scene.Stands (Stage.Asks i) u)
    (step : s.step l = some s') (gone : i ∉ s.pool.tracked) (none : s.pool.shutdowns i = 0)
    (grown : s.scene.Grown i) (owes : s.scene.Stands (Stage.Owes i) u)
    (sole : ∀ v, s.scene.Stands (Stage.Owes i) v → v = u) (after : b)
    (bearing : Bearing i s l s') : Handed i s' (b ∨ i ∈ s.inserted l) := by
  have gone' := gone_of_step sound grown gone step
  have grown' := grown.step sound step
  cases bearing with
  | ask _ _ there | forget there | close _ there | up there => exact absurd there gone
  | insert _ _ there => exact absurd there gone'
  | restart t _ _ was => exact absurd was (unasked t)
  | aside kept told calls mild starts closes =>
    have same := owes_congr starts closes
    refine .owed gone' ?_ grown' u ((same u).mpr owes) (fun v hv => sole v ((same v).mp hv)) (.inl after)
    rw [Pool.shutdowns_append calls, Pool.count_shutdown_of_mild mild, none]
  | shut t kept calls was first starts closes =>
    obtain rfl := sole t (stands_owes.mpr (.inr was))
    refine of_paid (t := t) gone' grown' none calls sole (fun v hv => ?_) (.inl after)
    rw [stands_owes, or_comm] at hv ⊢
    exact ne_of_lost closes starts (not_starts_of_closes was) hv
  | abandon t _ calls was st why shown starts closes =>
    obtain rfl := sole t (stands_owes.mpr (.inl was))
    refine of_paid (t := t) gone' grown' none calls sole (fun v hv => ?_) (.inl after)
    rw [stands_owes] at hv ⊢
    exact ne_of_lost starts closes (fun ht => not_starts_of_closes ht was) hv

/-- A worker that nobody owes a shutdown stays as it is as long as its kernel is not tracked. -/
theorem of_unowed (unasked : ∀ u, ¬s.scene.Stands (Stage.Asks i) u) (gone : i ∉ s.pool.tracked)
    (gone' : i ∉ s'.pool.tracked) (unowed : ∀ u, ¬s.scene.Stands (Stage.Owes i) u)
    (bearing : Bearing i s l s') :
    s'.pool.shutdowns i = s.pool.shutdowns i ∧ ∀ u, ¬s'.scene.Stands (Stage.Owes i) u := by
  cases bearing with
  | ask _ _ there | forget there | close _ there | up there => exact absurd there gone
  | insert _ _ there => exact absurd there gone'
  | restart t _ _ was => exact absurd was (unasked t)
  | shut t _ _ was => exact absurd (stands_owes.mpr (.inr was)) (unowed t)
  | abandon t _ _ was => exact absurd (stands_owes.mpr (.inl was)) (unowed t)
  | aside kept told calls mild starts closes =>
    refine ⟨?_, fun u hu => unowed u ((owes_congr starts closes u).mp hu)⟩
    rw [Pool.shutdowns_append calls, Pool.count_shutdown_of_mild mild, Nat.add_zero]

/-- A step hands the worker of every entry on in this way. -/
theorem next (h : Handed i s b) (sound : s.scene.Sound) (staffed : s.scene.Staffed)
    (removed : Removed i s) (unrestarting : s.pool.status? i ≠ some .restarting)
    (unasked : ∀ u, ¬s.scene.Stands (Stage.Asks i) u)
    (unrestarted : ∀ id, l ≠ .call (.pool (.restart id))) (step : s.step l = some s')
    (bearing : Bearing i s l s') : Handed i s' (b ∨ i ∈ s.inserted l) := by
  cases h with
  | tracked there none after =>
    exact of_tracked sound staffed removed unrestarting unasked unrestarted step there none after
      bearing
  | owed gone none grown u owes sole after =>
    exact of_gone sound unasked step gone none grown owes sole after bearing
  | settled gone once grown unowed after =>
    have gone' := gone_of_step sound grown gone step
    obtain ⟨same, unowed'⟩ := of_unowed unasked gone gone' unowed bearing
    exact .settled gone' (same.trans once) (grown.step sound step) unowed' (.inl after)
  | unborn gone none unowed before =>
    by_cases there : i ∈ s'.pool.tracked
    · refine .tracked there ?_ (.inr ((mem_iff step gone).mpr there))
      cases bearing with
      | insert t _ _ calls =>
        rw [Pool.shutdowns_append calls, none]
        rfl
      | aside kept | shut _ kept | restart _ kept => exact absurd (kept.mp there) gone
      | ask _ _ old | up old => exact absurd old gone
      | forget _ _ out | close _ _ out | abandon _ out => exact absurd there out
    · obtain ⟨same, unowed'⟩ := of_unowed unasked gone there unowed bearing
      refine .unborn there (same.trans none) unowed' ?_
      rintro (hb | hi)
      · exact before hb
      · exact there ((mem_iff step gone).mp hi)

/-- How often the worker of a kernel that was inserted was shut down. -/
theorem shutdowns {b : Prop} (h : Handed i s b) (inserted : b) :
    (i ∈ s.pool.tracked → s.pool.shutdowns i = 0) ∧
    (i ∉ s.pool.tracked →
      (s.pool.shutdowns i = 1 ∧ ∀ u, ¬s.scene.Stands (Stage.Owes i) u) ∨
        s.pool.shutdowns i = 0 ∧ ∃! u, s.scene.Stands (Stage.Owes i) u) ∧
    ((∀ t w st, s.tasks.get? t ≠ some (.pool w st)) →
      s.pool.shutdowns i = if i ∈ s.pool.tracked then 0 else 1) := by
  cases h with
  | unborn _ _ _ before => exact absurd inserted before
  | tracked there none =>
    exact ⟨fun _ => none, fun gone => absurd there gone, fun _ => by rw [if_pos there, none]⟩
  | owed gone none _ u owes sole =>
    refine ⟨fun there => absurd there gone, fun _ => .inr ⟨none, u, owes, sole⟩, fun idle => ?_⟩
    obtain ⟨st, hst, -⟩ := owes
    obtain ⟨w, hw⟩ := stage_of_scene hst
    exact absurd hw (idle u w st)
  | settled gone once _ unowed =>
    exact ⟨fun there => absurd there gone, fun _ => .inl ⟨once, unowed⟩,
      fun _ => by rw [if_neg gone, once]⟩

end Handed

/-- As long as callers set no status by themselves and restart no kernel, the worker of every entry is
handed on in this way. -/
theorem handed_run (quiet : ∀ id status, .call (.pool (.updateStatus id status)) ∉ ls)
    (unrestarted : ∀ id, .call (.pool (.restart id)) ∉ ls)
    (run : (init config catalog).run ls = some s) (i : Nat) :
    Handed i s (i ∈ (init config catalog).gather inserted ls) := by
  -- no kernel ever is to be restarted, so whoever closes a kernel is alone with its worker
  have hkeep := run_induction (I := fun ls s =>
    (∀ id status, .call (.pool (.updateStatus id status)) ∉ ls) →
      (∀ id, .call (.pool (.restart id)) ∉ ls) →
      s.pool.status? i ≠ some .restarting ∧ (∀ u, ¬s.scene.Stands (Stage.Asks i) u) ∧
        Handed i s (i ∈ (init config catalog).gather inserted ls)) ?_ ?_ run quiet unrestarted
  · exact hkeep.2.2
  · intro _ _
    have nobody : ∀ {P : Stage → Prop} {u}, ¬(init config catalog).scene.Stands P u := by
      rintro P u ⟨st, hst, -⟩
      cases hst
    exact ⟨by simp [init, Pool.empty, Pool.status?, Pool.entry?], fun u => nobody,
      .unborn List.not_mem_nil rfl (fun u => nobody) List.not_mem_nil⟩
  · intro before l d d' reached step ih quiet unrestarted
    have quiet' : ∀ id status, .call (.pool (.updateStatus id status)) ∉ before :=
      fun id status h => quiet id status (List.mem_append_left _ h)
    have unrestarted' : ∀ id, .call (.pool (.restart id)) ∉ before :=
      fun id h => unrestarted id (List.mem_append_left _ h)
    have quiet_l : ∀ id st, l ≠ .call (.pool (.updateStatus id st)) := by
      rintro id st rfl
      exact quiet id st (by simp)
    have unrestarted_l : ∀ id, l ≠ .call (.pool (.restart id)) := by
      rintro id rfl
      exact unrestarted id (by simp)
    obtain ⟨unrestarting, unasked, handed⟩ := ih quiet' unrestarted'
    obtain ⟨sound, staffed⟩ := staffed_run quiet' reached
    have bearing := bearing_of_reached quiet' reached step i
    refine ⟨unrestarting_step sound.fresh quiet_l unrestarted_l step unrestarting,
      unasked_step unrestarted_l bearing unasked, ?_⟩
    rw [gather_append_singleton reached, List.mem_append]
    exact handed.next sound staffed (removed_run quiet' reached i) unrestarting unasked unrestarted_l
      step bearing

/-! ## The call to create a kernel -/

/-- A call to create a kernel fails at once because of its spec or its launcher, and leaves the pool as it
was, or its worker is launched as the next entry, and it asks for room. -/
theorem create_begins {request : KernelCreate} {refusal : Option Failure}
    (step : d.step (.call (.pool (.create request refusal))) = some d') :
    (d'.tasks.get? d.nextTask = none ∧ d'.pool = d.pool ∧
      ∃ f, d'.replies.get? d.nextTask = some (.pool (.failed f)) ∧
        (d.catalog.find? request.name = none ∧ f = .unknownSpec request.name ∨ refusal = some f)) ∨
      (∃ ticket, d'.tasks.get? d.nextTask =
        some (.pool .operation (.structure (.room d.pool.entries.length ticket)))) ∧
      (∀ j, d'.pool.Has j ↔ d.pool.Has j ∨ j = d.pool.entries.length) ∧
      ∀ u, u ≠ d.nextTask → d'.tasks.get? u = d.tasks.get? u := by
  obtain rfl := Option.some.inj step
  simp only [start, startPool, Pool.start]
  split
  · next unknown =>
    exact .inl ⟨Table.get?_erase_self .., rfl, _, Table.get?_set_self .., .inl ⟨unknown, rfl⟩⟩
  · exact .inl ⟨Table.get?_erase_self .., rfl, _, Table.get?_set_self .., .inr rfl⟩
  · refine .inr ⟨⟨_, Table.get?_set_self ..⟩, fun j => ?_, fun u hu => Table.get?_set_of_ne hu _ _⟩
    show Pool.Has (((d.pool.launch _ _ _).requestWorker _ _).requestStructure _) j ↔ _
    simp

/-- The task goes on creating its kernel until it has ended. -/
theorem founding_run {st : Stage} (sound : d.scene.Sound) (ht : t < d.nextTask)
    (was : d.tasks.get? t = some (.pool .operation st)) (founds : st.Founds i)
    (run : d.run ls = some s) :
    s.tasks.get? t = none ∨ ∃ st, s.tasks.get? t = some (.pool .operation st) ∧ st.Founds i := by
  have hkeep := operation_run (J := fun _ _ st => st.Founds i) (P := fun _ => True)
    (fun _ _ _ _ h => h) (fun _ _ _ _ _ _ _ adv h => adv.founds h)
    (fun _ _ _ _ _ _ _ _ _ _ _ _ _ h => h) (fun _ _ _ _ _ _ _ _ _ _ h => h) (fun _ _ => trivial)
    sound ht ⟨st, was, founds⟩ run
  exact hkeep.2.2

/-- It returns the kernel in a step after which the kernel is tracked. -/
theorem tracked_of_created {request : KernelCreate} {refusal : Option Failure} {k : Kernel}
    (sound : d.scene.Sound) (call : d.step (.call (.pool (.create request refusal))) = some d')
    (run : d'.run during = some s)
    (returns : s.replies.get? d.nextTask = some (.pool (.kernel k))) :
    ∃ mid l rest d₁ d₂, during = mid ++ l :: rest ∧ d'.run mid = some d₁ ∧
      d₁.step l = some d₂ ∧ d₁.replies.get? d.nextTask = none ∧
      d₂.replies.get? d.nextTask = some (.pool (.kernel k)) ∧
      d.pool.entries.length ∈ d₂.pool.tracked ∧
      (∃ r, d₁.pool.record? d.pool.entries.length = some r ∧ k = { r with status := .idle }) ∧
      d₂.pool.record? d.pool.entries.length = some { k with lastActivity := d₂.pool.now } := by
  have sound' := sound_step sound call
  have ht : d.nextTask < d'.nextTask := nextTask_le_step sound call
  rcases create_begins call with ⟨ended, -, f, failed, -⟩ | ⟨⟨ticket, was⟩, -, -⟩
  · have reply := (reply_run sound' ht ended run).trans failed
    exact absurd (reply.symm.trans returns) (by simp)
  · obtain ⟨mid, l, rest, d₁, d₂, st, hsplit, hmid, step, -, sound₁, was₁, founds, last, adv⟩ :=
      exists_last_stride (J := fun _ st => st.Founds d.pool.entries.length) sound' ht
        (sound'.fresh.owed _ _ was) (fun _ _ h => founding_run sound' ht was rfl h) run returns
    exact ⟨mid, l, rest, d₁, d₂, hsplit, hmid, step, sound₁.fresh.owed _ _ was₁, last,
      adv.founded rfl founds⟩

/-- A task that is to fail to create the kernel of the entry, which is gone: it has at most `remaining`
steps left after those that were seen; or it has failed. -/
inductive Forsaken (t : TaskId) (i : Nat) (seen : List Stride) (s : Services) : Prop
  | pending (st : Stage) (was : s.tasks.get? t = some (.pool .operation st)) (fails : st.Fails i)
      (few : (seen.filter (·.task = t)).length + st.remaining ≤ 3)
  | failed (why : String) (ended : s.tasks.get? t = none)
      (reply : s.replies.get? t = some (.pool (.failed (.start why))))

/-- A task makes a stride only in a step of its own. -/
theorem own_of_mem_strides {x : Stride} (h : x ∈ s.strides l) : l.task? = some x.task := by
  cases l with
  | resume t | answer t =>
    simp only [strides] at h
    split at h
    · obtain ⟨r, -, rfl⟩ := List.mem_map.mp h
      rfl
    · cases h
  | _ => cases h

theorem Forsaken.next {seen : List Stride} (h : Forsaken t i seen s) (sound : s.scene.Sound)
    (gone : i ∉ s.pool.tracked) (ht : t < s.nextTask) (step : s.step l = some s') :
    Forsaken t i (seen ++ s.strides l) s' := by
  cases h with
  | failed why ended reply =>
    exact .failed why (ended_of_step sound ht ended step)
      ((reply_of_step sound ht ended step).trans reply)
  | pending st was fails few =>
    by_cases hl : l.task? = some t
    · obtain ⟨p, m, adv, shown, -, ⟨st', rfl, hgo⟩ | ⟨o, rfl, ended, reply⟩⟩ :=
        operation_of_step hl was step
      · rcases adv.fails gone fails with ⟨st'', hm, fails', less⟩ | ⟨why, hm⟩
        · obtain rfl := Move.wait.inj hm
          have was' : s'.scene.act t = some (.pool .operation st') := by
            rw [hgo]
            exact Function.update_self ..
          refine .pending st' was' fails' ?_
          rw [shown, List.filter_append, List.length_append]
          simp only [List.filter_cons, decide_true, if_true, List.filter_nil, List.length_singleton]
          omega
        · cases hm
      · rcases adv.fails gone fails with ⟨st'', hm, -⟩ | ⟨why, hm⟩
        · cases hm
        · obtain rfl := Move.finish.inj hm
          exact .failed why ended reply
    · have others : (s.strides l).filter (·.task = t) = [] := by
        apply List.filter_eq_nil_iff.mpr
        intro x hx hxt
        exact hl (of_decide_eq_true hxt ▸ own_of_mem_strides hx)
      refine .pending st ((frame_of_step sound ht hl step).1.trans was) fails ?_
      rwa [List.filter_append, others, List.append_nil]

theorem forsaken_run (h : Forsaken t i [] d) (sound : d.scene.Sound) (grown : d.scene.Grown i)
    (gone : i ∉ d.pool.tracked) (ht : t < d.nextTask) (run : d.run ls = some s) :
    Forsaken t i (d.gather strides ls) s := by
  have hkeep := run_gathers (f := strides) (P := fun _ => True) (I := fun seen s =>
    s.scene.Sound ∧ s.scene.Grown i ∧ i ∉ s.pool.tracked ∧ t < s.nextTask ∧ Forsaken t i seen s) ?_
    (fun _ _ => trivial) [] ⟨sound, grown, gone, ht, h⟩ run
  · exact hkeep.2.2.2.2
  · rintro seen s l s' - ⟨sound, grown, gone, ht, h⟩ step
    have hle := Nat.le_trans (nextTask_le_stir s l) (nextTask_le_step sound step)
    exact ⟨sound_step sound step, grown.step sound step, gone_of_step sound grown gone step,
      Nat.lt_of_lt_of_le ht hle, h.next sound gone ht step⟩

/-- Whatever the worker says, the task goes on. -/
theorem answer_of_fails {st : Stage} (was : s.tasks.get? t = some (.pool .operation st))
    (fails : st.Fails i) :
    (s.step (.answer t .ok)).isSome ∧ ∀ f, (s.step (.answer t (.failed f))).isSome := by
  have answers : ∀ a, (s.pool.answer t st a).isSome → (s.step (.answer t a)).isSome := by
    intro a h
    show ((s.tasks.get? t).bind (s.answer t · a)).isSome
    rwa [was, Option.bind_some, answer, Option.isSome_map]
  cases st with
  | starting | readying | abandoning => exact ⟨answers _ rfl, fun f => answers _ rfl⟩
  | _ => exact False.elim fails

/-- One task creates the kernel of an entry. -/
theorem sole_step (fresh : s.scene.Fresh) (has : s.pool.Has i)
    (sole : ∀ u, s.scene.Stands (Stage.Creates i) u → u = t) (step : s.step l = some s') :
    s'.pool.Has i ∧ ∀ u, s'.scene.Stands (Stage.Creates i) u → u = t := by
  cases deed_of_step fresh step with
  | calm shown same stages =>
    refine ⟨(same.has i).mpr has, fun u hu => sole u ?_⟩
    rwa [stands_congr (congrFun stages u)] at hu
  | stride v w st p m own was adv shown same moved =>
    refine ⟨(same.has i).mpr (adv.has_iff.mpr has), fun u hu => sole u ?_⟩
    by_cases huv : u = v
    · subst huv
      cases m with
      | wait st' =>
        have hst : s.scene.stage? u = some st := Sound.stage_of_act was
        exact ⟨st, hst, adv.creates ((stands_self moved).mp hu)⟩
      | finish => exact False.elim ((stands_self moved).mp hu)
    · exact (stands_of_ne moved huv).mp hu
  | begin v call p q dead m n shown before opening after may distinct free fresh begun stages =>
    have has' : p.Has i := (before.has i).mpr has
    refine ⟨(after.has i).mpr (opening.has_mono has'), ?_⟩
    have later : ¬m.To (Stage.Creates i) := by
      intro creates
      cases m with
      | wait st => exact absurd has' (opening.creates creates).1
      | finish => exact creates
    intro u hu
    rcases (stands_begun free fresh stages later u).mp hu with old | ⟨-, j, -, -, creates⟩
    · exact sole u old
    · exact absurd creates (by simp [Stage.Creates, Stage.Starts, Stage.newborn?])

/-- While a kernel says that it is starting, the task of the call to create it brings its worker up. -/
theorem starts_of_starting {request : KernelCreate} {refusal : Option Failure} {d₁ : Services}
    {mid : List Label} (sound : d.scene.Sound)
    (call : d.step (.call (.pool (.create request refusal))) = some d')
    (goes : (d'.tasks.get? d.nextTask).isSome) (run : d'.run mid = some d₁)
    (staffed : d₁.scene.Staffed) (there : d.pool.entries.length ∈ d₁.pool.tracked)
    (starting : d₁.pool.status? d.pool.entries.length = some .starting) :
    ∃ st, d₁.tasks.get? d.nextTask = some (.pool .operation st) ∧
      st.Starts d.pool.entries.length := by
  have sound' := sound_step sound call
  have ht : d.nextTask < d'.nextTask := nextTask_le_step sound call
  rcases create_begins call with ⟨ended, -⟩ | ⟨⟨ticket, was⟩, has, others⟩
  · exact absurd goes (by simp [ended])
  -- at first nobody else creates the kernel, for its worker was not there before
  have first : ∀ u, d'.scene.Stands (Stage.Creates d.pool.entries.length) u → u = d.nextTask := by
    rintro u ⟨su, hu, creates⟩
    by_contra hne
    have old : d.scene.stage? u = some su := by
      rw [← hu]
      show (d.tasks.get? u).bind Activity.stage? = (d'.tasks.get? u).bind Activity.stage?
      rw [others u hne]
    have hw := (creates.worker (sound.ready old).single).1
    exact Nat.lt_irrefl _ (Pool.has_of_mem_worker (sound.mem_worker old hw))
  have hkeep := run_keeps (P := fun _ => True) (I := fun s => s.scene.Sound ∧
    s.pool.Has d.pool.entries.length ∧
    ∀ u, s.scene.Stands (Stage.Creates d.pool.entries.length) u → u = d.nextTask) ?_
    (fun _ _ => trivial) ⟨sound', (has _).mpr (.inr rfl), first⟩ run
  · obtain ⟨u, su, hu, starts⟩ := staffed.starting _ there starting
    obtain rfl := hkeep.2.2 u ⟨su, hu, .inr starts⟩
    obtain ⟨w, hact⟩ := stage_of_scene hu
    rcases founding_run sound' ht was rfl run with ended | ⟨st₁, was₁, -⟩
    · exact absurd (ended.symm.trans hact) (by simp)
    · obtain ⟨-, rfl⟩ := Activity.pool.inj (Option.some.inj (was₁.symm.trans hact))
      exact ⟨st₁, was₁, starts⟩
  · rintro s l s' - ⟨sound, has, sole⟩ step
    exact ⟨sound_step sound step, sole_step sound.fresh has sole step⟩

/-- When the kernel is removed while its worker is brought up, the task that does so is to fail. -/
theorem forsaken_of_removed {st : Stage} (sound : s.scene.Sound)
    (was : s.tasks.get? t = some (.pool .operation st)) (starts : st.Starts i)
    (there : i ∈ s.pool.tracked) (step : s.step l = some s') (gone : i ∉ s'.pool.tracked) :
    Forsaken t i [] s' := by
  by_cases hl : l.task? = some t
  · obtain ⟨p, m, adv, shown, rfl, ⟨st', rfl, hgo⟩ | ⟨o, rfl, -⟩⟩ := operation_of_step hl was step
    · obtain ⟨why, hm⟩ := adv.abandons_of_gone starts there gone
      obtain rfl := Move.wait.inj hm
      have was' : s'.scene.act t = some (.pool .operation (.abandoning i (.start why))) := by
        rw [hgo]
        exact Function.update_self ..
      exact .pending _ was' rfl (by simp [Stage.remaining])
    · obtain ⟨why, hm⟩ := adv.abandons_of_gone starts there gone
      cases hm
  · have few : st.remaining ≤ 3 := by cases st <;> simp [Stage.remaining]
    exact .pending st ((frame_of_step sound (sound.fresh.lt_of_act was) hl step).1.trans was)
      starts.fails (by simpa using few)

/-- A task that brings a worker up is to fail from the step on in which the kernel goes. -/
theorem forsaken_of_starts {st : Stage} {s₁ s₂ : Services} (sound : s.scene.Sound)
    (was : s.tasks.get? t = some (.pool .operation st)) (starts : st.Starts i)
    (there : i ∈ s.pool.tracked) (step : s.step l = some s₁) (gone : i ∉ s₁.pool.tracked)
    (run : s₁.run ls = some s₂) : Forsaken t i (s₁.gather strides ls) s₂ := by
  have ht : t < s₁.nextTask := by
    have hle := Nat.le_trans (nextTask_le_stir s l) (nextTask_le_step sound step)
    exact Nat.lt_of_lt_of_le (sound.fresh.lt_of_act was) hle
  exact forsaken_run (forsaken_of_removed sound was starts there step gone) (sound_step sound step)
    (.step sound step (.of_tracked sound there)) gone ht run

/-- When the kernel of a call to create it is removed while it says that it is starting, the call is to
fail. -/
theorem forsaken_of_create {request : KernelCreate} {refusal : Option Failure} {d₁ d₂ : Services}
    {mid rest : List Label} (sound : d.scene.Sound)
    (call : d.step (.call (.pool (.create request refusal))) = some d')
    (goes : (d'.tasks.get? d.nextTask).isSome) (before : d'.run mid = some d₁)
    (sound₁ : d₁.scene.Sound) (staffed : d₁.scene.Staffed)
    (there : d.pool.entries.length ∈ d₁.pool.tracked)
    (starting : d₁.pool.status? d.pool.entries.length = some .starting)
    (step : d₁.step l = some d₂) (gone : d.pool.entries.length ∉ d₂.pool.tracked)
    (after : d₂.run rest = some s) :
    Forsaken d.nextTask d.pool.entries.length (d₂.gather strides rest) s := by
  obtain ⟨st, was, starts⟩ := starts_of_starting sound call goes before staffed there starting
  exact forsaken_of_starts sound₁ was starts there step gone after

/-- As long as callers set no status by themselves and restart no kernel: the worker of a tracked kernel
was never shut down, and that of a kernel that was inserted and is gone was shut down once, or one task
is to do so; when no operation of the pool is in progress it was shut down. A call to create a kernel
returns it in a step after which it is tracked, idle and with all else as it was before the step; the
record that is kept differs from it in the time of the last activity. When its kernel is removed while it
says that it is starting, the call fails to start it, in at most three steps that no answer of the
worker holds up. This is about runs as `step` makes them: lookups are made where tasks can be started, and
no call is dropped while it waits. -/
theorem worker_shut_down_once (config : Config) (catalog : Catalog) (ls : List Label) (s : Services)
    (quiet : ∀ id status, .call (.pool (.updateStatus id status)) ∉ ls)
    (unrestarted : ∀ id, .call (.pool (.restart id)) ∉ ls)
    (run : (init config catalog).run ls = some s) :
    (∀ i ∈ (init config catalog).gather inserted ls,
      (i ∈ s.pool.tracked → s.pool.shutdowns i = 0) ∧
      (i ∉ s.pool.tracked →
        (s.pool.shutdowns i = 1 ∧ ∀ u, ¬s.scene.Stands (Stage.Owes i) u) ∨
          s.pool.shutdowns i = 0 ∧ ∃! u, s.scene.Stands (Stage.Owes i) u) ∧
      ((∀ t w st, s.tasks.get? t ≠ some (.pool w st)) →
        s.pool.shutdowns i = if i ∈ s.pool.tracked then 0 else 1)) ∧
    ∀ before request refusal during d d',
      ls = before ++ .call (.pool (.create request refusal)) :: during →
      (init config catalog).run before = some d →
      d.step (.call (.pool (.create request refusal))) = some d' →
      (∀ k, s.replies.get? d.nextTask = some (.pool (.kernel k)) →
        ∃ mid l rest d₁ d₂, during = mid ++ l :: rest ∧ d'.run mid = some d₁ ∧
          d₁.step l = some d₂ ∧ d₁.replies.get? d.nextTask = none ∧
          d₂.replies.get? d.nextTask = some (.pool (.kernel k)) ∧
          d.pool.entries.length ∈ d₂.pool.tracked ∧
          (∃ r, d₁.pool.record? d.pool.entries.length = some r ∧ k = { r with status := .idle }) ∧
          d₂.pool.record? d.pool.entries.length = some { k with lastActivity := d₂.pool.now }) ∧
      ∀ mid l rest d₁ d₂, during = mid ++ l :: rest → d'.run mid = some d₁ → d₁.step l = some d₂ →
        (d'.tasks.get? d.nextTask).isSome → d.pool.entries.length ∈ d₁.pool.tracked →
        d₁.pool.status? d.pool.entries.length = some .starting →
        d.pool.entries.length ∉ d₂.pool.tracked →
        Forsaken d.nextTask d.pool.entries.length (d₂.gather strides rest) s ∧
        ∀ st, s.tasks.get? d.nextTask = some (.pool .operation st) →
          (s.step (.answer d.nextTask .ok)).isSome ∧
          ∀ f, (s.step (.answer d.nextTask (.failed f))).isSome := by
  refine ⟨?_, ?_⟩
  · exact fun i hi => (handed_run quiet unrestarted run i).shutdowns hi
  · rintro before request refusal during d d' rfl reached call
    rw [run_append, reached, Option.bind_some, run_cons call] at run
    have sound := sound_run (sound_init config catalog) reached
    refine ⟨fun k returns => tracked_of_created sound call run returns, ?_⟩
    rintro mid l rest d₁ d₂ rfl hmid step goes there starting gone
    rw [run_append, hmid, Option.bind_some, run_cons step] at run
    have reached₁ : (init config catalog).run
        (before ++ .call (.pool (.create request refusal)) :: mid) = some d₁ := by
      rw [run_append, reached, Option.bind_some, run_cons call, hmid]
    have quiet₁ : ∀ id status, .call (.pool (.updateStatus id status)) ∉
        before ++ .call (.pool (.create request refusal)) :: mid := by
      intro id status h
      apply quiet id status
      rw [← List.cons_append, ← List.append_assoc]
      exact List.mem_append_left _ h
    obtain ⟨sound₁, staffed₁⟩ := staffed_run quiet₁ reached₁
    have forsaken := forsaken_of_create sound call goes hmid sound₁ staffed₁ there starting step gone run
    refine ⟨forsaken, fun st hst => ?_⟩
    cases forsaken with
    | pending st' was' fails =>
      exact answer_of_fails was' fails
    | failed why ended => exact absurd (ended.symm.trans hst) (by simp)

/-- A kernel is shut down before its worker is up. -/
def shutDownWhileStarting : List Label :=
  [.resume 0, .resume 0, .call (.pool (.shutdown (.fresh 0))), .resume 1, .resume 1, .resume 1,
    .answer 0 .ok, .answer 0 .ok, .answer 0 .ok]

/-- A kernel takes some time to come up. -/
def comingUp : List Label := [.resume 0, .resume 0, .answer 0 .ok, .pass 50, .answer 0 .ok]

/-- The worker of the removed kernel is shut down once, and that of a kernel that comes up is not. The
record that is returned then is as old as the kernel, and the one that is kept has been active since. -/
theorem worker_shut_down_once_starting :
    (∃ s why, (init { } [.python3]).run
        (.call (.pool (.create { } none)) :: shutDownWhileStarting) = some s ∧
      0 ∉ s.pool.tracked ∧ s.pool.shutdowns 0 = 1 ∧
      s.replies.get? 0 = some (.pool (.failed (.start why)))) ∧
    ∃ s k, (init { } [.python3]).run (.call (.pool (.create { } none)) :: comingUp) = some s ∧
      0 ∈ s.pool.tracked ∧ s.pool.shutdowns 0 = 0 ∧ s.replies.get? 0 = some (.pool (.kernel k)) ∧
      k.status = .idle ∧ k.lastActivity = 0 ∧ s.pool.record? 0 = some { k with lastActivity := 50 } := by
  refine ⟨?_, ?_⟩
  · let create : Label := .call (.pool (.create { } none))
    let mid : List Label := [.resume 0, .resume 0, .call (.pool (.shutdown (.fresh 0))), .resume 1]
    let rest : List Label := [.resume 1, .answer 0 .ok, .answer 0 .ok, .answer 0 .ok]
    have h : ((init { } [.python3]).step create).bind (fun d' => (d'.run mid).bind fun d₁ =>
        (d₁.step (.resume 1)).map fun d₂ =>
          ((d'.tasks.get? 0).isSome, d₁.pool.tracked, d₁.pool.status? 0, d₂.pool.tracked)) =
        some (true, [0], some .starting, []) := by
      decide
    have last : ((init { } [.python3]).run (create :: shutDownWhileStarting)).map (fun s =>
        (s.tasks, s.pool.tracked)) = some ([], []) := by
      decide
    have there : 0 ∈ (init { } [.python3]).gather inserted (create :: shutDownWhileStarting) := by decide
    obtain ⟨d', call, h⟩ := Option.bind_eq_some_iff.mp h
    obtain ⟨d₁, hmid, h⟩ := Option.bind_eq_some_iff.mp h
    obtain ⟨d₂, step, h⟩ := Option.map_eq_some_iff.mp h
    simp only [Prod.mk.injEq] at h
    obtain ⟨goes, tracked₁, starting, tracked₂⟩ := h
    obtain ⟨s, run, last⟩ := Option.map_eq_some_iff.mp last
    obtain ⟨tasks, tracked⟩ := Prod.mk.inj last
    have quiet : ∀ id status, .call (.pool (.updateStatus id status)) ∉
        create :: shutDownWhileStarting := by simp [create, shutDownWhileStarting]
    have unrestarted : ∀ id, .call (.pool (.restart id)) ∉ create :: shutDownWhileStarting := by
      simp [create, shutDownWhileStarting]
    obtain ⟨workers, calls⟩ := worker_shut_down_once { } [.python3] _ s quiet unrestarted run
    have idle : ∀ t w st, s.tasks.get? t ≠ some (.pool w st) := by
      intro t w st
      rw [tasks]
      simp [Table.get?]
    have gone : 0 ∉ s.pool.tracked := by simp [tracked]
    have once : s.pool.shutdowns 0 = 1 := ((workers 0 there).2.2 idle).trans (if_neg gone)
    obtain ⟨forsaken, -⟩ := (calls [] { } none shutDownWhileStarting _ d' rfl rfl call).2 mid (.resume 1)
      rest d₁ d₂ rfl hmid step goes (by rw [tracked₁]; decide) starting (by rw [tracked₂]; decide)
    cases forsaken with
    | pending st was => exact absurd was (idle _ _ _)
    | failed why _ reply => exact ⟨s, why, run, gone, once, reply⟩
  · have h : ((init { } [.python3]).run (.call (.pool (.create { } none)) :: comingUp)).map (fun s =>
        (s.pool.tracked, s.replies.get? 0, s.pool.record? 0)) =
        some ([0], some (.pool (.kernel ⟨.fresh 0, "python3", .idle, none, 0, 0, 0⟩)),
          some ⟨.fresh 0, "python3", .idle, none, 0, 0, 50⟩) := by
      decide
    have there : 0 ∈ (init { } [.python3]).gather inserted
        (.call (.pool (.create { } none)) :: comingUp) := by decide
    obtain ⟨s, run, h⟩ := Option.map_eq_some_iff.mp h
    simp only [Prod.mk.injEq] at h
    obtain ⟨tracked, returned, kept⟩ := h
    have tracked' : 0 ∈ s.pool.tracked := tracked ▸ List.mem_singleton_self 0
    obtain ⟨workers, -⟩ := worker_shut_down_once { } [.python3] _ s (by simp [comingUp])
      (by simp [comingUp]) run
    exact ⟨s, _, run, tracked', (workers 0 there).1 tracked', returned, rfl, rfl, kept⟩

end Services
end NotebookKernels
