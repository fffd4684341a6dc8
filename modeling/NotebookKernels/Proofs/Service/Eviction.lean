import NotebookKernels.Proofs.Service.Granting
import NotebookKernels.Proofs.Service.Restarting

/- Which kernels an eviction spares.

   An eviction passes over the kernels whose status says that they are starting or restarting. As long as
   callers set no status by themselves (`eviction_spares`):
     1. the victim has come up: no call to create it is in progress;
     2. if a restart of the victim is in progress, then another task has set the status since that
        restart began: an interrupt, a create or another restart that ended, or a slot that was granted.
   The second cannot be had without the exception: the status has room for one transition only, and
   in `eviction_of_restarting` an interrupt that was waiting overwrites it while a restart goes on. -/
namespace NotebookKernels

namespace Stride

/-- The entry whose kernel the task makes idle or busy in this stride. -/
def marks? (x : Stride) : Option Nat :=
  match x.stage, x.move with
  | .readying i, .finish _ | .restartReadying i, .finish _ | .interrupting i, .finish .done
  | .acquireSlot i, .finish (.slot _) => some i
  | _, _ => none

/-- A task sets a status with its last stride, as it is granted the slot or has the worker. -/
theorem of_marks? {x : Stride} {i : Nat} (h : x.marks? = some i) :
    (∃ o, x.move = .finish o) ∧ (x.stage = .acquireSlot i ∨ x.stage.Settles i) := by
  obtain ⟨t, s, m⟩ := x
  simp only [marks?] at h
  split at h
  · exact ⟨⟨_, rfl⟩, .inr (Option.some.inj h)⟩
  · exact ⟨⟨_, rfl⟩, .inr (Option.some.inj h)⟩
  · exact ⟨⟨_, rfl⟩, .inr (Option.some.inj h)⟩
  · exact ⟨⟨_, rfl⟩, .inl (congrArg _ (Option.some.inj h))⟩
  · cases h

end Stride

namespace Stage

/-- The task creates the kernel of this entry, which has not come up. -/
def Creates (i : Nat) (s : Stage) : Prop := s.newborn? = some i ∨ s.Starts i

theorem Starts.worker {s : Stage} {i : Nat} (h : s.Starts i) :
    .worker i ∈ s.locks ∧ s.awaits = none := by
  cases s with
  | starting j | readying j =>
    obtain rfl : j = i := h
    exact ⟨List.mem_singleton.mpr rfl, rfl⟩
  | _ => exact False.elim h

theorem Creates.worker {s : Stage} {i : Nat} (h : s.Creates i) (single : s.locks.Nodup) :
    .worker i ∈ s.locks ∧ s.awaits ≠ some (.worker i) := by
  rcases h with newborn | starts
  · exact worker_of_newborn newborn single
  · exact ⟨starts.worker.1, by simp [starts.worker.2]⟩

end Stage

namespace Pool

variable {p p' : Pool} {t : TaskId} {s s' : Stage} {m : Move} {i : Nat} {c : PoolCall}
  {dead : List Nat}

/-- No other stride sets a status. -/
theorem Advance.status_eq (h : Advance t p s p' m) (unmarked : (⟨t, s, m⟩ : Stride).marks? ≠ some i) :
    p'.status? i = p.status? i := by
  cases h with
  | interrupted j | grant j | up j =>
    have hne : j ≠ i := fun hj => unmarked (congrArg some hj)
    simp [status?_setStatus, hne]
  | back j =>
    have hne : j ≠ i := fun hj => unmarked (congrArg some hj)
    simp [status?_touch, hne]
  | _ => simp

theorem Advance.grants (h : Advance t p s p' m) (hm : m = .finish (.slot i)) : s = .acquireSlot i := by
  cases h with
  | grant j =>
    cases hm
    rfl
  | conclude e found => exact absurd (Move.finish.inj hm) (e.outcome_ne_slot p found i)
  | up | back => exact absurd (Move.finish.inj hm) (Outcome.ofRecord_ne_slot _ i)
  | _ => cases hm

/-- A kernel that does not come up is not tracked any more. -/
theorem Advance.abandons {f : Failure} (h : Advance t p s p' (.wait (.abandoning i f))) :
    i ∉ p'.tracked ∧ (s.Starts i) := by
  cases h with
  | late _ absent => exact ⟨absent, rfl⟩
  | abandon _ _ _ was =>
    refine ⟨fun hi => (mem_tracked_untrack.mp hi).2 rfl, ?_⟩
    obtain rfl | rfl := was <;> rfl

theorem Advance.creates (h : Advance t p s p' (.wait s')) (hs : s'.Creates i) : s.Creates i := by
  rcases hs with newborn | starts
  · exact .inl (h.unborn newborn)
  · cases h with
    | insert j => exact .inl (congrArg some starts)
    | started j => exact .inr starts
    | _ => exact False.elim starts

/-- A kernel is starting when the call to create it begins. -/
theorem Opening.creates (h : Opening t p c p' dead (.wait s')) (hs : s'.Creates i) :
    ¬p.Has i ∧ p'.status? i = some .starting := by
  rcases hs with newborn | starts
  · refine ⟨h.unborn newborn, ?_⟩
    cases h with
    | create request name inspector =>
      obtain rfl := Option.some.inj newborn
      simp [status?_launch]
    | errand _ e grown => exact absurd (grown.symm.trans newborn) (by simp)
    | _ => cases newborn
  · cases h <;> exact False.elim starts

theorem Opening.slot? (h : Opening t p c p' dead m) : m.slot? = none := by
  cases h with
  | finish _ o plain | discard _ _ o _ plain => exact Move.slot?_finish plain
  | _ => rfl

end Pool

namespace Scene

variable {l : Label} {t u : TaskId} {c c' : Scene} {w : Work} {p : Pool} {m : Move} {s : Stage}
  {seen : List Stride} {i : Nat}

/-- Callers set a status only by the call for it. -/
theorem status_of_calm {st : KernelStatus} (quiet : ∀ id st, l ≠ .call (.pool (.updateStatus id st)))
    (turn : Turn l.still t c c') (hi : c.pool.status? i = some st) :
    c'.pool.status? i = some st ∨ c'.pool.status? i = some .restarting ∨
      (st = .busy ∧ c'.pool.status? i = some .idle) := by
  cases turn with
  | rise | carry | shift | reply | reap => exact .inl hi
  | count j =>
    refine .inl (Eq.trans ?_ hi)
    exact Pool.status?_touch_of_eq fun _ => rfl
  | drop v j =>
    have hdrop : (c.letGo v j).pool.status? i = _ := Pool.status?_dropped i
    rw [hi] at hdrop
    split at hdrop
    · by_cases hb : st = .busy
      · rw [Option.map_some, if_pos hb] at hdrop
        exact .inr (.inr ⟨hb, hdrop⟩)
      · rw [Option.map_some, if_neg hb] at hdrop
        exact .inl hdrop
    · exact .inl hdrop
  | advance _ _ _ _ _ _ own => exact absurd own (by simp)
  | begin w call p dead m may risen free step =>
    have quiet' : ∀ id st, call ≠ .updateStatus id st := by
      rcases may with hl | may
      · rintro id st rfl
        exact quiet id st (Label.eq_of_still_eq_call hl)
      · exact may
    show p.status? i = _ ∨ p.status? i = _ ∨ _ ∧ p.status? i = _
    -- the call sets no status, or it is a restart, or it inserts a new entry
    rcases step.statuses quiet' with ⟨-, same⟩ | ⟨j, -, -, marks⟩ | ⟨-, new⟩
    · exact .inl ((same i).trans hi)
    · by_cases hij : j = i
      · subst hij
        exact .inr (.inl (by rw [marks j, if_pos rfl, hi]; rfl))
      · exact .inl ((marks.of_ne hij).trans hi)
    · have hne := Nat.ne_of_lt (Pool.has_of_status?_eq_some hi)
      exact .inl ((new i).trans ((if_neg hne).trans hi))

theorem tracked_of_calm (turn : Turn l.still t c c') (hi : i ∈ c'.pool.tracked) :
    i ∈ c.pool.tracked := by
  cases turn with
  | rise | carry | shift | count | drop | reply | reap => exact hi
  | advance _ _ _ _ _ _ own => exact absurd own (by simp)
  | begin _ _ _ _ _ _ _ _ step => exact step.inserted hi

theorem slot_of_calm (turn : Turn l.still t c c') (hu : c'.slot u = some i) : c.slot u = some i := by
  cases turn with
  | rise | carry | shift | count | reply | reap => exact hu
  | drop v j =>
    by_cases huv : u = v
    · subst huv
      exact absurd ((Function.update_self ..).symm.trans hu) (by simp)
    · exact (Function.update_of_ne huv _ _).symm.trans hu
  | advance _ _ _ _ _ _ own => exact absurd own (by simp)
  | begin w call p dead m may risen free step =>
    rw [slot_goOn free, step.slot?, update_eq_self free] at hu
    exact hu

/-- The kernel of the entry has not come up: its status says so, and nobody comes to execute on it. -/
structure Unready (i : Nat) (c : Scene) : Prop where
  status : c.pool.status? i = some .starting ∨ c.pool.status? i = some .restarting
  unqueued : ∀ u, c.stage? u ≠ some (.acquireSlot i)
  unused : ∀ u, c.slot u ≠ some i

namespace Unready

/-- While one task creates a kernel, no stride makes it ready but the last one of this task. -/
theorem stride {v : TaskId} {sv : Stage} (sound : c.Sound) (hv : c.stage? v = some sv)
    (creates : sv.Creates i) (unended : v = t → ∃ s', m = .wait s') (ht : c.stage? t = some s)
    (adv : Pool.Advance t c.pool s p m) (h : c.Unready i) : (c.goOn t w p m).Unready i := by
  have hw := creates.worker (sound.ready hv).single
  have held := sound.holds hv hw.1 hw.2
  refine ⟨?_, ?_, ?_⟩
  · have unmarked : (⟨t, s, m⟩ : Stride).marks? ≠ some i := by
      intro hm
      obtain ⟨⟨o, rfl⟩, rfl | settles⟩ := Stride.of_marks? hm
      · exact h.unqueued t ht
      · -- the task that settles the kernel has its worker, and so has the one that creates it
        have hs := sound.holds ht settles.worker.1 (by simp [settles.worker.2])
        obtain ⟨s', hs'⟩ := unended (Option.some.inj (held.symm.trans hs))
        cases hs'
    show p.status? i = _ ∨ p.status? i = _
    rw [adv.status_eq unmarked]
    exact h.status
  · intro u hu
    rcases Services.stage_of_goOn hu with ⟨rfl, rfl⟩ | ⟨-, hu⟩
    · obtain rfl := adv.queues_up
      obtain rfl := Option.some.inj (held.symm.trans (adv.granted rfl))
      obtain rfl := Option.some.inj (hv.symm.trans ht)
      exact creates.elim (by simp [Stage.newborn?]) id
    · exact h.unqueued u hu
  · intro u hu
    rw [slot_goOn (sound.bare t s ht)] at hu
    by_cases hut : u = t
    · rw [hut, Function.update_self] at hu
      have hm : m = .finish (.slot i) := by
        cases m with
        | wait => cases hu
        | finish o =>
          cases o with
          | slot j => rw [Option.some.inj hu]
          | _ => cases hu
      exact h.unqueued t (ht.trans (congrArg some (adv.grants hm)))
    · rw [Function.update_of_ne hut] at hu
      exact h.unused u hu

theorem calm (quiet : ∀ id st, l ≠ .call (.pool (.updateStatus id st)))
    (turn : Turn l.still t c c') (h : c.Unready i) : c'.Unready i := by
  refine ⟨?_, ?_, ?_⟩
  · rcases h.status with hs | hs
    · rcases status_of_calm quiet turn hs with hi | hi | ⟨hb, -⟩
      · exact .inl hi
      · exact .inr hi
      · cases hb
    · rcases status_of_calm quiet turn hs with hi | hi | ⟨hb, -⟩
      · exact .inr hi
      · exact .inr hi
      · cases hb
  · intro u hu
    rcases Services.stage_of_calm turn hu with hu | ⟨rfl, call, p, dead, -, step⟩ | ⟨j, hj⟩
    · exact h.unqueued u hu
    · cases step
    · cases hj
  · exact fun u hu => h.unused u (slot_of_calm turn hu)

end Unready

/-- A kernel that somebody creates has not come up, or it did not come up and is not tracked any
more. -/
structure Guarded (c : Scene) : Prop where
  unready : ∀ t s i, c.stage? t = some s → s.Creates i → c.Unready i
  gone : ∀ t i f, c.stage? t = some (.abandoning i f) → i ∉ c.pool.tracked

namespace Guarded

theorem stride (sound : c.Sound) (ht : c.stage? t = some s) (adv : Pool.Advance t c.pool s p m)
    (h : c.Guarded) : (c.goOn t w p m).Guarded := by
  refine ⟨?_, ?_⟩
  · intro u su i hu creates
    rcases Services.stage_of_goOn hu with ⟨rfl, rfl⟩ | ⟨hut, hu⟩
    · have was := adv.creates creates
      exact (h.unready u s i ht was).stride sound ht was (fun _ => ⟨_, rfl⟩) ht adv
    · exact (h.unready u su i hu creates).stride sound hu creates (fun h => absurd h hut) ht adv
  · intro u i f hu hi
    rcases Services.stage_of_goOn hu with ⟨rfl, rfl⟩ | ⟨hut, hu⟩
    · exact adv.abandons.1 hi
    · rcases adv.inserted hi with hi | ⟨newborn, -⟩
      · exact h.gone u i f hu hi
      · -- one task has the worker of the entry, to insert it, and the other to shut it down
        have hw := Stage.worker_of_newborn newborn (sound.ready ht).single
        have held := sound.holds ht hw.1 hw.2
        have held' := sound.holds (n := .worker i) hu (List.mem_singleton.mpr rfl) (by simp [Stage.awaits])
        exact hut (Option.some.inj (held'.symm.trans held))

theorem calm (sound : c.Sound) (quiet : ∀ id st, l ≠ .call (.pool (.updateStatus id st)))
    (turn : Turn l.still t c c') (h : c.Guarded) : c'.Guarded := by
  refine ⟨?_, ?_⟩
  · intro u s i hu creates
    rcases Services.stage_of_calm turn hu with hu | ⟨rfl, call, p, dead, rfl, step⟩ | ⟨j, rfl⟩
    · exact (h.unready u s i hu creates).calm quiet turn
    · obtain ⟨new, starting⟩ := step.creates creates
      -- the entry is new, so nobody has its slot or asks for it
      refine ⟨.inl starting, fun v hv => new ?_, fun v hv => new ?_⟩
      · rcases Services.stage_of_calm turn hv with hv | ⟨rfl, call, p, dead, -, step⟩ | ⟨j, hj⟩
        · have hlock : .slot i ∈ c.locks v :=
            sound.locks_of_stage hv ▸ List.mem_singleton.mpr rfl
          exact Pool.has_of_mem_slot ((sound.orderly.mem v _).mpr hlock)
        · cases step
        · cases hj
      · exact sound.has_of_slot (slot_of_calm turn hv)
    · exact absurd creates (by simp [Stage.Creates, Stage.newborn?, Stage.Starts])
  · intro u i f hu hi
    rcases Services.stage_of_calm turn hu with hu | ⟨rfl, call, p, dead, -, step⟩ | ⟨j, hj⟩
    · exact h.gone u i f hu (tracked_of_calm turn hi)
    · cases step
    · cases hj

/-- Nobody brings up the worker of a kernel that is tracked and not in transition. -/
theorem idle (h : c.Guarded) (there : i ∈ c.pool.tracked) (settled : c.pool.inTransition i = false)
    (hu : c.stage? u = some s) : s.newborn? ≠ some i ∧ ¬s.Launches i := by
  have uncreated : ¬s.Creates i := by
    intro creates
    have moving := Pool.inTransition_iff.mpr (h.unready u s i hu creates).status
    exact absurd moving (by simp [settled])
  refine ⟨fun newborn => uncreated (.inl newborn), fun launches => ?_⟩
  cases s with
  | starting | readying => exact uncreated (.inr launches)
  | abandoning j f =>
    obtain rfl : j = i := launches
    exact h.gone u j f hu there
  | _ => exact False.elim launches

end Guarded
end Scene

namespace Services

open Scene

variable {config : Config} {catalog : Catalog} {ls during : List Label} {s s' d d₁ : Services}
  {l : Label} {t v : Nat} {id : KernelId}

theorem guarded_run (quiet : ∀ id status, .call (.pool (.updateStatus id status)) ∉ ls)
    (run : (init config catalog).run ls = some s) : s.scene.Sound ∧ s.scene.Guarded := by
  have hinit : (init config catalog).scene.Guarded :=
    ⟨fun t s i h => (by cases h), fun t i f h => (by cases h)⟩
  refine strides_run (I := fun _ c => c.Guarded)
    (P := fun l => ∀ id status, l ≠ .call (.pool (.updateStatus id status))) ?_
    (fun _ _ _ _ _ _ _ sound was adv h => h.stride sound (Sound.stage_of_act was) adv)
    (fun _ _ _ _ _ hl sound turn h => h.calm sound hl turn) (quiet_of_not_mem quiet)
    (sound_init config catalog) hinit run
  intro seen s l h
  have alike := alike_stir s l
  rw [scene_stir]
  refine ⟨fun t st i ht creates => ?_, fun t i f ht hi => h.gone t i f ht (alike.tracked ▸ hi)⟩
  have unready := h.unready t st i ht creates
  refine ⟨?_, unready.unqueued, unready.unused⟩
  show (s.stir l).pool.status? i = _ ∨ (s.stir l).pool.status? i = _
  rw [alike.status]
  exact unready.status

/-- Whoever sets the status of a kernel that somebody restarts is another task, unless the restart has
ended. -/
theorem marked_run (quiet : ∀ l ∈ during, ∀ id status, l ≠ .call (.pool (.updateStatus id status)))
    (sound : d₁.scene.Sound) (ht : t < d₁.nextTask)
    (was : d₁.tasks.get? t = some (.pool .operation (.restartLock v)))
    (restarting : d₁.scene.pool.status? v = some .restarting) (run : d₁.run during = some s)
    (going : (s.tasks.get? t).isSome) :
    s.pool.status? v = some .restarting ∨
      ∃ x ∈ d₁.gather strides during, x.marks? = some v ∧ x.task ≠ t := by
  have hkeep := operation_run (J := fun seen c _ =>
      c.pool.status? v = some .restarting ∨ ∃ x ∈ seen, x.marks? = some v ∧ x.task ≠ t)
    (P := fun l => ∀ id status, l ≠ .call (.pool (.updateStatus id status))) ?_ ?_ ?_ ?_ quiet sound ht
    ⟨_, was, .inl restarting⟩ run
  · obtain ⟨-, -, ended | ⟨st, -, h⟩⟩ := hkeep
    · exact absurd going (by simp [ended])
    · exact h
  · intro seen s l st h
    refine h.imp_left ?_
    intro hv
    exact ((alike_stir s l).status v).trans hv
  · -- the restart itself sets a status only with its last stride
    intro seen c st p st' _ _ adv h
    refine h.imp ?_ ?_
    · intro hv
      have unmarked : (⟨t, st, .wait st'⟩ : Stride).marks? ≠ some v := by
        intro hm
        obtain ⟨⟨o, ho⟩, -⟩ := Stride.of_marks? hm
        cases ho
      exact (adv.status_eq unmarked).trans hv
    · rintro ⟨x, hx, hmarks⟩
      exact ⟨x, List.mem_append_left _ hx, hmarks⟩
  · intro seen c st u w su p m _ _ hut _ adv h
    by_cases hm : (⟨u, su, m⟩ : Stride).marks? = some v
    · exact .inr ⟨_, List.mem_append_right _ (List.mem_singleton.mpr rfl), hm, hut⟩
    · refine h.imp ?_ ?_
      · intro hv
        exact (adv.status_eq hm).trans hv
      · rintro ⟨x, hx, hmarks⟩
        exact ⟨x, List.mem_append_left _ hx, hmarks⟩
  · intro seen l u c c' st hl _ _ turn h
    refine h.imp_left ?_
    intro hv
    rcases status_of_calm hl turn hv with hv | hv | ⟨hb, -⟩
    · exact hv
    · exact hv
    · cases hb

/-- While a restart is in progress its kernel is restarting, or another task has set the status since
it began. -/
theorem restarting_or_marked
    (quiet : ∀ l ∈ during, ∀ id status, l ≠ .call (.pool (.updateStatus id status)))
    (sound : d.scene.Sound) (found : d.pool.find? id = some v)
    (run : d.run (.call (.pool (.restart id)) :: during) = some s)
    (going : (s.tasks.get? d.nextTask).isSome) :
    s.pool.status? v = some .restarting ∨
      ∃ x ∈ d.gather strides (.call (.pool (.restart id)) :: during),
        x.marks? = some v ∧ x.task ≠ d.nextTask := by
  obtain ⟨d₁, call, run⟩ := Option.bind_eq_some_iff.mp run
  have sound₁ := sound_step sound call
  have ht : d.nextTask < d₁.nextTask := nextTask_le_step sound call
  rw [gather_cons call]
  rcases restart_begins call with ⟨ended, -⟩ | ⟨j, hj, -, hpool, was⟩
  · exact absurd going (by simp [ended_run sound₁ ht ended run])
  · obtain rfl := Option.some.inj (hj.symm.trans found)
    have restarting : d₁.scene.pool.status? j = some .restarting := by
      show d₁.pool.status? j = _
      rw [hpool, Pool.status?_requestWorker]
      exact Pool.status?_setStatus_self .restarting (sound.there j (Pool.find?_eq_some hj).1)
    exact marked_run quiet sound₁ ht was restarting run going

/-- As long as callers set no status by themselves: when a kernel is chosen for eviction, no call to
create it is in progress, and if a call to restart it is, then another task has set its status since
that call began. -/
theorem eviction_spares (config : Config) (catalog : Catalog) (ls : List Label) (s : Services)
    (quiet : ∀ id status, .call (.pool (.updateStatus id status)) ∉ ls)
    (run : (init config catalog).run ls = some s) (t i ticket v : Nat) (found : List Nat) (p : Pool)
    (evicts : s.pool.step t (.sweep (.room i ticket) [] found) =
      some (p, .wait (.closing (.room i ticket) v [] found))) :
    v ∈ s.pool.tracked ∧ v ∉ p.tracked ∧
    (∀ u w st, s.tasks.get? u = some (.pool w st) → st.newborn? ≠ some v ∧ ¬st.Launches v) ∧
    ∀ before during id d, ls = before ++ .call (.pool (.restart id)) :: during →
      (init config catalog).run before = some d → d.pool.find? id = some v →
      (s.tasks.get? d.nextTask).isSome →
      ∃ x ∈ d.gather strides (.call (.pool (.restart id)) :: during),
        x.marks? = some v ∧ x.task ≠ d.nextTask := by
  obtain ⟨victim, rfl⟩ : s.pool.evictee? = some v ∧ (s.pool.untrack v).requestWorker t v = p := by
    cases Pool.advance_of_step evicts with
    | evict _ _ _ _ _ victim => exact ⟨victim, rfl⟩
  obtain ⟨there, settled⟩ := Pool.evictee?_eq_some victim
  have guarded := (guarded_run quiet run).2
  refine ⟨there, by simp, fun u w st hu => guarded.idle there settled (Sound.stage_of_act hu), ?_⟩
  rintro before during id d rfl hbefore hfind going
  rw [run_append, hbefore, Option.bind_some] at run
  have quiet' : ∀ l ∈ during, ∀ id status, l ≠ .call (.pool (.updateStatus id status)) :=
    fun l hl => quiet_of_not_mem quiet l (List.mem_append_right _ (List.mem_cons_of_mem _ hl))
  have sound' := sound_run (sound_init config catalog) hbefore
  rcases restarting_or_marked quiet' sound' hfind run going with restarting | marked
  · exact absurd (Pool.inTransition_iff.mpr (.inr restarting)) (by simp [settled])
  · exact marked

/-- A kernel is interrupted, and restarted before the interrupt ends; then a second kernel is created
in a pool for one. -/
def interruptedRestart : List Label :=
  booting ++
    [.call (.pool (.interrupt (.fresh 0))), .resume 1, .call (.pool (.restart (.fresh 0))),
      .answer 1 .ok, .resume 2, .call (.pool (.create { } none)), .resume 3, .resume 3]

/-- The interrupt has set the status of the victim since the restart began. -/
theorem eviction_spares_interrupted :
    ∃ s d p, (init { maxKernels := 1 } [.python3]).run interruptedRestart = some s ∧
      (init { maxKernels := 1 } [.python3]).run (interruptedRestart.take 8) = some d ∧
      s.pool.step 3 (.sweep (.room 1 1) [] []) = some (p, .wait (.closing (.room 1 1) 0 [] [])) ∧
      (s.tasks.get? d.nextTask).isSome ∧
      ∃ x ∈ d.gather strides (interruptedRestart.drop 8), x.marks? = some 0 ∧ x.task ≠ d.nextTask := by
  have h : ((init { maxKernels := 1 } [.python3]).run (interruptedRestart.take 8)).bind (fun d =>
      ((init { maxKernels := 1 } [.python3]).run interruptedRestart).map fun s =>
        ((s.pool.step 3 (.sweep (.room 1 1) [] [])).map (·.2), d.pool.find? (.fresh 0),
          (s.tasks.get? d.nextTask).isSome)) =
      some (some (.wait (.closing (.room 1 1) 0 [] [])), some 0, true) := by
    decide
  obtain ⟨d, hbefore, h⟩ := Option.bind_eq_some_iff.mp h
  obtain ⟨s, run, h⟩ := Option.map_eq_some_iff.mp h
  simp only [Prod.mk.injEq] at h
  obtain ⟨evicts, hfind, going⟩ := h
  obtain ⟨⟨p, m⟩, evicts, rfl⟩ := Option.map_eq_some_iff.mp evicts
  have quiet : ∀ id status, .call (.pool (.updateStatus id status)) ∉ interruptedRestart := by
    simp [interruptedRestart, booting]
  have split : interruptedRestart = interruptedRestart.take 8 ++
      .call (.pool (.restart (.fresh 0))) :: interruptedRestart.drop 9 := rfl
  have marked := (eviction_spares _ _ interruptedRestart s quiet run 3 1 1 0 [] p evicts).2.2.2 _ _ _ d
    split hbefore hfind going
  exact ⟨s, d, p, run, hbefore, evicts, going, marked⟩

/-- The victim is being restarted. -/
theorem eviction_of_restarting :
    ∃ s p, (init { maxKernels := 1 } [.python3]).run interruptedRestart = some s ∧
      s.tasks.get? 2 = some (.pool .operation (.restarting 0)) ∧
      s.tasks.get? 3 = some (.pool .operation (.sweep (.room 1 1) [] [])) ∧
      s.pool.step 3 (.sweep (.room 1 1) [] []) = some (p, .wait (.closing (.room 1 1) 0 [] [])) := by
  have h : ((init { maxKernels := 1 } [.python3]).run interruptedRestart).map (fun s =>
      (s.tasks.get? 2, s.tasks.get? 3, (s.pool.step 3 (.sweep (.room 1 1) [] [])).map (·.2))) =
      some (some (.pool .operation (.restarting 0)),
        some (.pool .operation (.sweep (.room 1 1) [] [])),
        some (.wait (.closing (.room 1 1) 0 [] []))) := by
    decide
  obtain ⟨s, run, h⟩ := Option.map_eq_some_iff.mp h
  simp only [Prod.mk.injEq] at h
  obtain ⟨restarts, sweeps, evicts⟩ := h
  obtain ⟨⟨p, m⟩, evicts, rfl⟩ := Option.map_eq_some_iff.mp evicts
  exact ⟨s, p, run, restarts, sweeps, evicts⟩

end Services
end NotebookKernels
