import NotebookKernels.Proofs.Service.Custody
import NotebookKernels.Proofs.Service.Statuses

/- Which workers are left running outside the pool.

   Whoever removes a kernel is to shut its worker down, and asks for the worker after all who want to
   restart it; a kernel that is starting is left to the task that starts it. So when all is quiet, a
   worker that was started and whose kernel is gone has been shut down since its last start or restart.
   There is one exception, and `untracked_worker_up` says that there is no other: a kernel does not come
   up and is forgotten while a call to restart it waits for its worker. The worker is shut down, and
   then the restart brings it up again (`restart_of_abandoned`). -/
namespace NotebookKernels

open Function (update)

namespace Pool

/-- In the queue a step leaves whoever waits before somebody else before them, if both stay. -/
theorem sublist_relock {t u v : TaskId} {old new : List LockName} {n : LockName} {q : List TaskId}
    (held : n ∈ old → n ∉ new → q.head? = some t) (hv : v ≠ t)
    (h : [v, u].Sublist q) : [v, u].Sublist (relock t old new n q) := by
  obtain ⟨-, -, e⟩ | ⟨-, -, e⟩ | ⟨hnew, hold, e⟩ | ⟨-, -, e⟩ := Orderly.relock_cases t old new n q
  · rwa [e]
  · rw [e]
    exact h.trans (List.sublist_append_left q [t])
  · -- the first of the queue leaves it, which is neither of them
    have hq := Orderly.eq_cons_of_head (held hold hnew)
    rw [e]
    rw [hq] at h
    cases h with
    | cons _ h => exact h
    | cons_cons => exact absurd rfl hv
  · rwa [e]

end Pool

namespace Scene

variable {l : Label} {t u v : TaskId} {c c' : Scene} {w : Work} {p : Pool} {m : Move} {s : Stage}
  {i : Nat}

/-- Nobody waits before the first of a queue. -/
theorem Sound.not_before_first (h : c.Sound) (first : (c.pool.queue (.worker i)).head? = some u)
    (before : [v, u].Sublist (c.pool.queue (.worker i))) : False := by
  have nodup := h.orderly.nodup (.worker i)
  have hq := Orderly.eq_cons_of_head first
  rw [hq] at before nodup
  have hnot := (List.nodup_cons.mp nodup).1
  cases before with
  | cons _ before => exact hnot (before.subset (by simp))
  | cons_cons _ before => exact hnot (before.subset (by simp))

/-- A kernel that somebody wants to restart does not say that it is starting. -/
def Announced (c : Scene) : Prop :=
  ∀ u i, c.stage? u = some (.restartLock i) → c.pool.status? i ≠ some .starting

namespace Announced

theorem stride (ht : c.stage? t = some s) (adv : Pool.Advance t c.pool s p m) (h : c.Announced) :
    (c.goOn t w p m).Announced := by
  intro u i hu hi
  rcases Services.stage_of_goOn hu with ⟨rfl, rfl⟩ | ⟨-, hu⟩
  · exact adv.ne_restartLock rfl
  · exact h u i hu (Staffed.older_of_advance adv hi (by simp) (by simp))

theorem calm (sound : c.Sound) (quiet : ∀ id st, l ≠ .call (.pool (.updateStatus id st)))
    (turn : Turn l.still t c c') (h : c.Announced) : c'.Announced := by
  intro u i hu hi
  rcases Services.stage_of_calm turn hu with hu | ⟨rfl, call, p, dead, hpool, opening⟩ | ⟨j, hj⟩
  · have queued := sound.mem_worker (i := i) hu (List.mem_singleton.mpr rfl)
    obtain ⟨e, he⟩ := Pool.has_iff_entry?.mp (Pool.has_of_mem_worker queued)
    have hst : c.pool.status? i = some e.record.status := by simp [Pool.status?, he]
    have hne := h u i hu
    rcases status_of_calm quiet turn hst with hnow | hnow | ⟨-, hnow⟩
    · exact hne (hst.trans (hnow.symm.trans hi))
    · cases hnow.symm.trans hi
    · cases hnow.symm.trans hi
  · rw [hpool] at hi
    cases opening with
    | restart id _ found =>
      have has := sound.there i (Pool.find?_eq_some found).1
      rw [Pool.status?_requestWorker, Pool.status?_setStatus_self .restarting has] at hi
      cases hi
  · cases hj

end Announced
end Scene

namespace Services

open Scene

variable {config : Config} {catalog : Catalog} {ls : List Label} {s s' d : Services} {l : Label}
  {t u v : TaskId} {i : Nat}

theorem announced_run (quiet : ∀ id status, .call (.pool (.updateStatus id status)) ∉ ls)
    (run : (init config catalog).run ls = some s) : s.scene.Announced := by
  have hinit : (init config catalog).scene.Announced := fun u i h => (by cases h)
  have hkeep := strides_run (I := fun _ c => c.Announced)
    (P := fun l => ∀ id status, l ≠ .call (.pool (.updateStatus id status))) ?_
    (fun _ _ _ _ _ _ _ _ was adv h => h.stride (Sound.stage_of_act was) adv)
    (fun _ _ _ _ _ hl sound turn h => h.calm sound hl turn) (quiet_of_not_mem quiet)
    (sound_init config catalog) hinit run
  · exact hkeep.2
  · intro seen s l h u i hu hi
    rw [scene_stir] at hu
    exact h u i hu (((alike_stir s l).status i).symm.trans hi)

/-- Whoever waits for a worker to restart it waits before the same tasks as long as it waits. -/
theorem before_step (sound : s.scene.Sound) (step : s.step l = some s')
    (hv : s'.scene.Stands (Stage.Asks i) v)
    (h : [v, u].Sublist (s.pool.queue (.worker i))) :
    [v, u].Sublist (s'.pool.queue (.worker i)) := by
  cases deed_of_step sound.fresh step with
  | calm shown same stages => rwa [same.queue]
  | stride t w st p m own was adv shown same moved =>
    have hst : s.scene.stage? t = some st := Sound.stage_of_act was
    have ready := sound.ready hst
    rw [same.queue, adv.queues ready]
    have unasked : ∀ {j}, m ≠ .wait (.restartLock j) := adv.ne_restartLock
    refine Pool.sublist_relock ?_ ?_ h
    · intro hold _
      by_cases ha : st.awaits = some (.worker i)
      · exact adv.granted ha
      · exact sound.holds hst hold ha
    · rintro rfl
      have hto := (stands_self moved).mp hv
      cases m with
      | wait st' => exact unasked (congrArg Move.wait hto)
      | finish => exact hto
  | begin t call p q dead m n shown before opening after may distinct free fresh begun stages =>
    -- whoever begins queues behind all others
    have there : ∀ j ∈ p.tracked, p.Has j := by
      intro j hj
      rw [before.tracked] at hj
      exact (before.has j).mpr (sound.there j hj)
    rw [after.queue, opening.queues there, before.queue, relock]
    split
    · rw [if_neg List.not_mem_nil]
      exact h.trans (List.sublist_append_left _ _)
    · rwa [if_neg List.not_mem_nil]

/-- The entries whose workers are left in a step to a restart that waits for them: the worker does not
come up, and its kernel is forgotten. -/
def strands (s : Services) (l : Label) : List Nat :=
  (s.strides l).filterMap fun x => match x.move with
    | .wait (.abandoning i _) =>
      if i ∈ s.pool.tracked ∧
          (s.pool.queue (.worker i)).any (fun u => s.scene.stage? u = some (.restartLock i)) then
        some i
      else none
    | _ => none

theorem mem_strands {j : Nat} : j ∈ s.strands l ↔ j ∈ s.pool.tracked ∧
    (∃ x ∈ s.strides l, ∃ f, x.move = .wait (.abandoning j f)) ∧
    ∃ u ∈ s.pool.queue (.worker j), s.scene.stage? u = some (.restartLock j) := by
  rw [strands, List.mem_filterMap]
  constructor
  · rintro ⟨x, hx, h⟩
    split at h
    · next i f hm =>
      obtain ⟨⟨there, asked⟩, h⟩ := Option.ite_none_right_eq_some.mp h
      obtain rfl := Option.some.inj h
      obtain ⟨u, hu, hst⟩ := List.any_eq_true.mp asked
      exact ⟨there, ⟨x, hx, f, hm⟩, u, hu, of_decide_eq_true hst⟩
    · cases h
  · rintro ⟨there, ⟨x, hx, f, hm⟩, u, hu, hst⟩
    refine ⟨x, hx, ?_⟩
    rw [hm]
    exact if_pos ⟨there, List.any_eq_true.mpr ⟨u, hu, decide_eq_true hst⟩⟩

/-- A kernel whose worker is stranded is gone, and the task that brought the worker up has given it
up. -/
theorem of_mem_strands (sound : s.scene.Sound) (step : s.step l = some s') (h : i ∈ s.strands l) :
    i ∉ s'.pool.tracked ∧ ∃ u, s.scene.Stands (Stage.Starts i) u ∧
      ¬s'.scene.Stands (Stage.Starts i) u := by
  obtain ⟨-, ⟨x, hx, f, hm⟩, -⟩ := mem_strands.mp h
  cases deed_of_step sound.fresh step with
  | calm shown | begin t call p q dead m n shown =>
    rw [shown] at hx
    cases hx
  | stride t w st p m own was adv shown same moved =>
    rw [shown] at hx
    obtain rfl := List.mem_singleton.mp hx
    obtain rfl : m = _ := hm
    obtain ⟨gone, starts⟩ := adv.abandons
    refine ⟨fun hi => gone (same.tracked ▸ hi), t, ⟨st, Sound.stage_of_act was, starts⟩, ?_⟩
    exact fun h => (stands_self moved).mp h

/-- Whether the worker of an entry that does not come up is stranded. -/
theorem mem_strands_iff {st : Stage} {f : Failure} (sound : s.scene.Sound)
    (shown : s.strides l = [⟨t, st, .wait (.abandoning i f)⟩]) :
    i ∈ s.strands l ↔ i ∈ s.pool.tracked ∧ ∃ u, s.scene.Stands (Stage.Asks i) u := by
  rw [mem_strands, shown]
  have gives : ∃ x ∈ [(⟨t, st, .wait (.abandoning i f)⟩ : Stride)],
      ∃ f, x.move = .wait (.abandoning i f) := ⟨_, List.mem_singleton.mpr rfl, f, rfl⟩
  constructor
  · rintro ⟨there, -, u, -, hu⟩
    exact ⟨there, u, _, hu, rfl⟩
  · rintro ⟨there, u, hu⟩
    obtain ⟨su, hst, rfl⟩ := id hu
    exact ⟨there, gives, u, sound.mem_of_asks hu, hst⟩

/-- What becomes of the worker of an entry, if `stranded` says whether it was stranded before. -/
inductive Custody (i : Nat) (s : Services) (stranded : Prop) : Prop
  /-- Its kernel is tracked. -/
  | tracked (there : i ∈ s.pool.tracked) (kept : ¬stranded)
  /-- A task is to shut it down, after all who want to restart it. -/
  | owed (gone : i ∉ s.pool.tracked) (u : TaskId) (owes : s.scene.Stands (Stage.Owes i) u)
      (last : ∀ v, s.scene.Stands (Stage.Asks i) v → [v, u].Sublist (s.pool.queue (.worker i)))
      (kept : ¬stranded)
  /-- It is down, and nobody wants to restart it. -/
  | down (gone : i ∉ s.pool.tracked) (down : s.pool.isUp i = false)
      (unasked : ∀ v, ¬s.scene.Stands (Stage.Asks i) v) (kept : ¬stranded)
  /-- It is up, or somebody is to restart it, and nobody is to shut it down. -/
  | stranded (gone : i ∉ s.pool.tracked) (grown : s.scene.Grown i)
      (unowed : ∀ u, ¬s.scene.Stands (Stage.Owes i) u)
      (up : s.pool.isUp i = true ∨ ∃ v, s.scene.Stands (Stage.Asks i) v) (lost : stranded)

namespace Custody

variable {b : Prop}

/-- A step that leaves the tasks that bring the worker up strands nothing. -/
theorem not_or_strands (sound : s.scene.Sound) (step : s.step l = some s') (kept : ¬b)
    (starts : ∀ u, s'.scene.Stands (Stage.Starts i) u ↔ s.scene.Stands (Stage.Starts i) u) :
    ¬(b ∨ i ∈ s.strands l) := by
  rintro (hb | hi)
  · exact kept hb
  · obtain ⟨-, u, hu, hnot⟩ := of_mem_strands sound step hi
    exact hnot ((starts u).mpr hu)

/-- A step after which the kernel is tracked strands nothing. -/
theorem stay (sound : s.scene.Sound) (step : s.step l = some s') (there : i ∈ s'.pool.tracked)
    (kept : ¬b) : Custody i s' (b ∨ i ∈ s.strands l) := by
  refine .tracked there ?_
  rintro (hb | hi)
  · exact kept hb
  · exact (of_mem_strands sound step hi).1 there

theorem of_tracked (sound : s.scene.Sound) (staffed : s.scene.Staffed)
    (announced : s.scene.Announced) (removed : Removed i s) (step : s.step l = some s')
    (there : i ∈ s.pool.tracked) (kept : ¬b) (bearing : Bearing i s l s') :
    Custody i s' (b ∨ i ∈ s.strands l) := by
  cases bearing with
  | aside same told calls mild starts closes asks =>
    exact stay sound step (same.mpr there) kept
  | ask _ _ _ still | insert _ _ still | up _ still => exact stay sound step still kept
  | shut t same | restart t same => exact stay sound step (same.mpr there) kept
  | forget there starting gone calls starts closes asks =>
    -- the kernel says that it is starting, so somebody brings it up and nobody is to restart it
    obtain ⟨u, st, hu, hst⟩ := staffed.starting i there starting
    refine .owed gone u (stands_owes.mpr (.inl ((starts u).mpr ⟨st, hu, hst⟩))) ?_
      (not_or_strands sound step kept starts)
    intro v hv
    obtain ⟨sv, hsv, rfl⟩ := (asks v).mp hv
    exact absurd starting (announced v i hsv)
  | close t there gone settled calls starts closes asks last =>
    exact .owed gone t (stands_owes.mpr (.inr ((closes t).mpr (.inl rfl)))) last
      (not_or_strands sound step kept starts)
  | abandon t gone calls was st why shown starts closes asks =>
    have unowed : ∀ u, ¬s'.scene.Stands (Stage.Owes i) u := by
      intro u hu
      rcases stands_owes.mp hu with hu | hu
      · obtain ⟨hut, hu⟩ := (starts u).mp hu
        exact hut (sound.starts_inj hu was)
      · exact (removed.gone u ((closes u).mp hu)).1 there
    -- a call to restart the worker that is still waiting will bring it up again
    by_cases asked : ∃ u, s.scene.Stands (Stage.Asks i) u
    · obtain ⟨u, hu⟩ := asked
      exact .stranded gone (.step sound step (.of_tracked sound there)) unowed
        (.inr ⟨u, (asks u).mpr hu⟩) (.inr ((mem_strands_iff sound shown).mpr ⟨there, u, hu⟩))
    · refine .down gone (Pool.isUp_append calls) (fun v hv => asked ⟨v, (asks v).mp hv⟩) ?_
      rintro (hb | hi)
      · exact kept hb
      · exact asked ((mem_strands_iff sound shown).mp hi).2

/-- The worker of a kernel that is gone is not stranded now. -/
theorem not_or_of_gone (gone : i ∉ s.pool.tracked) (kept : ¬b) : ¬(b ∨ i ∈ s.strands l) :=
  fun h => h.elim kept fun hi => gone (mem_strands.mp hi).1

theorem of_owed (sound : s.scene.Sound) (removed : Removed i s) (step : s.step l = some s')
    (gone : i ∉ s.pool.tracked) (owes : s.scene.Stands (Stage.Owes i) u)
    (last : ∀ v, s.scene.Stands (Stage.Asks i) v → [v, u].Sublist (s.pool.queue (.worker i)))
    (kept : ¬b) (bearing : Bearing i s l s') : Custody i s' (b ∨ i ∈ s.strands l) := by
  have kept' : ¬(b ∨ i ∈ s.strands l) := not_or_of_gone gone kept
  have later : (∀ v, s'.scene.Stands (Stage.Asks i) v → s.scene.Stands (Stage.Asks i) v) →
      ∀ v, s'.scene.Stands (Stage.Asks i) v → [v, u].Sublist (s'.pool.queue (.worker i)) :=
    fun asks v hv => before_step sound step hv (last v (asks v hv))
  have unasked : (s.pool.queue (.worker i)).head? = some u →
      ∀ v, ¬s.scene.Stands (Stage.Asks i) v :=
    fun first v hv => sound.not_before_first first (last v hv)
  rw [stands_owes] at owes
  cases bearing with
  | ask _ _ there | forget there | close _ there | up there => exact absurd there gone
  | insert _ _ there => exact .tracked there kept'
  | aside same told calls mild starts closes asks =>
    refine .owed (fun hi => gone (same.mp hi)) u ?_ (later fun v => (asks v).mp) kept'
    rwa [stands_owes, starts, closes]
  | restart t same calls was starts closes asks =>
    refine .owed (fun hi => gone (same.mp hi)) u ?_ (later fun v hv => ((asks v).mp hv).2) kept'
    rwa [stands_owes, starts, closes]
  | shut t same calls was first starts closes asks =>
    -- whoever is to shut the worker down is the one who has it
    obtain rfl : u = t := by
      rcases owes with hu | hu
      · exact Option.some.inj ((sound.head_of_starts hu).symm.trans first)
      · exact removed.sole u t hu was
    exact .down (fun hi => gone (same.mp hi)) (Pool.isUp_append calls)
      (fun v hv => unasked first v ((asks v).mp hv)) kept'
  | abandon t gone' calls was st why shown starts closes asks =>
    rcases owes with hu | hu
    · exact .down gone' (Pool.isUp_append calls)
        (fun v hv => unasked (sound.head_of_starts hu) v ((asks v).mp hv)) kept'
    · exact .owed gone' u (stands_owes.mpr (.inr ((closes u).mpr hu))) (later fun v => (asks v).mp)
        kept'

theorem of_down (gone : i ∉ s.pool.tracked) (isDown : s.pool.isUp i = false)
    (unasked : ∀ v, ¬s.scene.Stands (Stage.Asks i) v) (kept : ¬b) (bearing : Bearing i s l s') :
    Custody i s' (b ∨ i ∈ s.strands l) := by
  have kept' : ¬(b ∨ i ∈ s.strands l) := not_or_of_gone gone kept
  cases bearing with
  | ask _ _ there | forget there | close _ there | up there => exact absurd there gone
  | insert _ _ there => exact .tracked there kept'
  | aside same told calls mild starts closes asks =>
    refine .down (fun hi => gone (same.mp hi)) ?_ (fun v hv => unasked v ((asks v).mp hv)) kept'
    rw [Pool.isUp_append calls, Pool.foldl_leaves_of_mild mild, isDown]
  | shut t same calls was first starts closes asks =>
    exact .down (fun hi => gone (same.mp hi)) (Pool.isUp_append calls)
      (fun v hv => unasked v ((asks v).mp hv)) kept'
  | abandon t gone' calls was st why shown starts closes asks =>
    exact .down gone' (Pool.isUp_append calls) (fun v hv => unasked v ((asks v).mp hv)) kept'
  | restart t same calls was => exact absurd was (unasked t)

theorem of_stranded (sound : s.scene.Sound) (step : s.step l = some s')
    (gone : i ∉ s.pool.tracked) (grown : s.scene.Grown i)
    (unowed : ∀ u, ¬s.scene.Stands (Stage.Owes i) u)
    (up : s.pool.isUp i = true ∨ ∃ v, s.scene.Stands (Stage.Asks i) v) (lost : b)
    (bearing : Bearing i s l s') : Custody i s' (b ∨ i ∈ s.strands l) := by
  have grown' := grown.step sound step
  have unowed' : (∀ u, s'.scene.Stands (Stage.Starts i) u ↔ s.scene.Stands (Stage.Starts i) u) →
      (∀ u, s'.scene.Stands (Stage.Closes i) u ↔ s.scene.Stands (Stage.Closes i) u) →
      ∀ u, ¬s'.scene.Stands (Stage.Owes i) u := by
    intro starts closes u hu
    rw [stands_owes, starts, closes, ← stands_owes] at hu
    exact unowed u hu
  cases bearing with
  | ask _ _ there | forget there | close _ there | up there => exact absurd there gone
  | insert t newborn =>
    obtain ⟨st, hst, hn⟩ := Option.bind_eq_some_iff.mp newborn
    exact absurd hn (grown.unborn t st hst)
  | aside same told calls mild starts closes asks =>
    refine .stranded (fun hi => gone (same.mp hi)) grown' (unowed' starts closes) ?_ (.inl lost)
    rw [Pool.isUp_append calls, Pool.foldl_leaves_of_mild mild]
    exact up.imp_right fun ⟨v, hv⟩ => ⟨v, (asks v).mpr hv⟩
  | restart t same calls was starts closes =>
    exact .stranded (fun hi => gone (same.mp hi)) grown' (unowed' starts closes)
      (.inl (Pool.isUp_append calls)) (.inl lost)
  | shut t same calls was => exact absurd (stands_owes.mpr (.inr was)) (unowed t)
  | abandon t gone' calls was => exact absurd (stands_owes.mpr (.inl was)) (unowed t)

/-- A step keeps the worker of every entry accounted for. -/
theorem next (h : Custody i s b) (sound : s.scene.Sound) (staffed : s.scene.Staffed)
    (announced : s.scene.Announced) (removed : Removed i s) (step : s.step l = some s')
    (bearing : Bearing i s l s') : Custody i s' (b ∨ i ∈ s.strands l) := by
  cases h with
  | tracked there kept => exact of_tracked sound staffed announced removed step there kept bearing
  | owed gone u owes last kept => exact of_owed sound removed step gone owes last kept bearing
  | down gone down unasked kept => exact of_down gone down unasked kept bearing
  | stranded gone grown unowed up lost => exact of_stranded sound step gone grown unowed up lost bearing

end Custody

theorem custody_run (quiet : ∀ id status, .call (.pool (.updateStatus id status)) ∉ ls)
    (run : (init config catalog).run ls = some s) (i : Nat) :
    Custody i s (i ∈ (init config catalog).gather strands ls) := by
  refine run_induction (I := fun ls s =>
    (∀ id status, .call (.pool (.updateStatus id status)) ∉ ls) →
      Custody i s (i ∈ (init config catalog).gather strands ls)) ?_ ?_ run quiet
  · intro _
    refine .down List.not_mem_nil rfl ?_ List.not_mem_nil
    rintro v ⟨st, hst, -⟩
    cases hst
  · intro before l d d' reached step ih quiet
    have quiet' : ∀ id status, .call (.pool (.updateStatus id status)) ∉ before :=
      fun id status h => quiet id status (List.mem_append_left _ h)
    obtain ⟨sound, staffed⟩ := staffed_run quiet' reached
    have custody := (ih quiet').next sound staffed (announced_run quiet' reached)
      (removed_run quiet' reached i) step (bearing_of_reached quiet' reached step i)
    rwa [gather_append_singleton reached, List.mem_append]

/-- As long as callers set no status by themselves: when no operation of the pool is in progress, a
worker whose kernel is not tracked is up just when it was stranded: its kernel did not come up and was
forgotten while a call to restart it waited for the worker. This is about runs as `step` makes them:
lookups are made where tasks can be started, and no call is dropped while it waits. -/
theorem untracked_worker_up (config : Config) (catalog : Catalog) (ls : List Label) (s : Services)
    (quiet : ∀ id status, .call (.pool (.updateStatus id status)) ∉ ls)
    (run : (init config catalog).run ls = some s)
    (idle : ∀ t w st, s.tasks.get? t ≠ some (.pool w st)) (i : Nat) (gone : i ∉ s.pool.tracked) :
    s.pool.isUp i = true ↔ i ∈ (init config catalog).gather strands ls := by
  have nobody : ∀ {P : Stage → Prop} {u}, ¬s.scene.Stands P u := by
    rintro P u ⟨st, hst, -⟩
    obtain ⟨w, hw⟩ := stage_of_scene hst
    exact idle u w st hw
  cases custody_run quiet run i with
  | tracked there => exact absurd there gone
  | owed _ u owes => exact absurd owes nobody
  | down _ isDown _ kept => exact iff_of_false (by simp [isDown]) kept
  | stranded _ _ _ up lost =>
    obtain isUp | ⟨v, hv⟩ := up
    · exact iff_of_true isUp lost
    · exact absurd hv nobody

/-- A kernel is created and shut down. -/
def shutDown : List Label :=
  booting ++ [.call (.pool (.shutdown (.fresh 0))), .resume 1, .resume 1, .resume 1, .answer 1 .ok,
    .resume 1]

theorem untracked_worker_up_shutDown :
    ∃ s, (init { } [.python3]).run shutDown = some s ∧ s.tasks = [] ∧ 0 ∉ s.pool.tracked ∧
      s.pool.calls 0 = [.start, .waitReady, .shutdown] ∧ ¬s.pool.isUp 0 = true := by
  have h : ((init { } [.python3]).run shutDown).map (fun s =>
      (s.tasks, s.pool.tracked, s.pool.calls 0)) =
      some ([], [], [.start, .waitReady, .shutdown]) := by
    decide
  have unstranded : (init { } [.python3]).gather strands shutDown = [] := by decide
  obtain ⟨s, run, h⟩ := Option.map_eq_some_iff.mp h
  simp only [Prod.mk.injEq] at h
  obtain ⟨tasks, tracked, calls⟩ := h
  have quiet : ∀ id status, .call (.pool (.updateStatus id status)) ∉ shutDown := by
    simp [shutDown, booting]
  have idle : ∀ t w st, s.tasks.get? t ≠ some (.pool w st) := by
    intro t w st
    rw [tasks]
    simp [Table.get?]
  have gone : 0 ∉ s.pool.tracked := by simp [tracked]
  have up := untracked_worker_up { } [.python3] shutDown s quiet run idle 0 gone
  exact ⟨s, run, tasks, gone, calls, fun h => by simpa [unstranded] using up.mp h⟩

/-- A call to restart a kernel waits until it is up, and it does not come up. -/
def restartAwaited : List Label :=
  [.call (.pool (.create { } none)), .resume 0, .resume 0, .call (.pool (.restart (.fresh 0))),
    .answer 0 (.failed (.start "no start")), .answer 0 .ok, .resume 1, .answer 1 .ok, .answer 1 .ok]

/-- Nothing is in progress any more, the kernel is gone, and its worker is up. -/
theorem restart_of_abandoned :
    ∃ s, (init { } [.python3]).run restartAwaited = some s ∧ s.tasks = [] ∧ s.pool.tracked = [] ∧
      s.pool.calls 0 = [.start, .shutdown, .restart, .waitReady] ∧ s.pool.isUp 0 = true := by
  have h : ((init { } [.python3]).run restartAwaited).map (fun s =>
      (s.tasks, s.pool.tracked, s.pool.calls 0, s.pool.isUp 0)) =
      some ([], [], [.start, .shutdown, .restart, .waitReady], true) := by
    decide
  obtain ⟨s, run, h⟩ := Option.map_eq_some_iff.mp h
  simp only [Prod.mk.injEq] at h
  obtain ⟨tasks, tracked, calls, isUp⟩ := h
  exact ⟨s, run, tasks, tracked, calls, isUp⟩

end Services
end NotebookKernels
