import NotebookKernels.Proofs.Pool.Statuses
import NotebookKernels.Proofs.Service.Sound

/- Every status that is not idle has somebody who will change it.

   Five kinds of tasks write the status of a kernel, in any order. Still, as long as callers set no
   status by themselves, a busy kernel has a slot, a tracked kernel that is restarting has a task that
   restarts it, and a tracked kernel that is starting has the task that creates it. So when no
   operation is in progress and no slot is held, every tracked kernel is idle. -/
namespace NotebookKernels

open Function (update)

namespace Scene

variable {l : Label} {t u : TaskId} {c c' : Scene} {w : Work} {p : Pool} {m : Move} {s : Stage}
  {i : Nat}

/-- Every status that is not idle has somebody who will change it. -/
structure Staffed (c : Scene) : Prop where
  named : c.Named
  busy : ∀ i, c.pool.status? i = some .busy → ∃ t, c.slot t = some i
  starting : ∀ i ∈ c.pool.tracked, c.pool.status? i = some .starting →
    ∃ t s, c.stage? t = some s ∧ s.Starts i
  restarting : ∀ i ∈ c.pool.tracked, c.pool.status? i = some .restarting →
    ∃ t s, c.stage? t = some s ∧ s.Restarts (.fresh i) i
  /-- A kernel that is not inserted yet is starting. -/
  unborn : ∀ t i, c.newborn? t = some i → c.pool.status? i = some .starting

namespace Staffed

theorem congr (h : c.Staffed) (stage : ∀ u s, c.stage? u = some s → c'.stage? u = some s)
    (newborn : ∀ u i, c'.newborn? u = some i → c.newborn? u = some i) (slot : c'.slot = c.slot)
    (alike : c.pool.Alike c'.pool) : c'.Staffed where
  named := h.named.alike alike
  busy i hi := by
    rw [alike.status] at hi
    rw [slot]
    exact h.busy i hi
  starting i there hi := by
    rw [alike.tracked] at there
    rw [alike.status] at hi
    obtain ⟨u, s, hu, hs⟩ := h.starting i there hi
    exact ⟨u, s, stage u s hu, hs⟩
  restarting i there hi := by
    rw [alike.tracked] at there
    rw [alike.status] at hi
    obtain ⟨u, s, hu, hs⟩ := h.restarting i there hi
    exact ⟨u, s, stage u s hu, hs⟩
  unborn u i hu := by
    rw [alike.status]
    exact h.unborn u i (newborn u i hu)

/-- What some task stands at, some task still stands at when one of them goes on. -/
theorem exists_goOn {P : Stage → Prop} {gone : Prop} (h : ∃ u su, c.stage? u = some su ∧ P su)
    (own : ∀ s, c.stage? t = some s → P s → (∃ s', m = .wait s' ∧ P s') ∨ gone) :
    (∃ u su, (c.goOn t w p m).stage? u = some su ∧ P su) ∨ gone := by
  obtain ⟨u, su, hu, hP⟩ := h
  by_cases hut : u = t
  · rcases own su (hut ▸ hu) hP with ⟨s', rfl, hs'⟩ | hgone
    · exact .inl ⟨t, s', by rw [stage?_goOn, Function.update_self]; rfl, hs'⟩
    · exact .inr hgone
  · exact .inl ⟨u, su, by rw [stage?_goOn, Function.update_of_ne hut, hu], hP⟩

/-- A slot outlasts the moves of other tasks. -/
theorem slot_goOn_of_some (free : c.slot t = none) (h : ∃ u, c.slot u = some i) :
    ∃ u, (c.goOn t w p m).slot u = some i := by
  obtain ⟨u, hu⟩ := h
  have hne : u ≠ t := by
    rintro rfl
    exact absurd (free.symm.trans hu) (by simp)
  exact ⟨u, by rw [slot_goOn free, Function.update_of_ne hne, hu]⟩

/-- No step but the end of a start or a restart, or a granted slot, writes a status. -/
theorem older_of_advance (step : Pool.Advance t c.pool s p m) {st : KernelStatus}
    (hi : p.status? i = some st) (hidle : st ≠ .idle) (hbusy : st ≠ .busy) :
    c.pool.status? i = some st := by
  rcases step.statuses with same | ⟨j, -, marks⟩ | ⟨j, -, -, marks⟩
  · exact same i ▸ hi
  · exact (marks.older hi hidle).2
  · exact (marks.older hi hbusy).2

theorem busy_advance (h : c.Staffed) (free : c.slot t = none)
    (step : Pool.Advance t c.pool s p m) (hi : p.status? i = some .busy) :
    ∃ u, (c.goOn t w p m).slot u = some i := by
  rcases step.statuses with same | ⟨j, -, marks⟩ | ⟨j, rfl, there, marks⟩
  · exact slot_goOn_of_some free (h.busy i (same i ▸ hi))
  · exact slot_goOn_of_some free (h.busy i (marks.older hi (by simp)).2)
  · by_cases hij : j = i
    · subst hij
      exact ⟨t, by rw [slot_goOn free, Function.update_self]; rfl⟩
    · exact slot_goOn_of_some free (h.busy i (marks.of_ne hij ▸ hi))

theorem unborn_advance (h : c.Staffed) (sound : c.Sound) (hs : c.stage? t = some s)
    (step : Pool.Advance t c.pool s p m) (hu : (c.goOn t w p m).newborn? u = some i) :
    p.status? i = some .starting := by
  have hold : c.newborn? u = some i := by
    by_cases hut : u = t
    · subst hut
      rw [newborn?, stage?_goOn, Function.update_self] at hu
      simpa [newborn?, hs] using step.unborn hu
    · exact (Sound.newborn?_goOn hut).mp hu
  have hstart := h.unborn u i hold
  rcases step.statuses with same | ⟨j, settles, marks⟩ | ⟨j, -, there, marks⟩
  · exact (same i).trans hstart
  · refine (marks.of_ne ?_).trans hstart
    rintro rfl
    -- the task that settles the kernel has its worker, and so has the task that is to insert it
    have hw := settles.worker
    have hl : .worker j ∈ c.locks t := sound.locks_of_stage hs ▸ hw.1
    have ha : c.awaits t ≠ some (.worker j) := by simp [awaits, hs, hw.2]
    obtain ⟨hl', ha'⟩ := sound.newborn_worker hold
    obtain rfl := sound.orderly.exclusive hl hl' ha ha'
    simp [newborn?, hs, settles.newborn?] at hold
  · refine (marks.of_ne ?_).trans hstart
    rintro rfl
    exact sound.young u j hold there

theorem advance (h : c.Staffed) (named : (c.goOn t w p m).Named) (sound : c.Sound)
    (was : c.act t = some (.pool w s)) (step : Pool.Advance t c.pool s p m) :
    (c.goOn t w p m).Staffed := by
  have hs := Sound.stage_of_act was
  refine ⟨named, fun i => h.busy_advance (sound.bare t s hs) step, ?_, ?_,
    fun u i => h.unborn_advance sound hs step⟩
  · intro i there hi
    rcases step.inserted there with old | ⟨-, rfl⟩
    · have hold := h.starting i old (older_of_advance step hi (by simp) (by simp))
      have hnow := exists_goOn (w := w) (p := p) (m := m) hold fun s' hs' =>
        Option.some.inj (hs.symm.trans hs') ▸ step.starts
      exact hnow.resolve_right fun hgone => hgone.elim (absurd there) (absurd hi)
    · exact ⟨t, .starting i, by rw [stage?_goOn, Function.update_self]; rfl, rfl⟩
  · intro i there hi
    have hwas := older_of_advance step hi (by simp) (by simp)
    rcases step.inserted there with old | ⟨hn, -⟩
    · have hrest : s.Restarts (.fresh i) i → (∃ s', m = .wait s' ∧ s'.Restarts (.fresh i) i) ∨ _ :=
        fun hr => step.restarts hr (h.named.idOf (sound.there i old)) (h.named.find? sound)
      have hnow := exists_goOn (w := w) (p := p) (m := m) (h.restarting i old hwas) fun s' hs' =>
        Option.some.inj (hs.symm.trans hs') ▸ hrest
      exact hnow.resolve_right fun hgone => hgone.elim (absurd there) (absurd hi)
    · have hborn := h.unborn t i (by simp [newborn?, hs, hn])
      exact absurd (hborn.symm.trans hwas) (by simp)

/-- The beginning of a call announces a start or a restart, and writes no other status. -/
theorem older_of_begin {call : PoolCall} {dead : List Nat} {st : KernelStatus}
    (quiet : ∀ id status, call ≠ .updateStatus id status)
    (step : Pool.Opening t c.pool call p dead m) (hi : p.status? i = some st) :
    c.pool.status? i = some st ∨ (m = .wait (.restartLock i) ∧ st = .restarting) ∨
      i = c.pool.entries.length ∧ st = .starting := by
  rcases step.statuses quiet with ⟨-, same⟩ | ⟨j, rfl, -, marks⟩ | ⟨-, new⟩
  · exact .inl (same i ▸ hi)
  · by_cases hij : j = i
    · subst hij
      rw [marks j, if_pos rfl] at hi
      obtain ⟨_, -, rfl⟩ := Option.map_eq_some_iff.mp hi
      exact .inr (.inl ⟨rfl, rfl⟩)
    · exact .inl (marks.of_ne hij ▸ hi)
  · rw [new i] at hi
    split at hi
    · next hnew => exact .inr (.inr ⟨hnew, (Option.some.inj hi).symm⟩)
    · exact .inl hi

theorem unborn_begin {call : PoolCall} {dead : List Nat} (h : c.Staffed) (sound : c.Sound)
    (quiet : ∀ id status, call ≠ .updateStatus id status)
    (step : Pool.Opening t c.pool call p dead m) (hu : (c.goOn t w p m).newborn? u = some i) :
    p.status? i = some .starting := by
  by_cases hut : u = t
  · subst hut
    rw [newborn?, stage?_goOn, Function.update_self] at hu
    rcases step.statuses quiet with ⟨hnone, -⟩ | ⟨j, rfl, -⟩ | ⟨hnew, new⟩
    · exact absurd (hnone.symm.trans hu) (by simp)
    · cases hu
    · obtain rfl := Option.some.inj (hnew.symm.trans hu)
      exact (new _).trans (if_pos rfl)
  · have hold := (Sound.newborn?_goOn hut).mp hu
    have hstart := h.unborn u i hold
    rcases step.statuses quiet with ⟨-, same⟩ | ⟨j, -, there, marks⟩ | ⟨-, new⟩
    · exact (same i).trans hstart
    · refine (marks.of_ne ?_).trans hstart
      rintro rfl
      exact sound.young u j hold there
    · refine (new i).trans ((if_neg ?_).trans hstart)
      exact Nat.ne_of_lt (Pool.has_of_status?_eq_some hstart)

theorem begin {call : PoolCall} {dead : List Nat} (h : c.Staffed)
    (named : (c.goOn t w p m).Named) (sound : c.Sound)
    (quiet : ∀ id status, call ≠ .updateStatus id status) (risen : c.act t = none)
    (free : c.slot t = none) (step : Pool.Opening t c.pool call p dead m) :
    (c.goOn t w p m).Staffed := by
  have hs : c.stage? t = none := by simp [stage?, risen]
  have others : ∀ {P : Stage → Prop}, (∃ u su, c.stage? u = some su ∧ P su) →
      ∃ u su, (c.goOn t w p m).stage? u = some su ∧ P su := by
    intro P hu
    have hnow : (∃ u su, (c.goOn t w p m).stage? u = some su ∧ P su) ∨ False :=
      exists_goOn hu fun s' hs' => absurd (hs.symm.trans hs') (by simp)
    exact hnow.resolve_right id
  refine ⟨named, ?_, ?_, ?_, fun u i => h.unborn_begin sound quiet step⟩
  · intro i hi
    rcases older_of_begin quiet step hi with hi | ⟨-, hst⟩ | ⟨-, hst⟩
    · exact slot_goOn_of_some free (h.busy i hi)
    · cases hst
    · cases hst
  · intro i there hi
    have old := step.inserted there
    rcases older_of_begin quiet step hi with hi | ⟨-, hst⟩ | ⟨hnew, -⟩
    · exact others (h.starting i old hi)
    · cases hst
    · exact absurd hnew (Nat.ne_of_lt (sound.there i old))
  · intro i there hi
    rcases older_of_begin quiet step hi with hi | ⟨rfl, -⟩ | ⟨-, hst⟩
    · exact others (h.restarting i (step.inserted there) hi)
    · exact ⟨t, .restartLock i, by rw [stage?_goOn, Function.update_self]; rfl, rfl⟩
    · cases hst

theorem drop (h : c.Staffed) (named : (c.letGo u i).Named) (holds : c.slot u = some i) :
    (c.letGo u i).Staffed := by
  -- a busy kernel may become idle, and nothing else is written
  have older : ∀ j st, (c.letGo u i).pool.status? j = some st → st ≠ .idle →
      c.pool.status? j = some st ∧ (st = .busy → i ≠ j) := by
    intro j st hj hidle
    rw [letGo, Pool.status?_dropped] at hj
    split at hj
    · obtain ⟨st', hst', hif⟩ := Option.map_eq_some_iff.mp hj
      split at hif
      · exact absurd hif.symm hidle
      · next hb => exact ⟨hif ▸ hst', fun hbusy => absurd (hif.trans hbusy) hb⟩
    · next hij => exact ⟨hj, fun _ => hij⟩
  refine ⟨named, ?_, ?_, ?_, ?_⟩
  · intro j hj
    obtain ⟨hbusy, hij⟩ := older j _ hj (by simp)
    obtain ⟨v, hv⟩ := h.busy j hbusy
    have hvu : v ≠ u := by
      rintro rfl
      exact hij rfl (Option.some.inj (holds.symm.trans hv))
    exact ⟨v, (Function.update_of_ne hvu _ _).trans hv⟩
  · exact fun j there hj => h.starting j there (older j _ hj (by simp)).1
  · exact fun j there hj => h.restarting j there (older j _ hj (by simp)).1
  · intro v j hv
    refine (Pool.status?_dropped j).trans ?_
    have hstart := h.unborn v j hv
    split
    · simp [hstart]
    · exact hstart

/-- A turn keeps every status accounted for, if callers set none. -/
theorem turn (h : c.Staffed) (sound : c.Sound)
    (quiet : ∀ id status, l ≠ .call (.pool (.updateStatus id status))) (turn : Turn l t c c') :
    c'.Staffed := by
  have named := h.named.turn turn
  have outside : ∀ {a : Option Activity}, c.stage? t = a.bind Activity.stage? →
      (c.setAct t a).stage? = c.stage? := by
    intro a ha
    rw [stage?_setAct]
    exact update_eq_self ha
  have still : ∀ {d : Scene}, d.stage? = c.stage? → d.slot = c.slot → c.pool.Alike d.pool →
      d.Staffed := by
    intro d hs hslot alike
    refine h.congr (fun u s hu => hs ▸ hu) (fun u i hu => ?_) hslot alike
    rwa [newborn?, hs] at hu
  cases turn with
  | rise a was out =>
    exact still (outside (by simp [stage?, was, out])) rfl (.refl _)
  | carry a risen out =>
    exact still (outside (by simp [stage?, risen, out])) rfl (.refl _)
  | shift a b was out hb =>
    exact still (outside (by simp [stage?, was, out, hb])) rfl (.refl _)
  | count i =>
    refine still rfl rfl ⟨fun _ => Pool.queue_touch _, rfl, fun _ => Pool.has_touch _, fun _ => ?_,
      fun _ => ?_, rfl⟩
    · exact Pool.status?_touch_of_eq fun _ => rfl
    · exact Pool.id?_touch fun _ => rfl
  | reply => exact still rfl rfl (.refl _)
  | drop u i ended holds => exact h.drop named holds
  | advance w s p m was step => exact h.advance named sound was step
  | begin w call p dead m may risen free step =>
    refine h.begin named sound ?_ risen free step
    rcases may with rfl | may
    · intro id status hc
      exact quiet id status (by rw [hc])
    · exact may
  | reap i there =>
    have hact := sound.fresh.act c.next (Nat.le_refl _)
    have hnone : c.stage? c.next = none := by simp [stage?, hact]
    have hstage := stage?_spawn c i
    refine h.congr (fun u s hu => ?_) (fun u j hu => ?_) rfl (.refl _)
    · have hne : u ≠ c.next := by
        rintro rfl
        exact absurd (hnone.symm.trans hu) (by simp)
      rw [hstage, Function.update_of_ne hne, hu]
    · rw [newborn?, hstage] at hu
      by_cases hne : u = c.next
      · rw [hne, Function.update_self] at hu
        cases hu
      · rwa [Function.update_of_ne hne] at hu

end Staffed
end Scene

namespace Stage

/-- The task tears a dead worker down, for no caller. -/
def TearsDown : Stage → Prop
  | .reap _ | .reapLock _ | .reaping _ => True
  | _ => False

theorem TearsDown.idle {s : Stage} (h : s.TearsDown) (id : KernelId) (i : Nat) :
    ¬s.Restarts id i ∧ ¬s.Starts i := by
  cases s with
  | reap | reapLock | reaping => exact ⟨False.elim, False.elim⟩
  | _ => exact False.elim h

end Stage

namespace Services

open Scene

variable {config : Config} {catalog : Catalog} {ls : List Label} {s : Services}

theorem staffed_init : (init config catalog).scene.Staffed where
  named i hi := absurd hi (Nat.not_lt_zero i)
  busy i hi := by cases hi
  starting i there := by cases there
  restarting i there := by cases there
  unborn t i ht := by cases ht

theorem staffed_stir {l : Label} (h : s.scene.Staffed) : (s.stir l).scene.Staffed := by
  rw [scene_stir]
  exact h.congr (fun _ _ hu => hu) (fun _ _ hu => hu) rfl (alike_stir s l)

theorem staffed_run (quiet : ∀ id status, .call (.pool (.updateStatus id status)) ∉ ls)
    (run : (init config catalog).run ls = some s) : s.scene.Sound ∧ s.scene.Staffed :=
  scene_run (P := fun l => ∀ id status, l ≠ .call (.pool (.updateStatus id status)))
    (fun _ _ h => staffed_stir h) (fun _ _ _ _ hl sound turn h => h.turn sound hl turn)
    (quiet_of_not_mem quiet) (sound_init config catalog) staffed_init run

/-- As long as callers set no status by themselves: a busy kernel has a slot, a kernel that is
restarting has a task that restarts it, and a kernel that is starting has the task that creates it.
So when no operation is in progress and no slot is held, every kernel is idle. -/
theorem statuses_accounted (config : Config) (catalog : Catalog) (ls : List Label) (s : Services)
    (quiet : ∀ id status, .call (.pool (.updateStatus id status)) ∉ ls)
    (run : (init config catalog).run ls = some s) :
    (∀ i ∈ s.pool.tracked,
      (s.pool.status? i = some .busy → ∃ t, s.slots.get? t = some i) ∧
      (s.pool.status? i = some .restarting →
        ∃ t w st, s.tasks.get? t = some (.pool w st) ∧ st.Restarts (s.pool.idOf i) i) ∧
      (s.pool.status? i = some .starting →
        ∃ t w st, s.tasks.get? t = some (.pool w st) ∧ st.Starts i)) ∧
    ((∀ t w st, s.tasks.get? t = some (.pool w st) → st.TearsDown) →
      (∀ t, s.slots.get? t = none) → ∀ i ∈ s.pool.tracked, s.pool.status? i = some .idle) := by
  obtain ⟨sound, staffed⟩ := staffed_run quiet run
  have restarting : ∀ i ∈ s.pool.tracked, s.pool.status? i = some .restarting →
      ∃ t w st, s.tasks.get? t = some (.pool w st) ∧ st.Restarts (s.pool.idOf i) i := by
    intro i there hi
    obtain ⟨t, st, ht, hr⟩ := staffed.restarting i there hi
    obtain ⟨w, hw⟩ := stage_of_scene ht
    exact ⟨t, w, st, hw, (staffed.named.idOf (sound.there i there)).symm ▸ hr⟩
  have starting : ∀ i ∈ s.pool.tracked, s.pool.status? i = some .starting →
      ∃ t w st, s.tasks.get? t = some (.pool w st) ∧ st.Starts i := by
    intro i there hi
    obtain ⟨t, st, ht, hr⟩ := staffed.starting i there hi
    obtain ⟨w, hw⟩ := stage_of_scene ht
    exact ⟨t, w, st, hw, hr⟩
  refine ⟨fun i there => ⟨staffed.busy i, restarting i there, starting i there⟩, ?_⟩
  intro calm unheld i there
  obtain ⟨e, he⟩ := Pool.has_iff_entry?.mp (sound.there i there)
  have hst : s.pool.status? i = some e.record.status :=
    congrArg (Option.map fun (e : Entry) => e.record.status) he
  cases h : e.record.status with
  | idle => rw [hst, h]
  | busy =>
    obtain ⟨t, ht⟩ := staffed.busy i (hst.trans (congrArg some h))
    exact absurd ((unheld t).symm.trans ht) (by simp)
  | restarting =>
    obtain ⟨t, w, st, ht, hr⟩ := restarting i there (hst.trans (congrArg some h))
    exact absurd hr ((calm t w st ht).idle _ i).1
  | starting =>
    obtain ⟨t, w, st, ht, hr⟩ := starting i there (hst.trans (congrArg some h))
    exact absurd hr ((calm t w st ht).idle (s.pool.idOf i) i).2

/-- Three kernels are created. The first is executed on, the second restarted, and the third is not up
yet. -/
def crowded : List Label :=
  [.call (.pool (.create { } none)), .resume 0, .resume 0, .answer 0 .ok, .answer 0 .ok,
    .alive 0 true, .call (.pool (.create { } none)), .resume 1, .resume 1, .resume 1, .answer 1 .ok,
    .answer 1 .ok, .alive 1 true, .call (.pool (.acquire (.fresh 0))), .resume 2, .resume 2,
    .call (.pool (.restart (.fresh 1))), .call (.pool (.create { } none)), .resume 4, .resume 4,
    .resume 4, .resume 4]

theorem statuses_accounted_crowded :
    ∃ s, (init { } [.python3]).run crowded = some s ∧ s.pool.tracked = [0, 1, 2] ∧
      (∃ t, s.slots.get? t = some 0) ∧
      (∃ t w st, s.tasks.get? t = some (.pool w st) ∧ st.Restarts (s.pool.idOf 1) 1) ∧
      ∃ t w st, s.tasks.get? t = some (.pool w st) ∧ st.Starts 2 := by
  have h : ((init { } [.python3]).run crowded).map
      (fun s => (s.pool.tracked, s.pool.tracked.map s.pool.status?)) =
      some ([0, 1, 2], [some .busy, some .restarting, some .starting]) := by
    decide
  obtain ⟨s, run, hs⟩ := Option.map_eq_some_iff.mp h
  obtain ⟨tracked, statuses⟩ := Prod.mk.inj hs
  have quiet : ∀ id status, .call (.pool (.updateStatus id status)) ∉ crowded := by simp [crowded]
  have accounted := (statuses_accounted { } [.python3] crowded s quiet run).1
  simp only [tracked, List.map_cons, List.map_nil, List.cons.injEq, and_true] at statuses
  obtain ⟨busy, restarting, starting⟩ := statuses
  refine ⟨s, run, tracked, ?_, ?_, ?_⟩
  · exact (accounted 0 (by simp [tracked])).1 busy
  · exact (accounted 1 (by simp [tracked])).2.1 restarting
  · exact (accounted 2 (by simp [tracked])).2.2 starting

end Services
end NotebookKernels
