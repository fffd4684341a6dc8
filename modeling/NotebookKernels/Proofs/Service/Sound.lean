import NotebookKernels.Proofs.Identifier
import NotebookKernels.Proofs.Service.Scene

/- Sound scenes.

   The locks of the pool are queues, and every task knows which locks it asked for. A scene is sound
   when the two agree, and when the entries that the tasks still name are there. `sound_run` says
   that every run from services without kernels ends in a sound scene: exclusion (two tasks never head
   one queue) is what the later theorems take from it. -/
namespace NotebookKernels

open Function (update)

/-! ## Orderly queues -/

/-- The queues of the locks agree with the locks that the tasks asked for, and a task that waits for
none of its locks but one is the first in the queues of the others. -/
structure Orderly (queue : LockName → List TaskId) (locks : TaskId → List LockName)
    (awaits : TaskId → Option LockName) : Prop where
  nodup : ∀ n, (queue n).Nodup
  mem : ∀ t n, t ∈ queue n ↔ n ∈ locks t
  single : ∀ t, (locks t).Nodup
  first : ∀ t n, n ∈ locks t → awaits t ≠ some n → (queue n).head? = some t

namespace Orderly

variable {queue queue' : LockName → List TaskId} {locks : TaskId → List LockName}
  {awaits : TaskId → Option LockName} {t u : TaskId} {n : LockName}

/-- Two tasks do not both hold a lock. -/
theorem exclusive (h : Orderly queue locks awaits) (ht : n ∈ locks t) (hu : n ∈ locks u)
    (at' : awaits t ≠ some n) (au : awaits u ≠ some n) : t = u := by
  have e := (h.first t n ht at').symm.trans (h.first u n hu au)
  exact Option.some.inj e

theorem empty : Orderly (fun _ => []) (fun _ => []) fun _ => none where
  nodup _ := List.nodup_nil
  mem _ _ := by simp
  single _ := List.nodup_nil
  first _ _ hn := absurd hn List.not_mem_nil

/-- The four ways in which a queue may change when a task goes on to other locks. -/
theorem relock_cases (t : TaskId) (old new : List LockName) (n : LockName) (q : List TaskId) :
    n ∈ new ∧ n ∈ old ∧ NotebookKernels.relock t old new n q = q ∨
    n ∈ new ∧ n ∉ old ∧ NotebookKernels.relock t old new n q = q ++ [t] ∨
    n ∉ new ∧ n ∈ old ∧ NotebookKernels.relock t old new n q = q.tail ∨
    n ∉ new ∧ n ∉ old ∧ NotebookKernels.relock t old new n q = q := by
  unfold NotebookKernels.relock
  by_cases hn : n ∈ new <;> by_cases ho : n ∈ old <;> simp [hn, ho]

theorem head_append_of_head {q : List TaskId} (h : q.head? = some u) :
    (q ++ [t]).head? = some u := by
  cases q with
  | nil => cases h
  | cons a r => exact h

theorem eq_cons_of_head {q : List TaskId} (h : q.head? = some u) : q = u :: q.tail := by
  cases q with
  | nil => cases h
  | cons a r => exact congrArg (· :: r) (Option.some.inj h)

theorem mem_relock_self {old new : List LockName} {q : List TaskId} (nodup : q.Nodup)
    (mem : t ∈ q ↔ n ∈ old) (held : n ∈ old → n ∉ new → q.head? = some t) :
    t ∈ NotebookKernels.relock t old new n q ↔ n ∈ new := by
  obtain ⟨hnew, hold, e⟩ | ⟨hnew, hold, e⟩ | ⟨hnew, hold, e⟩ | ⟨hnew, hold, e⟩ :=
    relock_cases t old new n q
  · simp [e, mem, hnew, hold]
  · simp [e, hnew]
  · have hq := eq_cons_of_head (held hold hnew)
    have hnot : t ∉ q.tail := (List.nodup_cons.mp (hq ▸ nodup)).1
    simp [e, hnot, hnew]
  · simp [e, mem, hnew, hold]

theorem mem_relock_of_ne {old new : List LockName} {q : List TaskId} (hu : u ≠ t)
    (held : n ∈ old → n ∉ new → q.head? = some t) :
    u ∈ NotebookKernels.relock t old new n q ↔ u ∈ q := by
  rcases relock_cases t old new n q with ⟨-, -, e⟩ | ⟨-, -, e⟩ | ⟨hnew, hold, e⟩ | ⟨-, -, e⟩
  · rw [e]
  · simp [e, hu]
  · have hq := eq_cons_of_head (held hold hnew)
    calc u ∈ NotebookKernels.relock t old new n q ↔ u ∈ q.tail := by rw [e]
      _ ↔ u ∈ t :: q.tail := by simp [hu]
      _ ↔ u ∈ q := by rw [← hq]
  · rw [e]

/-- One task goes on to other locks. It was the first in the queues that it leaves and in those whose
lock it holds now; the locks that it newly asks for it waits for, or nobody else asked for them. -/
theorem relock (h : Orderly queue locks awaits) {new : List LockName} {aw : Option LockName}
    (moved : ∀ n, queue' n = NotebookKernels.relock t (locks t) new n (queue n))
    (single : new.Nodup) (asked : ∀ n ∈ new, n ∉ locks t → aw = some n ∨ queue n = [])
    (held : ∀ n ∈ locks t, n ∉ new ∨ aw ≠ some n → (queue n).head? = some t) :
    Orderly queue' (update locks t new) (update awaits t aw) where
  nodup n := by
    have hq := h.nodup n
    rw [moved n]
    obtain ⟨-, -, e⟩ | ⟨-, hold, e⟩ | ⟨-, -, e⟩ | ⟨-, -, e⟩ := relock_cases t (locks t) new n (queue n)
    · rwa [e]
    · rw [e]
      refine List.nodup_append.mpr ⟨hq, by simp, ?_⟩
      intro u hu v hv huv
      obtain rfl := List.mem_singleton.mp hv
      exact hold ((h.mem _ n).mp (huv ▸ hu))
    · rw [e]
      exact hq.sublist (List.tail_sublist _)
    · rwa [e]
  mem u n := by
    have left : n ∈ locks t → n ∉ new → (queue n).head? = some t := fun ho hn => held n ho (.inl hn)
    rw [moved n]
    by_cases hu : u = t
    · subst hu
      rw [Function.update_self]
      exact mem_relock_self (h.nodup n) (h.mem u n) left
    · rw [Function.update_of_ne hu, ← h.mem u n]
      exact mem_relock_of_ne hu left
  single u := by
    by_cases hu : u = t
    · subst hu
      simpa using single
    · simpa [Function.update_of_ne hu] using h.single u
  first u n hn ha := by
    rw [moved n]
    by_cases hu : u = t
    · subst hu
      rw [Function.update_self] at hn ha
      obtain ⟨-, hold, e⟩ | ⟨-, hold, e⟩ | ⟨hnew, -⟩ | ⟨hnew, -⟩ :=
        relock_cases u (locks u) new n (queue n)
      · rw [e]
        exact held n hold (.inr ha)
      · rw [e, (asked n hn hold).resolve_left ha]
        rfl
      · exact absurd hn hnew
      · exact absurd hn hnew
    · rw [Function.update_of_ne hu] at hn ha
      have hfirst := h.first u n hn ha
      obtain ⟨-, -, e⟩ | ⟨-, -, e⟩ | ⟨hnew, hold, e⟩ | ⟨-, -, e⟩ :=
        relock_cases t (locks t) new n (queue n)
      · rwa [e]
      · rw [e]
        exact head_append_of_head hfirst
      · -- only the first of a queue leaves it
        exact absurd (Option.some.inj (hfirst.symm.trans (held n hold (.inl hnew)))) hu
      · rwa [e]

end Orderly

/-! ## Scenes -/

namespace Scene

variable {l : Label} {t u : TaskId} {c c' : Scene}

/-- Where a task stands in an operation of the pool. -/
def stage? (c : Scene) (t : TaskId) : Option Stage := (c.act t).bind Activity.stage?

/-- The locks that a task asked for and has not given up. -/
def locks (c : Scene) (t : TaskId) : List LockName :=
  (c.stage? t).elim [] Stage.locks ++ (c.slot t).elim [] fun i => [.slot i]

/-- The lock that a task may still wait for. -/
def awaits (c : Scene) (t : TaskId) : Option LockName := (c.stage? t).bind Stage.awaits

/-- The entry that a task has launched and not inserted yet. -/
def newborn? (c : Scene) (t : TaskId) : Option Nat := (c.stage? t).bind Stage.newborn?

/-- The queues agree with what the tasks asked for, and the entries that the tasks name are there. -/
structure Sound (c : Scene) : Prop where
  fresh : c.Fresh
  /-- A task inside the pool has no slot yet. -/
  bare : ∀ t s, c.stage? t = some s → c.slot t = none
  orderly : Orderly c.pool.queue c.locks c.awaits
  there : ∀ i ∈ c.pool.tracked, c.pool.Has i
  young : ∀ t i, c.newborn? t = some i → i ∉ c.pool.tracked
  doomed : ∀ t i, c.stage? t = some (.reap i) → c.pool.Has i

theorem update_fresh {α : Type} {f : TaskId → Option α} {a : Option α} {n : TaskId} (ht : t < n)
    (h : ∀ u, n ≤ u → f u = none) (hu : n ≤ u) : update f t a u = none := by
  have hne : u ≠ t := Nat.ne_of_gt (Nat.lt_of_lt_of_le ht hu)
  rw [Function.update_of_ne hne]
  exact h u hu

/-- The task's next activity may be any, if its reply is owed. -/
theorem owed_update {a : Option Activity} (owed : ∀ u b, c.act u = some b → c.reply u = none)
    (h : a = none ∨ c.reply t = none) : ∀ u b, update c.act t a u = some b → c.reply u = none := by
  intro u b hu
  by_cases hut : u = t
  · rw [hut, Function.update_self] at hu
    rcases h with rfl | h
    · cases hu
    · rwa [hut]
  · exact owed u b ((Function.update_of_ne hut _ _).symm.trans hu)

/-- Turns of a task that has begun leave the others fresh. -/
theorem Fresh.turn (h : c.Fresh) (ht : t < c.next) (turn : Turn l t c c') : c'.Fresh := by
  have slots : ∀ (m : Move) u, c.next ≤ u →
      (m.slot?.elim c.slot fun i => update c.slot t (some i)) u = none := by
    intro m u hu
    cases m.slot? with
    | none => exact h.slot u hu
    | some i => exact update_fresh ht h.slot hu
  cases turn with
  | rise a was =>
    exact ⟨fun u => update_fresh ht h.act, h.slot, h.reply, owed_update h.owed (.inl rfl)⟩
  | carry a risen outside holds owed =>
    exact ⟨fun u => update_fresh ht h.act, h.slot, h.reply, owed_update h.owed (.inr owed)⟩
  | shift a b was =>
    exact ⟨fun u => update_fresh ht h.act, h.slot, h.reply,
      owed_update h.owed (.inr (h.owed t a was))⟩
  | count => exact ⟨h.act, h.slot, h.reply, h.owed⟩
  | drop u i ended holds =>
    refine ⟨h.act, fun v hv => ?_, h.reply, h.owed⟩
    by_cases hu : v = u
    · exact hu ▸ Function.update_self ..
    · exact (Function.update_of_ne hu _ _).trans (h.slot v hv)
  | reply r risen =>
    refine ⟨h.act, h.slot, fun u => update_fresh ht h.reply, fun u a hu => ?_⟩
    have hne : u ≠ t := by
      rintro rfl
      exact absurd (risen.symm.trans hu) (by simp)
    exact (Function.update_of_ne hne _ _).trans (h.owed u a hu)
  | advance w s p m was =>
    exact ⟨fun u => update_fresh ht h.act, slots m, h.reply,
      owed_update h.owed (.inr (h.owed t _ was))⟩
  | begin w call p dead m may risen free step owed =>
    exact ⟨fun u => update_fresh ht h.act, slots m, h.reply, owed_update h.owed (.inr owed)⟩
  | reap i =>
    refine ⟨fun u hu => ?_, fun u hu => h.slot u (Nat.le_of_succ_le hu), fun u hu =>
      h.reply u (Nat.le_of_succ_le hu), owed_update h.owed (.inr (h.reply _ (Nat.le_refl _)))⟩
    exact update_fresh (Nat.lt_succ_self _) (fun v hv => h.act v (Nat.le_of_succ_le hv)) hu

theorem Fresh.lt_of_act {a : Activity} (h : c.Fresh) (ha : c.act t = some a) : t < c.next := by
  apply Nat.lt_of_not_le
  intro ht
  exact absurd ((h.act t ht).symm.trans ha) (by simp)

theorem update_eq_self {α : Type} {f : TaskId → α} {a : α} (h : f t = a) : update f t a = f :=
  Function.update_eq_self_iff.mpr h.symm

theorem locks_of_update {s : Option Stage} {o : Option Nat} (hs : c'.stage? = update c.stage? t s)
    (ho : c'.slot = update c.slot t o) :
    c'.locks = update c.locks t (s.elim [] Stage.locks ++ o.elim [] fun i => [.slot i]) := by
  funext u
  by_cases hu : u = t
  · subst hu
    simp [locks, hs, ho]
  · simp [locks, hs, ho, Function.update_of_ne hu]

theorem awaits_of_update {s : Option Stage} (hs : c'.stage? = update c.stage? t s) :
    c'.awaits = update c.awaits t (s.bind Stage.awaits) := by
  funext u
  by_cases hu : u = t
  · subst hu
    simp [awaits, hs]
  · simp [awaits, hs, Function.update_of_ne hu]

theorem stage?_setAct (c : Scene) (t : TaskId) (a : Option Activity) :
    (c.setAct t a).stage? = update c.stage? t (a.bind Activity.stage?) := by
  funext u
  by_cases hu : u = t
  · subst hu
    simp [stage?, setAct]
  · simp [stage?, setAct, Function.update_of_ne hu]

theorem stage?_goOn (c : Scene) (t : TaskId) (w : Work) (p : Pool) (m : Move) :
    (c.goOn t w p m).stage? = update c.stage? t m.stage? := by
  have h := stage?_setAct c t (m.stage?.map (.pool w))
  cases m <;> exact h

theorem stage?_spawn (c : Scene) (i : Nat) :
    (c.spawn i).stage? = update c.stage? c.next (some (.reap i)) :=
  stage?_setAct c c.next (some (.pool .operation (.reap i)))

theorem slot_goOn (free : c.slot t = none) (w : Work) (p : Pool) (m : Move) :
    (c.goOn t w p m).slot = update c.slot t m.slot? := by
  simp only [goOn]
  cases m.slot? with
  | none => exact (update_eq_self free).symm
  | some i => rfl

/-! ## Soundness is kept -/

namespace Sound

/-- A change that nobody asked for locks in. -/
theorem congr (h : c.Sound) (fresh : c'.Fresh) (hs : c'.stage? = c.stage?) (ho : c'.slot = c.slot)
    (queue : ∀ n, c'.pool.queue n = c.pool.queue n) (tracked : c'.pool.tracked = c.pool.tracked)
    (has : ∀ i, c'.pool.Has i ↔ c.pool.Has i) : c'.Sound := by
  have hl : c'.locks = c.locks := by funext u; simp only [locks, hs, ho]
  have ha : c'.awaits = c.awaits := by funext u; simp only [awaits, hs]
  have hq : c'.pool.queue = c.pool.queue := funext queue
  refine ⟨fresh, ?_, ?_, ?_, ?_, ?_⟩
  · rw [hs, ho]
    exact h.bare
  · rw [hq, hl, ha]
    exact h.orderly
  · intro i hi
    exact (has i).mpr (h.there i (tracked ▸ hi))
  · intro u i hu
    rw [tracked]
    exact h.young u i (by rwa [newborn?, hs] at hu)
  · intro u i hu
    exact (has i).mpr (h.doomed u i (by rwa [hs] at hu))

theorem stage_of_act {w : Work} {s : Stage} (was : c.act t = some (.pool w s)) :
    c.stage? t = some s := by
  simp [stage?, was, Activity.stage?]

theorem locks_of_stage (h : c.Sound) {s : Stage} (hs : c.stage? t = some s) :
    c.locks t = s.locks := by
  simp [locks, hs, h.bare t s hs]

/-- A task has the locks that it asked for, but for the one that it waits for. -/
theorem holds (h : c.Sound) {s : Stage} {n : LockName} (hs : c.stage? t = some s) (hn : n ∈ s.locks)
    (ha : s.awaits ≠ some n) : (c.pool.queue n).head? = some t := by
  refine h.orderly.first t n (h.locks_of_stage hs ▸ hn) ?_
  simpa [awaits, hs] using ha

theorem ready (h : c.Sound) {s : Stage} (hs : c.stage? t = some s) : c.pool.Ready s where
  single := h.locks_of_stage hs ▸ h.orderly.single t
  young i hi := h.young t i (by simpa [newborn?, hs] using hi)
  there := h.there
  doomed i hi := h.doomed t i (hs.trans (congrArg some hi))

/-- A slot is a lock that its task holds. -/
theorem holds_slot {i : Nat} (h : c.Sound) (ht : c.slot t = some i) :
    .slot i ∈ c.locks t ∧ c.awaits t ≠ some (.slot i) := by
  have hnone : c.stage? t = none := by
    cases hs : c.stage? t with
    | none => rfl
    | some s => exact absurd ((h.bare t s hs).symm.trans ht) (by simp)
  exact ⟨by simp [locks, hnone, ht], by simp [awaits, hnone]⟩

/-- There is one slot for each kernel. -/
theorem slot_inj {i : Nat} (h : c.Sound) (ht : c.slot t = some i) (hu : c.slot u = some i) : t = u := by
  have wt := h.holds_slot ht
  have wu := h.holds_slot hu
  exact h.orderly.exclusive wt.1 wu.1 wt.2 wu.2

/-- The entry of a slot is there. -/
theorem has_of_slot {i : Nat} (h : c.Sound) (ht : c.slot t = some i) : c.pool.Has i :=
  Pool.has_of_mem_slot ((h.orderly.mem t (.slot i)).mpr (h.holds_slot ht).1)

/-- A task holds the worker of the entry that it is to insert. -/
theorem newborn_worker (h : c.Sound) {i : Nat} (ht : c.newborn? t = some i) :
    .worker i ∈ c.locks t ∧ c.awaits t ≠ some (.worker i) := by
  obtain ⟨s, hs, hn⟩ := Option.bind_eq_some_iff.mp ht
  have hw := Stage.worker_of_newborn hn (h.ready hs).single
  exact ⟨h.locks_of_stage hs ▸ hw.1, by simpa [awaits, hs] using hw.2⟩

/-- Two tasks are not to insert the same entry. -/
theorem newborn_inj (h : c.Sound) {i : Nat} (ht : c.newborn? t = some i) (hu : c.newborn? u = some i) :
    t = u := by
  have wt := h.newborn_worker ht
  have wu := h.newborn_worker hu
  exact h.orderly.exclusive wt.1 wu.1 wt.2 wu.2

theorem newborn?_goOn {w : Work} {p : Pool} {m : Move} {i : Nat} (hu : u ≠ t) :
    (c.goOn t w p m).newborn? u = some i ↔ c.newborn? u = some i := by
  rw [newborn?, stage?_goOn, Function.update_of_ne hu, newborn?]

theorem bare_goOn (h : c.Sound) (free : c.slot t = none) {w : Work} {p : Pool} {m : Move}
    {st : Stage} (hu : (c.goOn t w p m).stage? u = some st) : (c.goOn t w p m).slot u = none := by
  rw [stage?_goOn] at hu
  rw [slot_goOn free]
  by_cases hut : u = t
  · subst hut
    rw [Function.update_self] at hu ⊢
    cases m with
    | wait => rfl
    | finish => cases hu
  · rw [Function.update_of_ne hut] at hu ⊢
    exact h.bare u st hu

theorem doomed_goOn (h : c.Sound) {w : Work} {p : Pool} {m : Move} {i : Nat}
    (hm : m ≠ .wait (.reap i)) (hu : (c.goOn t w p m).stage? u = some (.reap i)) :
    c.pool.Has i := by
  rw [stage?_goOn] at hu
  by_cases hut : u = t
  · rw [hut, Function.update_self] at hu
    cases m with
    | wait st => exact absurd (congrArg Move.wait (Option.some.inj hu)) hm
    | finish => cases hu
  · rw [Function.update_of_ne hut] at hu
    exact h.doomed u i hu

theorem advance {w : Work} {s : Stage} {p : Pool} {m : Move} (h : c.Sound)
    (fresh : (c.goOn t w p m).Fresh) (was : c.act t = some (.pool w s))
    (step : Pool.Advance t c.pool s p m) : (c.goOn t w p m).Sound := by
  have hs := stage_of_act was
  have hr := h.ready hs
  have hl := h.locks_of_stage hs
  have hstage := stage?_goOn c t w p m
  have hslot := slot_goOn (h.bare t s hs) w p m
  have there : ∀ i ∈ p.tracked, p.Has i := by
    intro i hi
    apply step.has_iff.mpr
    rcases step.inserted hi with hi | ⟨hn, -⟩
    · exact h.there i hi
    · have hw := (Stage.worker_of_newborn hn hr.single).1
      exact Pool.has_of_mem_worker ((h.orderly.mem t _).mpr (hl ▸ hw))
  refine ⟨fresh, fun u st => h.bare_goOn (h.bare t s hs), ?_, there, ?_, fun u i hu =>
    step.has_iff.mpr (h.doomed_goOn step.ne_reap hu)⟩
  · rw [locks_of_update hstage hslot, awaits_of_update hstage, ← Move.locks_eq]
    refine h.orderly.relock ?_ (step.single hr) ?_ ?_
    · intro n
      rw [hl]
      exact step.queues hr n
    · intro n hn ho
      exact .inl (step.asked hn (hl ▸ ho))
    · intro n hn _
      -- whoever takes a step waits for nothing
      by_cases ha : s.awaits = some n
      · exact step.granted ha
      · exact h.orderly.first t n hn (by simpa [awaits, hs] using ha)
  · intro u i hu hi
    rcases step.inserted hi with hold | ⟨hn, hm⟩
    · by_cases hut : u = t
      · subst hut
        rw [newborn?, hstage, Function.update_self] at hu
        exact hr.young i (step.unborn hu) hold
      · exact h.young u i ((newborn?_goOn hut).mp hu) hold
    · by_cases hut : u = t
      · subst hut hm
        rw [newborn?, hstage, Function.update_self] at hu
        cases hu
      · have ht : c.newborn? t = some i := by simp [newborn?, hs, hn]
        exact hut (h.newborn_inj ((newborn?_goOn hut).mp hu) ht)

theorem begin {w : Work} {call : PoolCall} {p : Pool} {dead : List Nat} {m : Move} (h : c.Sound)
    (fresh : (c.goOn t w p m).Fresh) (risen : c.act t = none) (free : c.slot t = none)
    (step : Pool.Opening t c.pool call p dead m) : (c.goOn t w p m).Sound := by
  have hs : c.stage? t = none := by simp [stage?, risen]
  have hl : c.locks t = [] := by simp [locks, hs, free]
  have hstage := stage?_goOn c t w p m
  have hslot := slot_goOn free w p m
  refine ⟨fresh, fun u st => h.bare_goOn free, ?_, ?_, ?_, fun u i hu =>
    step.has_mono (h.doomed_goOn step.ne_reap hu)⟩
  · rw [locks_of_update hstage hslot, awaits_of_update hstage, ← Move.locks_eq]
    refine h.orderly.relock ?_ step.single ?_ ?_
    · intro n
      rw [hl]
      exact step.queues h.there n
    · exact fun n hn _ => step.asked hn
    · intro n hn
      rw [hl] at hn
      cases hn
  · exact fun i hi => step.has_mono (h.there i (step.inserted hi))
  · intro u i hu hi
    by_cases hut : u = t
    · subst hut
      rw [newborn?, hstage, Function.update_self] at hu
      exact step.unborn hu (h.there i (step.inserted hi))
    · exact h.young u i ((newborn?_goOn hut).mp hu) (step.inserted hi)

theorem drop {i : Nat} (h : c.Sound) (fresh : (c.letGo u i).Fresh) (ended : c.act u = none)
    (holds : c.slot u = some i) : (c.letGo u i).Sound := by
  have hs : c.stage? u = none := by simp [stage?, ended]
  have hl : c.locks u = [.slot i] := by simp [locks, hs, holds]
  have hstage : (c.letGo u i).stage? = update c.stage? u none := (update_eq_self hs).symm
  refine ⟨fresh, ?_, ?_, ?_, h.young, ?_⟩
  · intro v st hv
    by_cases hvu : v = u
    · exact hvu ▸ Function.update_self ..
    · exact (Function.update_of_ne hvu _ _).trans (h.bare v st hv)
  · rw [locks_of_update hstage rfl, awaits_of_update hstage]
    refine h.orderly.relock ?_ List.nodup_nil ?_ ?_
    · intro n
      rw [hl, letGo, Pool.queue_releaseSlot, Pool.queue_touch]
      exact (Pool.relock_release List.not_mem_nil).symm
    · exact fun n hn => absurd hn List.not_mem_nil
    · intro n hn _
      exact h.orderly.first u n hn (by simp [awaits, hs])
  · exact fun j hj => Pool.has_releaseSlot.mpr ((Pool.has_touch _).mpr (h.there j hj))
  · exact fun v j hv => Pool.has_releaseSlot.mpr ((Pool.has_touch _).mpr (h.doomed v j hv))

theorem reap {i : Nat} (h : c.Sound) (fresh : (c.spawn i).Fresh) (there : c.pool.Has i) :
    (c.spawn i).Sound := by
  have hact := h.fresh.act c.next (Nat.le_refl _)
  have hslot := h.fresh.slot c.next (Nat.le_refl _)
  have hs : c.stage? c.next = none := by simp [stage?, hact]
  have hl : c.locks c.next = [] := by simp [locks, hs, hslot]
  have hstage := stage?_spawn c i
  refine ⟨fresh, ?_, ?_, h.there, ?_, ?_⟩
  · intro v st hv
    by_cases hvn : v = c.next
    · exact hvn ▸ hslot
    · rw [hstage, Function.update_of_ne hvn] at hv
      exact h.bare v st hv
  · rw [locks_of_update (o := none) hstage (update_eq_self hslot).symm, awaits_of_update hstage]
    refine h.orderly.relock ?_ List.nodup_nil ?_ ?_
    · intro n
      rw [hl]
      exact Pool.relock_self.symm
    · exact fun n hn => absurd hn List.not_mem_nil
    · intro n hn
      rw [hl] at hn
      cases hn
  · intro v j hv
    rw [newborn?, hstage] at hv
    by_cases hvn : v = c.next
    · rw [hvn, Function.update_self] at hv
      cases hv
    · rw [Function.update_of_ne hvn] at hv
      exact h.young v j hv
  · intro v j hv
    rw [hstage] at hv
    by_cases hvn : v = c.next
    · rw [hvn, Function.update_self] at hv
      obtain rfl : i = j := by simpa using hv
      exact there
    · rw [Function.update_of_ne hvn] at hv
      exact h.doomed v j hv

/-- A turn of a task that has begun keeps a scene sound. -/
theorem turn (h : c.Sound) (ht : t < c.next) (turn : Turn l t c c') : c'.Sound := by
  have fresh := h.fresh.turn ht turn
  cases turn with
  | rise a was outside =>
    refine h.congr fresh ?_ rfl (fun _ => rfl) rfl fun _ => Iff.rfl
    rw [stage?_setAct]
    exact update_eq_self (by simp [stage?, was, outside])
  | carry a risen outside =>
    refine h.congr fresh ?_ rfl (fun _ => rfl) rfl fun _ => Iff.rfl
    rw [stage?_setAct]
    exact update_eq_self (by simp [stage?, risen, outside])
  | shift a b was outside still =>
    refine h.congr fresh ?_ rfl (fun _ => rfl) rfl fun _ => Iff.rfl
    rw [stage?_setAct]
    exact update_eq_self (by simp [stage?, was, outside, still])
  | count i => exact h.congr fresh rfl rfl (fun _ => Pool.queue_touch _) rfl fun _ => Pool.has_touch _
  | reply => exact h.congr fresh rfl rfl (fun _ => rfl) rfl fun _ => Iff.rfl
  | advance w s p m was step => exact h.advance fresh was step
  | begin w call p dead m may risen free step => exact h.begin fresh risen free step
  | drop u i ended holds => exact h.drop fresh ended holds
  | reap i there => exact h.reap fresh there

end Sound

/-- Every entry's kernel has the identifier of its number. -/
def Named (c : Scene) : Prop := ∀ i, c.pool.Has i → c.pool.id? i = some (.fresh i)

theorem Named.turn (h : c.Named) (turn : Turn l t c c') : c'.Named := by
  intro j hj
  cases turn with
  | rise | carry | shift | reply | reap => exact h j hj
  | count i =>
    have hid : (c.pool.touch i fun k => { k with executionCount := k.executionCount + 1 }).id? j =
        c.pool.id? j := Pool.id?_touch fun _ => rfl
    exact hid.trans (h j ((Pool.has_touch _).mp hj))
  | drop u i =>
    have hid : (c.pool.touch i fun k =>
        if k.status = .busy then { k with status := .idle } else k).id? j = c.pool.id? j :=
      Pool.id?_touch fun k => by split <;> rfl
    have hold := h j ((Pool.has_touch _).mp (Pool.has_releaseSlot.mp hj))
    exact Pool.id?_releaseSlot.trans (hid.trans hold)
  | advance _ _ _ _ _ step => exact step.id?_eq.trans (h j (step.has_iff.mp hj))
  | begin _ _ _ _ _ _ _ _ step => exact step.named h hj

/-- A tracked kernel is found by the identifier of its number. -/
theorem Named.find? {i : Nat} (h : c.Named) (sound : c.Sound) (there : i ∈ c.pool.tracked) :
    c.pool.find? (.fresh i) = some i := by
  refine Pool.find?_of_unique there (h i (sound.there i there)) fun j hj hid => ?_
  rw [h j (sound.there j hj)] at hid
  exact KernelId.fresh_injective (Option.some.inj hid)

theorem Named.idOf {i : Nat} (h : c.Named) (has : c.pool.Has i) : c.pool.idOf i = .fresh i :=
  Option.some.inj ((Pool.id?_eq_idOf has).symm.trans (h i has))

theorem Named.of_find? {i : Nat} {id : KernelId} (h : c.Named) (sound : c.Sound)
    (found : c.pool.find? id = some i) : id = .fresh i := by
  obtain ⟨there, hid⟩ := Pool.find?_eq_some found
  exact Option.some.inj (hid.symm.trans (h i (sound.there i there)))

theorem Named.of_record? {i : Nat} {k : Kernel} (h : c.Named) (record : c.pool.record? i = some k) :
    k.id = .fresh i := by
  obtain ⟨e, he, rfl⟩ := Option.map_eq_some_iff.mp record
  have hid := h i (Pool.has_of_entry?_eq_some he)
  rw [Pool.id?, he] at hid
  exact Option.some.inj hid

theorem Turn.next_le (h : Turn l t c c') : c.next ≤ c'.next := by
  cases h with
  | reap => exact Nat.le_succ _
  | _ => exact Nat.le_refl _

/-- What the turns of a task that has begun keep, a path of such turns keeps. -/
theorem Turns.keeps {I : Scene → Prop} (h : Turns l t c c') (sound : c.Sound) (ht : t < c.next)
    (hI : I c) (turn : ∀ d d', d.Sound → t < d.next → Turn l t d d' → I d → I d') :
    c'.Sound ∧ t < c'.next ∧ I c' := by
  induction h with
  | refl => exact ⟨sound, ht, hI⟩
  | tail _ step ih =>
    obtain ⟨hs, hn, hd⟩ := ih
    exact ⟨hs.turn hn step, Nat.lt_of_lt_of_le hn step.next_le, turn _ _ hs hn step hd⟩

end Scene

/-! ## Steps and runs -/

/-- Two pools with the same locks and the same kernels; what their workers say and send may differ. -/
structure Pool.Alike (p q : Pool) : Prop where
  queue : ∀ n, q.queue n = p.queue n
  tracked : q.tracked = p.tracked
  has : ∀ i, q.Has i ↔ p.Has i
  status : ∀ i, q.status? i = p.status? i
  id : ∀ i, q.id? i = p.id? i
  config : q.config = p.config

namespace Pool.Alike

theorem refl (p : Pool) : Alike p p :=
  ⟨fun _ => rfl, rfl, fun _ => Iff.rfl, fun _ => rfl, fun _ => rfl, rfl⟩

theorem modify (p : Pool) (i : Nat) {f : Entry → Entry} (record : ∀ e, (f e).record = e.record)
    (worker : ∀ e, (f e).workerLock = e.workerLock) (slot : ∀ e, (f e).slotLock = e.slotLock) :
    Alike p (p.modify i f) where
  queue := queue_modify worker slot
  tracked := rfl
  has _ := has_modify
  status _ := status?_modify fun e => by rw [record]
  id _ := id?_modify fun e => by rw [record]
  config := rfl

end Pool.Alike

theorem Scene.Named.alike {c c' : Scene} (h : c.Named) (alike : c.pool.Alike c'.pool) : c'.Named := by
  intro i hi
  exact (alike.id i).trans (h i ((alike.has i).mp hi))

namespace Services

open Scene

variable {s s' : Services} {l : Label} {ls : List Label}

theorem stage_of_scene {t : TaskId} {st : Stage} (h : s.scene.stage? t = some st) :
    ∃ w, s.tasks.get? t = some (.pool w st) := by
  obtain ⟨a, ha, hst⟩ := Option.bind_eq_some_iff.mp h
  cases a with
  | pool w st' =>
    obtain rfl := Option.some.inj hst
    exact ⟨w, ha⟩
  | submitting | querying | receiving | pausing => cases hst

/-- What a step does from outside changes no lock and no kernel. -/
theorem alike_stir (s : Services) (l : Label) : s.pool.Alike (s.stir l).pool := by
  cases l with
  | resume t =>
    simp only [stir]
    split
    · exact .modify _ _ (fun _ => rfl) (fun _ => rfl) fun _ => rfl
    · exact .refl _
  | alive | deliver | renew => exact .modify _ _ (fun _ => rfl) (fun _ => rfl) fun _ => rfl
  | pass n =>
    refine ⟨fun m => ?_, rfl, fun _ => Iff.rfl, fun _ => rfl, fun _ => rfl, rfl⟩
    cases m <;> rfl
  | call | answer | submitted | replied | expire => exact .refl _

/-- What a step does from outside changes the pool and the next task only. -/
theorem scene_stir (s : Services) (l : Label) :
    (s.stir l).scene = { s.scene with pool := (s.stir l).pool, next := (s.stir l).nextTask } := by
  cases l with
  | resume t =>
    simp only [stir]
    split <;> rfl
  | _ => rfl

theorem nextTask_le_stir (s : Services) (l : Label) : s.nextTask ≤ (s.stir l).nextTask := by
  cases l with
  | call => exact Nat.le_succ _
  | resume t =>
    simp only [stir]
    split <;> exact Nat.le_refl _
  | _ => exact Nat.le_refl _

theorem sound_stir (h : s.scene.Sound) (l : Label) : (s.stir l).scene.Sound := by
  have ha := alike_stir s l
  have hn := nextTask_le_stir s l
  rw [scene_stir]
  refine h.congr ⟨?_, ?_, ?_, h.fresh.owed⟩ rfl rfl ha.queue ha.tracked ha.has
  · exact fun t ht => h.fresh.act t (Nat.le_trans hn ht)
  · exact fun t ht => h.fresh.slot t (Nat.le_trans hn ht)
  · exact fun t ht => h.fresh.reply t (Nat.le_trans hn ht)

/-- A step is made for a task that has begun, or it comes from outside. -/
theorem actor_lt (h : s.scene.Fresh) (step : s.step l = some s') :
    s.actor l < (s.stir l).nextTask ∨ s' = s.stir l := by
  have key : ∀ t f, (s.tasks.get? t).bind f = some s' → t < s.nextTask := by
    intro t f hf
    obtain ⟨a, ha, -⟩ := Option.bind_eq_some_iff.mp hf
    exact h.lt_of_act ha
  have hn := nextTask_le_stir s l
  cases l with
  | call => exact .inl (Nat.lt_succ_self _)
  | resume | answer | submitted | replied | expire =>
    exact .inl (Nat.lt_of_lt_of_le (key _ _ step) hn)
  | alive | deliver | renew | pass => exact .inr (Option.some.inj step).symm

/-- What the turns of a step keep, the step keeps. -/
theorem step_keeps {I : Scene → Prop} (h : s.scene.Sound) (step : s.step l = some s')
    (stirred : I (s.stir l).scene)
    (turn : ∀ c c', c.Sound → s.actor l < c.next → Turn l (s.actor l) c c' → I c → I c') :
    s'.scene.Sound ∧ I s'.scene := by
  have sound := sound_stir h l
  rcases actor_lt h.fresh step with hlt | rfl
  · have hturns := turns_of_step h.fresh step
    have hkeep := hturns.keeps sound hlt stirred turn
    exact ⟨hkeep.1, hkeep.2.2⟩
  · exact ⟨sound, stirred⟩

theorem sound_step (h : s.scene.Sound) (step : s.step l = some s') : s'.scene.Sound :=
  (step_keeps (I := fun _ => True) h step trivial fun _ _ _ _ _ _ => trivial).1

/-- No step takes an entry away. -/
theorem has_step {i : Nat} (sound : s.scene.Sound) (has : s.pool.Has i) (step : s.step l = some s') :
    s'.pool.Has i :=
  (step_keeps (I := fun c => c.pool.Has i) sound step (((alike_stir s l).has i).mpr has)
    fun _ _ _ _ turn => turn.has_mono).2

theorem sound_init (config : Config) (catalog : Catalog) : (init config catalog).scene.Sound where
  fresh := ⟨fun _ _ => rfl, fun _ _ => rfl, fun _ _ => rfl, fun _ _ h => by cases h⟩
  bare _ _ h := by cases h
  orderly := by
    have hq : (init config catalog).scene.pool.queue = fun _ => [] := by
      funext n
      cases n <;> rfl
    rw [hq]
    exact .empty
  there _ h := by cases h
  young _ _ h := by cases h
  doomed _ _ h := by cases h

/-- The services after these steps. -/
def run (s : Services) : List Label → Option Services
  | [] => some s
  | l :: ls => (s.step l).bind (·.run ls)

theorem run_append (s : Services) (ls ks : List Label) :
    s.run (ls ++ ks) = (s.run ls).bind (·.run ks) := by
  induction ls generalizing s with
  | nil => rfl
  | cons l ls ih =>
    simp only [List.cons_append, run]
    cases s.step l with
    | none => rfl
    | some s' => exact ih s'

/-- What the steps with permitted labels keep, a run of such steps keeps. -/
theorem run_keeps {I : Services → Prop} {P : Label → Prop}
    (step : ∀ s l s', P l → I s → s.step l = some s' → I s') (permitted : ∀ l ∈ ls, P l) (h : I s)
    (run : s.run ls = some s') : I s' := by
  induction ls generalizing s with
  | nil => exact Option.some.inj run ▸ h
  | cons l ls ih =>
    obtain ⟨s₁, hs₁, hrun⟩ := Option.bind_eq_some_iff.mp run
    have hl := permitted l (List.mem_cons_self ..)
    exact ih (fun k hk => permitted k (List.mem_cons_of_mem _ hk)) (step s l s₁ hl h hs₁) hrun

theorem sound_run (h : s.scene.Sound) (run : s.run ls = some s') : s'.scene.Sound :=
  run_keeps (I := fun s => s.scene.Sound) (P := fun _ => True) (fun _ _ _ _ => sound_step)
    (fun _ _ => trivial) h run

/-- What the permitted steps keep from outside and in each of their turns, a run of them keeps. -/
theorem scene_run {I : Scene → Prop} {P : Label → Prop}
    (stirred : ∀ (s : Services) l, I s.scene → I (s.stir l).scene)
    (turn : ∀ l t c c', P l → c.Sound → Turn l t c c' → I c → I c') (permitted : ∀ l ∈ ls, P l)
    (sound : s.scene.Sound) (h : I s.scene) (run : s.run ls = some s') :
    s'.scene.Sound ∧ I s'.scene := by
  refine run_keeps (I := fun s => s.scene.Sound ∧ I s.scene) ?_ permitted ⟨sound, h⟩ run
  intro s l s' hl h step
  apply step_keeps h.1 step (stirred s l h.2)
  intro c c' sound _ hturn hc
  exact turn l _ c c' hl sound hturn hc

/-- Callers who never set a status do not do so in any step. -/
theorem quiet_of_not_mem (quiet : ∀ id status, .call (.pool (.updateStatus id status)) ∉ ls) :
    ∀ l ∈ ls, ∀ id status, l ≠ .call (.pool (.updateStatus id status)) := by
  rintro l hl id status rfl
  exact quiet id status hl

theorem named_step (named : s.scene.Named) (sound : s.scene.Sound) (step : s.step l = some s') :
    s'.scene.Named := by
  have stirred : (s.stir l).scene.Named := named.alike (alike_stir s l)
  exact (step_keeps sound step stirred fun _ _ _ _ turn h => h.turn turn).2

theorem named_run {config : Config} {catalog : Catalog} (run : (init config catalog).run ls = some s) :
    s.scene.Named := by
  have hinit : (init config catalog).scene.Named := fun i hi => absurd hi (Nat.not_lt_zero i)
  have hkeep := scene_run (P := fun _ => True) (fun s l h => h.alike (alike_stir s l))
    (fun _ _ _ _ _ _ turn h => h.turn turn) (fun _ _ => trivial) (sound_init config catalog) hinit run
  exact hkeep.2

end Services
end NotebookKernels
