import Mathlib.Data.Prod.Lex
import NotebookKernels.Proofs.Service.Membership

/- Who waits for whom, and why never in a circle.

   `Scene.WaitsFor` is the waits-for relation of the tasks over all locks of the pool. Which locks a
   task has while it waits for another follows from where it stands:
     1. whoever has a worker that others can ask for waits for no lock. A task that creates a kernel
        has the new worker while it asks for the pool's lock, but it is alone with it: a worker is only
        asked for once its entry was tracked (`sought_run`);
     2. whoever has the pool's lock waits for a worker, or for nothing;
     3. whoever has a slot waits for the pool's lock or for a worker, or for nothing, if no caller
        queues for a second slot.
   So a lock has a depth, and waiting leads down, or forward in one queue (`rank_lt_of_waitsFor`). -/
namespace NotebookKernels

open Function (update)

namespace LockName

/-- Whoever has a lock waits at most for locks of smaller depth. -/
def depth : LockName → Nat
  | .worker _ => 1
  | .pool => 2
  | .slot _ => 4

end LockName

namespace Stage

variable {s : Stage} {n : LockName} {i : Nat}

/-- The entry whose worker the task waits for, or is about to ask for. -/
def seeks? : Stage → Option Nat
  | .closing _ i _ _ | .interruptLock i | .restartLock i | .acquireLock i | .reap i | .reapLock i =>
    some i
  | _ => none

theorem seeks?_of_awaits (h : s.awaits = some (.worker i)) : s.seeks? = some i := by
  cases s with
  | closing | interruptLock | restartLock | acquireLock | reapLock =>
    obtain rfl : _ = i := by simpa [awaits] using h
    rfl
  | _ => simp [awaits] at h

theorem mem_locks_of_awaits (h : s.awaits = some n) : n ∈ s.locks := by
  cases s with
  | «structure» | closing | interruptLock | restartLock | acquireLock | acquireSlot | reapLock =>
    obtain rfl := Option.some.inj h
    exact List.mem_cons_self ..
  | _ => cases h

/-- Whoever has a worker waits for no other lock, unless it is to insert the worker's entry. -/
theorem awaits_of_worker (h : .worker i ∈ s.locks) (grown : s.newborn? ≠ some i) :
    s.awaits = none ∨ s.awaits = some (.worker i) := by
  have elsewhere : ∀ {e : Errand}, e.newborn? ≠ some i → .worker i ∉ LockName.pool :: e.own :=
    fun he => Errand.worker_not_mem he
  cases s with
  | «structure» e | sweep e => exact absurd h (elsewhere grown)
  | closing e j =>
    rcases List.mem_cons.mp h with hj | h
    · exact .inr (congrArg some hj.symm)
    · exact absurd h (elsewhere grown)
  | interruptLock j | restartLock j | acquireLock j | reapLock j =>
    exact .inr (congrArg some (List.mem_singleton.mp h).symm)
  | acquireSlot j => simp [locks] at h
  | _ => exact .inl rfl

/-- Whoever has the pool's lock or waits for it waits for no slot. -/
theorem awaits_of_pool (h : .pool ∈ s.locks) :
    s.awaits = none ∨ s.awaits = some .pool ∨ ∃ i, s.awaits = some (.worker i) := by
  cases s with
  | «structure» => exact .inr (.inl rfl)
  | closing e i => exact .inr (.inr ⟨i, rfl⟩)
  | interruptLock | restartLock | acquireLock | reapLock | acquireSlot => simp [locks] at h
  | _ => exact .inl rfl

/-- Inside the pool a slot is waited for, and not kept. -/
theorem awaits_of_slot (h : .slot i ∈ s.locks) : s = .acquireSlot i := by
  cases s with
  | acquireSlot j =>
    obtain rfl : i = j := by simpa [locks] using h
    rfl
  | «structure» | sweep | closing | stopping => simp [locks] at h
  | _ => simp [locks] at h

end Stage

namespace Pool

variable {p p' : Pool} {t : TaskId} {s s' : Stage} {c : PoolCall} {dead : List Nat} {n : LockName}
  {i : Nat}

/-- A worker is asked for when its entry is tracked, or by whoever was about to ask. -/
theorem Advance.seeks (h : Advance t p s p' (.wait s')) (hs : s'.seeks? = some i) :
    i ∈ p.tracked ∨ s.seeks? = some i := by
  cases h with
  | close e j todo found may there =>
    obtain rfl := Option.some.inj hs
    exact .inl there
  | evict j ticket v found full victim =>
    obtain rfl := Option.some.inj hs
    exact .inl (mem_tracked_of_evictee? victim)
  | reap j => exact .inr hs
  | _ => cases hs

theorem Opening.seeks (h : Opening t p c p' dead (.wait s')) (hs : s'.seeks? = some i) :
    i ∈ p.tracked := by
  cases h with
  | interrupt id j found | restart id j found | acquire id j found =>
    obtain rfl := Option.some.inj hs
    exact (find?_eq_some found).1
  | create | errand => cases hs

/-- A task that has the lock it asked for can go on. -/
theorem step_of_head (h : s.awaits = some n) (head : (p.queue n).head? = some t) :
    (p.step t s).isSome = true := by
  cases s with
  | «structure» e =>
    obtain rfl := Option.some.inj h
    have held : p.structureLock.heldBy t = true := decide_eq_true head
    simp [step, held]
  | closing | interruptLock | restartLock | acquireLock | reapLock =>
    obtain rfl := Option.some.inj h
    simp [step, holdsWorker_of_head head]
  | acquireSlot j =>
    obtain rfl := Option.some.inj h
    simp only [step, holdsSlot_of_head head, if_true]
    split <;> rfl
  | _ => cases h

end Pool

namespace Scene

variable {c : Scene} {γ : Type} {caller : TaskId → γ} {t u : TaskId} {n : LockName} {i : Nat}

/-- Nobody is to insert an entry any more whose worker somebody waits for or is about to ask for. -/
def Sought (c : Scene) : Prop := ∀ t st i, c.stage? t = some st → st.seeks? = some i → c.Grown i

/-- One task cannot go on before another does. Every task belongs to the caller who made the call; a
slot that was granted belongs to the caller who has it now. -/
inductive WaitsFor (c : Scene) (caller : TaskId → γ) (t u : TaskId) : Prop
  /-- It asked for a lock that the other has, or asked for before it. -/
  | lock (n : LockName) (asked : c.awaits t = some n) (before : [u, t].Sublist (c.pool.queue n))
  /-- It has ended with a slot, and the caller who has the slot is in the other call. -/
  | caller (i : Nat) (slot : c.slot t = some i) (ended : c.act t = none) (busy : c.act u ≠ none)
      (same : caller t = caller u)

/-- The depth of the lock that the task waits for; a slot in the hands of a caller stands above all
that its caller may wait for. -/
def depth (c : Scene) (t : TaskId) : Nat :=
  match c.awaits t with
  | some n => n.depth
  | none => if (c.slot t).isSome && (c.act t).isNone then 3 else 0

/-- How many tasks come before the task in the queue of the lock that it waits for. -/
def place (c : Scene) (t : TaskId) : Nat := (c.awaits t).elim 0 fun n => (c.pool.queue n).idxOf t

/-- Waiting leads to smaller ranks. -/
def rank (c : Scene) (t : TaskId) : ℕ ×ₗ ℕ := toLex (c.depth t, c.place t)

theorem depth_of_awaits (h : c.awaits t = some n) : c.depth t = n.depth := by
  simp only [depth, h]

theorem stage_of_awaits (h : c.awaits t = some n) :
    ∃ st, c.stage? t = some st ∧ st.awaits = some n := Option.bind_eq_some_iff.mp h

/-- Who comes before another in a queue has the smaller place. -/
theorem idxOf_lt_of_sublist {q : List TaskId} (nodup : q.Nodup) (h : [u, t].Sublist q) :
    q.idxOf u < q.idxOf t := by
  induction q with
  | nil => cases h
  | cons v q ih =>
    obtain ⟨hv, nodup⟩ := List.nodup_cons.mp nodup
    have other : ∀ {w}, w ∈ q → (v :: q).idxOf w = q.idxOf w + 1 := by
      intro w hw
      have hne : v ≠ w := fun e => hv (e ▸ hw)
      rw [List.idxOf_cons, beq_false_of_ne hne, cond_false]
    cases h with
    | cons _ h =>
      rw [other (h.subset (by simp)), other (h.subset (by simp))]
      exact Nat.succ_lt_succ (ih nodup h)
    | cons_cons _ h =>
      rw [List.idxOf_cons_self, other (h.subset (by simp))]
      exact Nat.succ_pos _

/-- Whoever has a lock waits for one of smaller depth, or asked for this one before. -/
theorem depth_of_lock (sound : c.Sound) (sought : c.Sought) (asked : c.awaits t = some n)
    (hu : n ∈ c.locks u) : c.depth u < n.depth ∨ c.awaits u = some n := by
  have idle : c.awaits u = none → c.slot u = none → c.depth u < n.depth := by
    intro ha ho
    have hzero : c.depth u = 0 := by simp [depth, ha, ho]
    rw [hzero]
    cases n <;> exact Nat.succ_pos _
  cases hst : c.stage? u with
  | none =>
    -- outside the pool a task has nothing but its slot
    have ha : c.awaits u = none := by simp [awaits, hst]
    simp only [locks, hst, Option.elim_none, List.nil_append] at hu
    cases ho : c.slot u with
    | none => simp [ho] at hu
    | some j =>
      obtain rfl : n = .slot j := by simpa [ho] using hu
      left
      simp only [depth, ha, LockName.depth]
      split <;> omega
  | some st =>
    have hn : n ∈ st.locks := sound.locks_of_stage hst ▸ hu
    have ho := sound.bare u st hst
    have haw : c.awaits u = st.awaits := by simp [awaits, hst]
    cases n with
    | worker i =>
      obtain ⟨st', hst', ha'⟩ := stage_of_awaits asked
      have grown := sought t st' i hst' (Stage.seeks?_of_awaits ha')
      rcases Stage.awaits_of_worker hn (grown.unborn u st hst) with ha | ha
      · exact .inl (idle (haw.trans ha) ho)
      · exact .inr (haw.trans ha)
    | pool =>
      rcases Stage.awaits_of_pool hn with ha | ha | ⟨i, ha⟩
      · exact .inl (idle (haw.trans ha) ho)
      · exact .inr (haw.trans ha)
      · left
        rw [depth_of_awaits (haw.trans ha)]
        exact Nat.lt_succ_self 1
    | slot i =>
      obtain rfl := Stage.awaits_of_slot hn
      exact .inr haw

/-- A call of a caller that queues for no slot stands below the slots of the caller. -/
theorem depth_lt_of_busy (busy : c.act u ≠ none) (single : ∀ j, c.awaits u ≠ some (.slot j)) :
    c.depth u < 3 := by
  cases ha : c.awaits u with
  | none =>
    cases hact : c.act u with
    | none => exact absurd hact busy
    | some a => simp [depth, ha, hact]
  | some n =>
    rw [depth_of_awaits ha]
    cases n with
    | worker | pool => simp [LockName.depth]
    | slot j => exact absurd ha (single j)

/-- Waiting leads down, or forward in one queue. -/
theorem rank_lt_of_waitsFor (sound : c.Sound) (sought : c.Sought)
    (single : ∀ t u i j, c.act t = none → c.slot t = some i → c.awaits u = some (.slot j) →
      caller t ≠ caller u)
    (h : c.WaitsFor caller t u) : c.rank u < c.rank t := by
  rw [rank, rank, Prod.Lex.toLex_lt_toLex]
  cases h with
  | lock n asked before =>
    have hu : u ∈ c.pool.queue n := before.subset (by simp)
    have hlocks : n ∈ c.locks u := (sound.orderly.mem u n).mp hu
    have ht := depth_of_awaits asked
    rcases depth_of_lock sound sought asked hlocks with hlt | hsame
    · left
      exact ht ▸ hlt
    · right
      refine ⟨(depth_of_awaits hsame).trans ht.symm, ?_⟩
      simp only [place, asked, hsame, Option.elim_some]
      exact idxOf_lt_of_sublist (sound.orderly.nodup n) before
  | caller i slot ended busy same =>
    left
    have hnone : c.awaits t = none := by simp [awaits, stage?, ended]
    have hdepth : c.depth t = 3 := by simp [depth, hnone, slot, ended]
    have hu : c.depth u < 3 :=
      depth_lt_of_busy busy fun j ha => single t u i j ended slot ha same
    omega

/-- A chain of waiting leads to a smaller rank. -/
theorem rank_lt_of_chain (leads : ∀ t u, c.WaitsFor caller t u → c.rank u < c.rank t)
    (h : Relation.TransGen (c.WaitsFor caller) t u) : c.rank u < c.rank t := by
  induction h with
  | single h => exact leads _ _ h
  | tail _ h ih => exact (leads _ _ h).trans ih

/-- A chain of waiting can be followed to a task that waits for nobody. -/
theorem exists_last (leads : ∀ t u, c.WaitsFor caller t u → c.rank u < c.rank t) (t : TaskId) :
    ∃ u, Relation.ReflTransGen (c.WaitsFor caller) t u ∧ ∀ v, ¬c.WaitsFor caller u v := by
  -- on the rank, which every task of the chain lowers
  induction hr : c.rank t using WellFoundedLT.induction generalizing t with
  | ind r ih =>
    by_cases stuck : ∃ u, c.WaitsFor caller t u
    · obtain ⟨u, hu⟩ := stuck
      have hlt : c.rank u < r := hr ▸ leads t u hu
      obtain ⟨v, hv, last⟩ := ih (c.rank u) hlt u rfl
      exact ⟨v, .head hu hv, last⟩
    · exact ⟨t, .refl, not_exists.mp stuck⟩

/-- A task that waits for nobody has the lock that it asked for. -/
theorem head_of_waits_for_none (sound : c.Sound) (asked : c.awaits t = some n)
    (free : ∀ u, ¬c.WaitsFor caller t u) : (c.pool.queue n).head? = some t := by
  obtain ⟨st, hst, ha⟩ := stage_of_awaits asked
  have hlocks : n ∈ c.locks t := sound.locks_of_stage hst ▸ Stage.mem_locks_of_awaits ha
  have hmem : t ∈ c.pool.queue n := (sound.orderly.mem t n).mpr hlocks
  cases hq : c.pool.queue n with
  | nil =>
    rw [hq] at hmem
    cases hmem
  | cons u q =>
    rw [hq] at hmem
    rcases List.mem_cons.mp hmem with rfl | hmem
    · rfl
    · have before : [u, t].Sublist (c.pool.queue n) :=
        hq ▸ (List.singleton_sublist.mpr hmem).cons_cons u
      exact absurd (.lock n asked before) (free u)

end Scene

namespace Services

open Scene

variable {config : Config} {catalog : Catalog} {ls : List Label} {s s' : Services} {l : Label}

theorem sought_step (sound : s.scene.Sound) (step : s.step l = some s') (h : s.scene.Sought) :
    s'.scene.Sought := by
  have kept : ∀ {i}, i ∈ s.pool.tracked → s'.scene.Grown i :=
    fun there => .step sound step (.of_tracked sound there)
  intro u su i hu hi
  cases deed_of_step sound.fresh step with
  | calm shown same stages =>
    rw [stages] at hu
    exact .step sound step (h u su i hu hi)
  | stride t w st p m own was adv shown same stages =>
    rw [stages] at hu
    by_cases hut : u = t
    · rw [hut, Function.update_self] at hu
      cases m with
      | finish => cases hu
      | wait st' =>
        obtain rfl := Option.some.inj hu
        rcases adv.seeks hi with there | hst
        · exact kept there
        · exact .step sound step (h t st i (Sound.stage_of_act was) hst)
    · rw [Function.update_of_ne hut] at hu
      exact .step sound step (h u su i hu hi)
  | begin t call p q dead m n shown before opening after may distinct free fresh begun stages =>
    rw [stages] at hu
    split at hu
    · by_cases hut : u = t
      · rw [hut, Function.update_self] at hu
        cases m with
        | finish => cases hu
        | wait st' =>
          obtain rfl := Option.some.inj hu
          exact kept (before.tracked ▸ opening.seeks hi)
      · rw [Function.update_of_ne hut] at hu
        exact .step sound step (h u su i hu hi)
    · obtain ⟨j, hj, rfl⟩ := Option.map_eq_some_iff.mp hu
      obtain rfl := Option.some.inj hi
      exact kept (before.tracked ▸ (opening.of_mem_dead (List.mem_of_getElem? hj)).1)

theorem sought_run (run : (init config catalog).run ls = some s) : s.scene.Sought := by
  refine run_induction (I := fun _ s => s.scene.Sought) ?_ ?_ run
  · intro t st i ht
    cases ht
  · intro before l d d' reached step h
    exact sought_step (sound_run (sound_init config catalog) reached) step h

/-- In every state that a run comes to, no task waits for itself through others over the locks of the
pool, as long as no caller who has a slot queues for another; every chain of waiting ends at a task
that waits for none; and a task that asked for a lock and waits for none can go on at once. -/
theorem waiting_acyclic (config : Config) (catalog : Catalog) (ls : List Label) (s : Services)
    (run : (init config catalog).run ls = some s) {γ : Type} (caller : TaskId → γ)
    (single : ∀ t u i w j, s.held? t = some i → s.tasks.get? u = some (.pool w (.acquireSlot j)) →
      caller t ≠ caller u) :
    (∀ t, ¬Relation.TransGen (s.scene.WaitsFor caller) t t) ∧
    (∀ t, ∃ u, Relation.ReflTransGen (s.scene.WaitsFor caller) t u ∧
      ∀ v, ¬s.scene.WaitsFor caller u v) ∧
    ∀ t n, s.scene.awaits t = some n → (∀ u, ¬s.scene.WaitsFor caller t u) →
      (s.step (.resume t)).isSome = true := by
  have sound := sound_run (sound_init config catalog) run
  have leads : ∀ t u, s.scene.WaitsFor caller t u → s.scene.rank u < s.scene.rank t := by
    intro t u
    apply rank_lt_of_waitsFor sound (sought_run run)
    intro t u i j ended slot asked
    have held : s.held? t = some i := by
      have hnone : s.tasks.get? t = none := ended
      simp only [held?, hnone]
      exact slot
    obtain ⟨st, hst, ha⟩ := stage_of_awaits asked
    obtain rfl := Stage.awaits_of_slot (Stage.mem_locks_of_awaits ha)
    obtain ⟨w, hu⟩ := stage_of_scene hst
    exact single t u i w j held hu
  refine ⟨fun t cycle => lt_irrefl _ (rank_lt_of_chain leads cycle), exists_last leads, ?_⟩
  intro t n asked free
  have head := head_of_waits_for_none sound asked free
  obtain ⟨st, hst, ha⟩ := stage_of_awaits asked
  obtain ⟨w, was⟩ := stage_of_scene hst
  have enabled := Pool.step_of_head ha head
  simp only [step, was, Option.bind_some, resume, Option.isSome_map]
  exact enabled

/-- An execution queues for a slot whose caller calls for the shutdown of all kernels. That waits
behind a create, which waits for another shutdown, which waits for a restart. -/
def crossing : List Label :=
  booting ++
    [.call (.pool (.acquire (.fresh 0))), .resume 1, .resume 1,
      .call (.execute printer.request .absent), .resume 2,
      .call (.pool (.restart (.fresh 0))), .resume 3,
      .call (.pool (.shutdown (.fresh 0))), .resume 4, .resume 4,
      .call (.pool (.create { } none)), .call (.pool .shutdownAll)]

/-- The caller who has the slot of the first acquisition makes the last call, too. -/
def crossingCaller (t : TaskId) : TaskId := if t = 6 then 1 else t

theorem waiting_acyclic_crossing :
    ∃ s, (init { } [.python3]).run crossing = some s ∧
      Relation.TransGen (s.scene.WaitsFor crossingCaller) 2 3 ∧
      ∀ t, ¬Relation.TransGen (s.scene.WaitsFor crossingCaller) t t := by
  have h : ((init { } [.python3]).run crossing).map (fun s =>
      (s.slots, [1, 2, 4, 5, 6].map s.scene.stage?)) =
      some ([(1, 0)], [none, some (.acquireSlot 0),
        some (.closing (.shutdown (.fresh 0)) 0 [] [0]), some (.structure (.room 1 1)),
        some (.structure .shutdownAll)]) := by
    decide
  have hq : ((init { } [.python3]).run crossing).map (fun s =>
      (s.tasks.get? 1, s.pool.queue .pool, s.pool.queue (.worker 0), s.pool.queue (.slot 0))) =
      some (none, [4, 5, 6], [3, 4], [1, 2]) := by
    decide
  obtain ⟨s, run, hs⟩ := Option.map_eq_some_iff.mp h
  rw [run, Option.map_some] at hq
  simp only [Prod.mk.injEq, List.map_cons, List.map_nil, List.cons.injEq, and_true,
    Option.some.injEq] at hs hq
  obtain ⟨slots, -, h2, h4, h5, h6⟩ := hs
  obtain ⟨ended, pool, worker, slot⟩ := hq
  have waits : ∀ {t u st n q}, s.scene.stage? t = some st → st.awaits = some n →
      s.scene.pool.queue n = q → [u, t].Sublist q → s.scene.WaitsFor crossingCaller t u := by
    intro t u st n q hst ha hq before
    refine .lock n ?_ (hq ▸ before)
    rw [awaits, hst]
    exact ha
  have given : s.scene.WaitsFor crossingCaller 1 6 := by
    refine .caller 0 ?_ ended ?_ rfl
    · show s.slots.get? 1 = some 0
      rw [slots]
      rfl
    · intro idle
      rw [stage?, idle] at h6
      cases h6
  have chain : Relation.TransGen (s.scene.WaitsFor crossingCaller) 2 3 :=
    .head (waits h2 rfl slot (by decide)) <| .head given <| .head (waits h6 rfl pool (by decide)) <|
      .head (waits h5 rfl pool (by decide)) (.single (waits h4 rfl worker (by decide)))
  refine ⟨s, run, chain, (waiting_acyclic { } [.python3] crossing s run crossingCaller ?_).1⟩
  -- the caller who has the slot is in no call but the last
  intro t u i w j held queued same
  have hslot : s.slots.get? t = some i := by
    unfold held? at held
    split at held
    · cases held
    · exact held
  have ht := Table.mem_of_get?_eq_some hslot
  rw [slots] at ht
  obtain rfl : t = 1 := (Prod.mk.inj (List.mem_singleton.mp ht)).1
  by_cases hu : u = 6
  · rw [hu] at queued
    have hst : s.scene.stage? 6 = some (.acquireSlot j) := Sound.stage_of_act queued
    rw [h6] at hst
    cases hst
  · obtain rfl : u = 1 := by simpa [crossingCaller, hu] using same.symm
    rw [ended] at queued
    cases queued

end Services
end NotebookKernels
