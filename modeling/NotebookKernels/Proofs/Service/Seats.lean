import NotebookKernels.Proofs.Service.Results
import NotebookKernels.Proofs.Service.Sequential

/- The executions at work, and their slots.

   Whoever is at work on an execution was called to execute a request, and is in one of the phases of
   that (`executes_of_run`). As long as it looks for a slot, it looks for the slot of its request's
   kernel; and when it submits code or reads events, the slot of the entry is its own. The last holds
   even where other callers use the entry's channel by themselves, so that at most one execution at a
   time is at work there. -/
namespace NotebookKernels

open Function (update)

namespace Phase

/-- The entry on which the execution submits its code or reads the events. -/
def channel? : Phase → Option Nat
  | .submitting _ i _ | .reading _ i _ => some i
  | .acquiring _ | .removing _ | .ended .. => none

/-- The result as far as it has come. -/
def result : Phase → ExecutionResult
  | .acquiring x | .submitting x _ _ | .reading x _ _ | .removing x => x.result
  | .ended r _ => r

/-- Has the execution given up its slot, or got none? -/
def isOver : Phase → Bool
  | .removing _ | .ended .. => true
  | .acquiring _ | .submitting .. | .reading .. => false

/-- Has the execution its result? -/
def isEnded : Phase → Bool
  | .ended .. => true
  | .acquiring _ | .submitting .. | .reading .. | .removing _ => false

theorem channel?_of_isOver {φ : Phase} (h : φ.isOver = true) : φ.channel? = none := by
  cases φ with
  | removing | ended => rfl
  | acquiring | submitting | reading => cases h

end Phase

namespace Activity

/-- How far the execution is that the task is at work on. -/
def phase? : Activity → Option Phase
  | .pool (.execution x) (.acquireLock _) | .pool (.execution x) (.acquireSlot _) =>
    some (.acquiring x)
  | .pool (.execution x) _ => some (.removing x)
  | .submitting (.execution x) i code => some (.submitting x i code)
  | .receiving (.execution x) i r | .pausing (.execution x) i r => some (.reading x i r)
  | _ => none

end Activity

/-- How far the task's execution is. -/
def Services.phase? (s : Services) (t : TaskId) : Option Phase :=
  match s.tasks.get? t, s.replies.get? t with
  | some a, _ => a.phase?
  | none, some (.result r k) => some (.ended r k)
  | none, _ => none

namespace Pool

variable {p p' : Pool} {i : Nat} {t : TaskId} {s s' : Stage} {m : Move} {c : PoolCall}
  {dead : List Nat}

/-- Who looks for a slot has looked for it before. -/
theorem Advance.queues_of_wait (h : Advance t p s p' (.wait s')) (hs : s'.Queues i) :
    s.Queues i := by
  cases h with
  | queue => exact hs
  | _ => exact False.elim hs

/-- Who looks for a slot has been called to. -/
theorem Opening.queues_of_wait (h : Opening t p c p' dead (.wait s')) (hs : s'.Queues i) :
    ∃ id, c = .acquire id ∧ p.find? id = some i := by
  cases h with
  | acquire id j found =>
    obtain rfl : j = i := hs
    exact ⟨id, rfl, found⟩
  | _ => exact False.elim hs

end Pool

/-! ## The slot of a task that uses a channel -/

namespace Scene

variable {l : Label} {t u : TaskId} {c c' : Scene} {i : Nat}

/-- If the task uses the channel of this entry, it has the slot. -/
def Seated (t : TaskId) (i : Nat) (c : Scene) : Prop :=
  ∀ a, c.act t = some a → a.channel? = some i → c.slot t = some i

namespace Seated

theorem congr (h : c.Seated t i)
    (act : ∀ a, c'.act t = some a → a.channel? = some i → c.act t = some a)
    (slot : ∀ a, c.act t = some a → c'.slot t = c.slot t) : c'.Seated t i := by
  intro a ha hi
  have old := act a ha hi
  exact (slot a old).trans (h a old hi)

/-- A move inside the pool uses no channel, and takes no slot away. -/
theorem goOn (h : c.Seated t i) (w : Work) (p : Pool) (m : Move) : (c.goOn u w p m).Seated t i := by
  by_cases htu : t = u
  · subst htu
    intro a ha hi
    simp only [Scene.goOn, Function.update_self] at ha
    obtain ⟨st, -, rfl⟩ := Option.map_eq_some_iff.mp ha
    cases hi
  · refine h.congr (fun a ha _ => (Function.update_of_ne htu _ _).symm.trans ha) fun _ _ => ?_
    simp only [Scene.goOn]
    cases m.slot? with
    | none => rfl
    | some j => exact Function.update_of_ne htu _ _

theorem turn (h : c.Seated t i) (indirect : t = u → l.direct? ≠ some i) (turn : Turn l u c c') :
    c'.Seated t i := by
  cases turn with
  | rise b =>
    refine h.congr (fun a ha _ => ?_) fun _ _ => rfl
    by_cases htu : t = u
    · subst htu
      simp [setAct] at ha
    · exact (Function.update_of_ne htu _ _).symm.trans ha
  | carry b risen outside holds =>
    by_cases htu : t = u
    · subst htu
      intro a ha hi
      obtain rfl : b = a := by simpa [setAct] using ha
      exact (holds i hi).resolve_right (indirect rfl)
    · exact h.congr (fun a ha _ => (Function.update_of_ne htu _ _).symm.trans ha) fun _ _ => rfl
  | shift b d was outside still same =>
    by_cases htu : t = u
    · subst htu
      intro a ha hi
      obtain rfl : d = a := by simpa [setAct] using ha
      exact h b was (same.symm.trans hi)
    · exact h.congr (fun a ha _ => (Function.update_of_ne htu _ _).symm.trans ha) fun _ _ => rfl
  | count | reply => exact h
  | drop v j ended =>
    refine h.congr (fun _ ha _ => ha) fun a ha => Function.update_of_ne ?_ _ _
    rintro rfl
    exact absurd (ended.symm.trans ha) (by simp)
  | advance w st p m => exact h.goOn w p m
  | begin w call p dead m => exact h.goOn w p m
  | reap j =>
    refine h.congr (fun a ha hi => ?_) fun _ _ => rfl
    by_cases htn : t = c.next
    · subst htn
      have hnew := (Function.update_self ..).symm.trans ha
      obtain rfl := Option.some.inj hnew
      cases hi
    · exact (Function.update_of_ne htn _ _).symm.trans ha

end Seated

/-- Who has a slot is the first in its queue. -/
theorem Sound.head_of_slot (h : c.Sound) (ht : c.slot t = some i) :
    (c.pool.queue (.slot i)).head? = some t := by
  have holds := h.holds_slot ht
  exact h.orderly.first t _ holds.1 holds.2

end Scene

namespace Services

open Scene

variable {config : Config} {catalog : Catalog} {before during ls : List Label}
  {s s₀ s' d : Services} {l : Label} {t u : TaskId} {i : Nat} {φ φ' : Phase}
  {request : ExecuteRequest} {sink : Sink} {id : ExecutionId}

/-! ## Phases -/

theorem phase?_of_tasks {a : Activity} (h : s.tasks.get? t = some a) : s.phase? t = a.phase? := by
  simp only [phase?, h]

theorem phase?_of_shows (h : s.Shows t φ) : s.phase? t = some φ := by
  cases φ with
  | acquiring x =>
    obtain ⟨-, st, was, acquires⟩ := h
    rw [phase?_of_tasks was]
    cases st with
    | acquireLock | acquireSlot => rfl
    | _ => exact False.elim acquires
  | submitting x i code => exact phase?_of_tasks h.2
  | reading x i r => rcases h.2 with was | was <;> exact phase?_of_tasks was
  | removing x =>
    obtain ⟨-, st, was, prunes⟩ := h
    rw [phase?_of_tasks was]
    cases st with
    | acquireLock | acquireSlot => exact False.elim prunes
    | _ => rfl
  | ended r k => simp only [phase?, h.1, h.2]

/-- A task is in one phase only. -/
theorem eq_of_shows (shown : s.Shows t φ) (h : s.phase? t = some φ') : φ = φ' :=
  Option.some.inj ((phase?_of_shows shown).symm.trans h)

/-- Whoever has a phase that is not the last is at work on an execution. -/
theorem executing?_of_phase? (h : s.phase? t = some φ) (going : φ.isEnded = false) :
    ∃ id, s.executing? t = some id := by
  unfold phase? at h
  split at h
  · next a ha =>
    have own : ∃ id, a.id? = some id := by
      cases a with
      | pool w st => cases w <;> simp [Activity.phase?, Activity.id?, Work.id?] at h ⊢
      | submitting w => cases w <;> simp [Activity.phase?, Activity.id?, Work.id?] at h ⊢
      | querying => simp [Activity.phase?] at h
      | receiving w => cases w <;> simp [Activity.phase?, Activity.id?, Work.id?] at h ⊢
      | pausing w => cases w <;> simp [Activity.phase?, Activity.id?, Work.id?] at h ⊢
    obtain ⟨id, hid⟩ := own
    exact ⟨id, by simp only [executing?, ha, Option.bind_some, hid]⟩
  · obtain rfl := Option.some.inj h
    cases going
  · cases h

/-! ## From the call on -/

theorem seated_step (sound : s.scene.Sound) (h : s.scene.Seated t i)
    (indirect : t < s.nextTask ∨ l.direct? ≠ some i) (step : s.step l = some s') :
    s'.scene.Seated t i := by
  have stirred : (s.stir l).scene.Seated t i := by
    rw [scene_stir]
    exact h
  refine (step_keeps sound step stirred fun _ _ _ _ turn hc => hc.turn (fun own hl => ?_) turn).2
  -- who uses a channel by himself has only now begun
  cases l with
  | call c =>
    have hnext : t = s.nextTask := own
    exact indirect.elim (fun hlt => Nat.ne_of_lt hlt hnext) fun h => h hl
  | resume | answer | submitted | replied | expire | alive | deliver | renew | pass => cases hl

/-- How an execution begins: it looks for the slot of its request's kernel, or it has failed at once.
It reports no count yet. -/
inductive Commences (s : Services) (request : ExecuteRequest) (sink : Sink) (s' : Services) : Prop
  | acquiring (x : Execution) (i : Nat) (found : s.pool.find? request.kernel = some i)
      (was : s'.tasks.get? s.nextTask = some (.pool (.execution x) (.acquireLock i)))
      (shown : s'.Shows s.nextTask (.acquiring x)) (unreported : x.result.executionCount = none)
  | refused (r : ExecutionResult) (f : Failure) (shown : s'.Shows s.nextTask (.ended r sink))
      (told : s.exchanges s.nextTask (.call (.execute request sink)) = [.refused f])
      (unreported : r.executionCount = none)

theorem commences_of_call (fresh : s.scene.Fresh)
    (step : s.step (.call (.execute request sink)) = some s') : Commences s request sink s' := by
  let t := s.nextTask
  let res : ExecutionResult :=
    .start (.fresh s.nextExecution) request.kernel request.cell s.pool.now
  let x : Execution := ⟨request, sink, res, false⟩
  let b := s.pool.start s.catalog t (.acquire request.kernel)
  let d : Services :=
    { s with nextTask := s.nextTask + 1, nextExecution := s.nextExecution + 1 }.remember res
  let e : Services := ({ d with pool := b.pool } : Services).move t (.execution x) b.move
  have hs : s' = e.reap b.dead := (Option.some.inj step).symm
  have begun : t < e.nextTask := by
    rw [show e.nextTask = d.nextTask from nextTask_move b.move]
    exact Nat.lt_succ_self _
  obtain ⟨tasks, -⟩ := reap_of_lt b.dead begun
  have opening : Pool.Opening t s.pool (.acquire request.kernel) b.pool b.dead b.move :=
    Pool.opening_of_start
  rcases Pool.start_acquire s.pool s.catalog t request.kernel with ⟨i, hmove⟩ | ⟨f, hmove⟩
  · have hwait : b.move = .wait (.acquireLock i) := hmove
    have set : e.tasks.get? t = some (.pool (.execution x) (.acquireLock i)) := by
      simp only [e, hwait]
      exact Table.get?_set_self ..
    have shown : e.Shows t (.acquiring x) := by
      refine ⟨?_, _, set, trivial⟩
      simp only [e, hwait]
      exact fresh.reply _ (Nat.le_refl _)
    rw [hwait] at opening
    obtain ⟨id, hid, found⟩ := opening.queues_of_wait (i := i) rfl
    obtain rfl := PoolCall.acquire.inj hid
    rw [hs]
    exact .acquiring x i found (tasks.trans set) (shows_reap b.dead begun shown) rfl
  · have hfail : b.move = .finish (.failed f) := hmove
    have shown : e.Shows t (.ended (res.fail f b.pool.now) sink) := by
      simp only [e, hfail]
      exact shows_conclude ..
    have shown' := shows_reap b.dead begun shown
    rw [← hs] at shown'
    refine .refused _ f shown' ?_ rfl
    rw [exchanges_of_step step, submits_eq_nil shown' (by simp), List.append_nil]
    simp only [told, if_true]
    exact congrArg Move.exchanges hfail

/-- The task is at work on an execution of the request, or has ended it. -/
structure Executes (s : Services) (t : TaskId) (request : ExecuteRequest) : Prop where
  begun : t < s.nextTask
  shown : ∃ φ, s.Shows t φ
  seated : ∀ i, s.scene.Seated t i
  /-- It looks for the slot of the kernel that the request is for. -/
  aimed : ∀ w st i, s.tasks.get? t = some (.pool w st) → st.Queues i → request.kernel = .fresh i

namespace Executes

theorem call (sound : s.scene.Sound) (named : s.scene.Named)
    (step : s.step (.call (.execute request sink)) = some s') :
    s'.Executes s.nextTask request where
  begun := nextTask_le_step sound step
  shown := by
    cases commences_of_call sound.fresh step with
    | acquiring x i found was shown => exact ⟨_, shown⟩
    | refused r f shown => exact ⟨_, shown⟩
  seated i := by
    refine seated_step sound (fun a ha => ?_) (.inr (by simp [Label.direct?, Call.direct?])) step
    exact absurd ((sound.fresh.act _ (Nat.le_refl _)).symm.trans ha) (by simp)
  aimed w st i was queued := by
    cases commences_of_call sound.fresh step with
    | acquiring x j found here =>
      obtain ⟨-, rfl⟩ := Activity.pool.inj (Option.some.inj (was.symm.trans here))
      obtain rfl : j = i := queued
      exact named.of_find? sound found
    | refused r f shown => exact absurd (was.symm.trans shown.2) (by simp)

/-- A task that looks for a slot has looked for the same before. -/
theorem queued_before (own : l.task? = some t) (sound : s.scene.Sound) (begun : t < s.nextTask)
    (shown : s.Shows t φ) (step : s.step l = some s') {w : Work} {st : Stage}
    (was : s'.tasks.get? t = some (.pool w st)) (queued : st.Queues i) :
    ∃ x st', s.tasks.get? t = some (.pool (.execution x) st') ∧ st'.Queues i := by
  obtain ⟨φ', hφ', hnext⟩ := next_of_step sound begun shown step
  have acquiring : ∃ x, φ' = .acquiring x := by
    cases φ' with
    | acquiring x => exact ⟨x, rfl⟩
    | removing x =>
      obtain ⟨-, st', was', prunes⟩ := hφ'
      obtain ⟨-, rfl⟩ := Activity.pool.inj (Option.some.inj (was.symm.trans was'))
      cases st with
      | acquireLock | acquireSlot => exact False.elim prunes
      | _ => exact False.elim queued
    | submitting => exact absurd (was.symm.trans hφ'.2) (by simp)
    | reading => rcases hφ'.2 with h | h <;> exact absurd (was.symm.trans h) (by simp)
    | ended => exact absurd (was.symm.trans hφ'.2) (by simp)
  obtain ⟨x, rfl⟩ := acquiring
  generalize s.exchanges t l = ex at hnext
  cases hnext
  obtain ⟨-, st', was', -⟩ := shown
  obtain ⟨p, m, adv, rfl, -⟩ := move_of_step own was' step
  have moves := congrFun (moved (s := s) (t := t) p (.execution x) m).2 t
  rw [Function.update_self, Sound.stage_of_act was] at moves
  obtain rfl := Move.eq_wait moves.symm
  exact ⟨x, st', was', adv.queues_of_wait queued⟩

theorem next (h : s.Executes t request) (sound : s.scene.Sound) (step : s.step l = some s') :
    s'.Executes t request := by
  obtain ⟨φ, hφ⟩ := h.shown
  refine ⟨?_, ?_, fun i => seated_step sound (h.seated i) (.inl h.begun) step, ?_⟩
  · have hle := Nat.le_trans (nextTask_le_stir s l) (nextTask_le_step sound step)
    exact Nat.lt_of_lt_of_le h.begun hle
  · obtain ⟨φ', hφ', -⟩ := next_of_step sound h.begun hφ step
    exact ⟨φ', hφ'⟩
  · intro w st i was queued
    by_cases hl : l.task? = some t
    · obtain ⟨x, st', was', queued'⟩ := queued_before hl sound h.begun hφ step was queued
      exact h.aimed _ _ _ was' queued'
    · rw [(frame_of_step sound h.begun hl step).1] at was
      exact h.aimed _ _ _ was queued

end Executes

theorem executes_of_begun (reached : (init config catalog).run before = some s₀)
    (run : s₀.run (.call (.execute request sink) :: during) = some s) :
    s.Executes s₀.nextTask request := by
  have sound := sound_run (sound_init config catalog) reached
  obtain ⟨s₁, step, run⟩ := Option.bind_eq_some_iff.mp run
  have first := Executes.call sound (named_run reached) step
  have hkeep := run_keeps (I := fun d => d.scene.Sound ∧ d.Executes s₀.nextTask request)
    (P := fun _ => True) (fun _ _ _ _ h hs => ⟨sound_step h.1 hs, h.2.next h.1 hs⟩)
    (fun _ _ => trivial) ⟨sound_step sound step, first⟩ run
  exact hkeep.2

/-- Whoever is at work on an execution was called to execute a request. -/
theorem begun_of_executing (run : (init config catalog).run ls = some s)
    (h : s.executing? t = some id) :
    ∃ before request sink during s₀, ls = before ++ .call (.execute request sink) :: during ∧
      (init config catalog).run before = some s₀ ∧ t = s₀.nextTask := by
  obtain ⟨p, begun, -⟩ := (OnFile.run run).filed.known t id h
  obtain ⟨before, l, during, s₀, rfl, reached, begins⟩ := mem_gather begun
  cases l with
  | call c =>
    cases c with
    | execute request sink =>
      obtain ⟨rfl, -⟩ := Prod.mk.inj (List.mem_singleton.mp begins)
      exact ⟨before, request, sink, during, s₀, rfl, reached, rfl⟩
    | pool | record | count | release | introspect | result | submit | stream | list | query =>
      cases begins
  | resume | answer | submitted | replied | expire | alive | deliver | renew | pass => cases begins

theorem run_of_begun {c : Call} (reached : (init config catalog).run before = some s₀)
    (run : (init config catalog).run (before ++ .call c :: during) = some s) :
    s₀.run (.call c :: during) = some s := by
  rwa [run_append, reached, Option.bind_some] at run

/-- Whoever has a phase that is not the last executes a request, and is in that phase. -/
theorem executes_of_run (run : (init config catalog).run ls = some s) (h : s.phase? t = some φ)
    (going : φ.isEnded = false) : ∃ request, s.Executes t request ∧ s.Shows t φ := by
  obtain ⟨id, executing⟩ := executing?_of_phase? h going
  obtain ⟨before, request, sink, during, s₀, rfl, reached, rfl⟩ := begun_of_executing run executing
  have executes := executes_of_begun reached (run_of_begun reached run)
  obtain ⟨φ', shown⟩ := executes.shown
  obtain rfl := eq_of_shows shown h
  exact ⟨request, executes, shown⟩

theorem isEnded_of_channel? (h : φ.channel? = some i) : φ.isEnded = false := by
  cases φ with
  | submitting | reading => rfl
  | acquiring | removing | ended => cases h

/-- An execution that submits or reads on an entry's channel has the slot. -/
theorem slot_of_channel? (run : (init config catalog).run ls = some s) (h : s.phase? t = some φ)
    (on : φ.channel? = some i) : s.slots.get? t = some i := by
  obtain ⟨request, executes, shown⟩ := executes_of_run run h (isEnded_of_channel? on)
  cases φ with
  | submitting x j code =>
    obtain rfl := Option.some.inj on
    exact executes.seated j _ shown.2 rfl
  | reading x j r =>
    obtain rfl := Option.some.inj on
    rcases shown.2 with was | was <;> exact executes.seated j _ was rfl
  | acquiring | removing | ended => cases on

/-! ## One step -/

/-- An execution that goes on after a step went on in it, or it has only now begun. -/
theorem phase?_of_step (run : (init config catalog).run ls = some s) (step : s.step l = some s')
    (h : s'.phase? t = some φ') (going : φ'.isEnded = false) :
    (t < s.nextTask ∧ ∃ φ, s.Shows t φ ∧ φ.Next (s.exchanges t l) φ') ∨
      t = s.nextTask ∧ ∃ x, φ' = .acquiring x := by
  have sound := sound_run (sound_init config catalog) run
  obtain ⟨id, executing⟩ := executing?_of_phase? h going
  obtain ⟨before, request, sink, during, s₀, hls, reached, rfl⟩ :=
    begun_of_executing (run_concat run step) executing
  rcases List.eq_nil_or_concat during with rfl | ⟨during, k, rfl⟩
  · obtain ⟨rfl, hl⟩ := List.append_inj' hls rfl
    obtain rfl := List.singleton_inj.mp hl
    obtain rfl := Option.some.inj (run.symm.trans reached)
    cases commences_of_call sound.fresh step with
    | acquiring x i found was shown =>
      exact .inr ⟨rfl, x, (eq_of_shows shown h).symm⟩
    | refused r f shown =>
      obtain rfl := eq_of_shows shown h
      cases going
  · rw [List.concat_eq_append, ← List.cons_append, ← List.append_assoc] at hls
    obtain ⟨rfl, -⟩ := List.append_inj' hls rfl
    have executes := executes_of_begun reached (run_of_begun reached run)
    obtain ⟨φ, shown⟩ := executes.shown
    obtain ⟨ψ, shown', next⟩ := next_of_step sound executes.begun shown step
    obtain rfl := eq_of_shows shown' h
    exact .inl ⟨executes.begun, φ, shown, next⟩

/-- Something passes only in a step of its own. -/
theorem own_of_exchanges (sound : s.scene.Sound) (ht : t < s.nextTask) (step : s.step l = some s')
    (h : s.exchanges t l ≠ []) : l.task? = some t := by
  by_contra hne
  exact h (exchanges_of_frame ht hne step (frame_of_step sound ht hne step).1)

/-- An execution that is granted a slot looked for that slot, and is the first in its queue. -/
theorem execute_of_acquired {x : Execution} (own : l.task? = some t)
    (h : s.Shows t (.acquiring x)) (step : s.step l = some s')
    (acquired : .acquired i ∈ s.exchanges t l) :
    s.tasks.get? t = some (.pool (.execution x) (.acquireSlot i)) ∧
      (s.pool.queue (.slot i)).head? = some t ∧
      ∃ p, s' = ({ s with pool := p, slots := s.slots.set t i } : Services).execute t i x := by
  obtain ⟨-, st, was, -⟩ := h
  obtain ⟨p, m, adv, rfl, htold, -⟩ := move_of_step own was step
  rw [exchanges_of_step step, htold, was, submits_pool] at acquired
  have granted : m = .finish (.slot i) := by
    rcases List.mem_append.mp acquired with h | h
    · unfold Move.exchanges at h
      split at h
      · rw [Exchange.acquired.inj (List.mem_singleton.mp h)]
      · simp at h
      · cases h
    · unfold submits at h
      split at h <;> simp at h
  obtain rfl := adv.grants granted
  exact ⟨was, adv.granted rfl, p, by rw [granted]; rfl⟩

end Services
end NotebookKernels
