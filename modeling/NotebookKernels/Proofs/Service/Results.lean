import Mathlib.Data.List.Nodup
import NotebookKernels.Proofs.Identifier
import NotebookKernels.Proofs.Table
import NotebookKernels.Proofs.Service.Capacity
import NotebookKernels.Proofs.Service.Deeds

/- The results that can be looked up.

   An execution keeps a result twice: as it starts, and as it ends. In between others keep theirs and
   push it out, or do not.

   1. `Settles` says what one step of a task does to the results: nothing, or it ends the task's
      execution, keeps its result and answers with the same (`settles_of_step`).
   2. `Filed` ties what is kept to the executions that have begun: to each its own identifier, and
      what is kept under it is what it started with, or what it has returned (`filed_run`). -/
namespace NotebookKernels

open Function (update)

/-- The execution that the work is for. -/
def Work.id? : Work → Option ExecutionId
  | .execution x => some x.result.id
  | _ => none

namespace Activity

/-- The execution that the task is at work on. -/
def id? : Activity → Option ExecutionId
  | .pool w _ | .submitting w _ _ | .receiving w _ _ | .pausing w _ _ => w.id?
  | .querying .. => none

end Activity

theorem ExecutionId.fresh_injective {n k : Nat} (h : ExecutionId.fresh n = ExecutionId.fresh k) :
    n = k :=
  serialText_injective (ExecutionId.mk.inj h)

namespace ExecutionResult

theorem isFinished_finish (r : ExecutionResult) (now : Nat) : (r.finish now).isFinished = true := by
  unfold finish isFinished
  dsimp only
  split <;> rfl

end ExecutionResult

namespace Services

/-- What a caller is told who looks a result up now. -/
def lookup (s : Services) (id : ExecutionId) : Option Reply :=
  (s.step (.call (.result id))).bind (·.replies.get? s.nextTask)

/-- The execution that begins in a step: its task, and the result that it starts with. -/
def begun (s : Services) : Label → List (TaskId × ExecutionResult)
  | .call (.execute request _) =>
    [(s.nextTask, .start (.fresh s.nextExecution) request.kernel request.cell s.pool.now)]
  | _ => []

/-- The execution that the task is at work on. -/
def executing? (s : Services) (t : TaskId) : Option ExecutionId :=
  (s.tasks.get? t).bind Activity.id?

variable {s s' d : Services} {l : Label} {ls : List Label} {t u : TaskId} {i n : Nat} {w : Work}
  {id : ExecutionId} {id? : Option ExecutionId}

theorem lookup_eq (s : Services) (id : ExecutionId) :
    s.lookup id = some ((s.results.get? id).elim (.pool (.failed (.executionNotFound id)))
      (.result · .absent)) := by
  unfold lookup
  simp only [step, Option.bind_some, start]
  cases s.results.get? id <;> exact Table.get?_set_self ..

/-! ## One step of a task -/

/-- What becomes of the execution of a task, and of the results that were kept: the task works on for
the same execution, or it has ended it, and has kept its result and answered with it. -/
inductive Settles (n : Nat) (t : TaskId) (s : Services) (id? : Option ExecutionId) (s' : Services) :
    Prop
  | on (number : s'.nextExecution = s.nextExecution) (same : s'.results = s.results)
      (working : s'.executing? t = id?)
  | ends (number : s'.nextExecution = s.nextExecution) (r : ExecutionResult) (k : Sink)
      (own : id? = some r.id) (finished : r.isFinished = true)
      (replied : s'.replies.get? t = some (.result r k)) (gone : s'.tasks.get? t = none)
      (kept : s'.results = s.results.keep n r.id r)

@[simp] theorem results_dropSlot (u : TaskId) : (s.dropSlot u).results = s.results := by
  unfold dropSlot
  split <;> rfl

theorem nextExecution_dropSlot (u : TaskId) : (s.dropSlot u).nextExecution = s.nextExecution := by
  unfold dropSlot
  split <;> rfl

@[simp] theorem config_dropSlot (u : TaskId) : (s.dropSlot u).pool.config = s.pool.config := by
  unfold dropSlot
  split <;> rfl

theorem results_reap (dead : List Nat) :
    (s.reap dead).results = s.results ∧ (s.reap dead).nextExecution = s.nextExecution := by
  induction dead generalizing s with
  | nil => exact ⟨rfl, rfl⟩
  | cons i r ih => exact ih (s := s.spawn i)

theorem executing?_of_tasks (h : s'.tasks.get? t = s.tasks.get? t) :
    s'.executing? t = s.executing? t := by
  simp only [executing?, h]

theorem executing?_of_ended (h : s.tasks.get? t = none) : s.executing? t = none := by
  simp only [executing?, h, Option.bind_none]

namespace Settles

/-- What is done before to the slots, the counts and the pool does not matter. -/
theorem after (number : d.nextExecution = s.nextExecution) (same : d.results = s.results)
    (h : Settles n t d id? s') : Settles n t s id? s' := by
  cases h with
  | on number' same' working => exact .on (number'.trans number) (same'.trans same) working
  | ends number' r k own finished replied gone kept =>
    exact .ends (number'.trans number) r k own finished replied gone (same ▸ kept)

theorem setTask {a : Activity} (own : a.id? = id?) : Settles n t s id? (s.setTask t a) := by
  refine .on rfl rfl ?_
  have hget : (s.setTask t a).tasks.get? t = some a := Table.get?_set_self ..
  simp only [executing?, hget, Option.bind_some, own]

theorem finish (r : Reply) : Settles n t s none (s.finish t r) :=
  .on rfl rfl (executing?_of_ended (Table.get?_erase_self ..))

theorem conclude (hn : s.pool.config.history = n) (k : Sink) {r : ExecutionResult}
    (own : r.id = id) (finished : r.isFinished = true) :
    Settles n t s (some id) (s.conclude t k r) :=
  .ends rfl r k (congrArg some own.symm) finished (Table.get?_set_self ..) (Table.get?_erase_self ..)
    (hn ▸ rfl)

theorem complete (hn : s.pool.config.history = n) {x : Execution} (own : x.result.id = id) :
    Settles n t s (some id) (s.complete t x) :=
  .conclude hn x.sink own (ExecutionResult.isFinished_finish x.result s.pool.now)

theorem fail (hn : s.pool.config.history = n) {x : Execution} (own : x.result.id = id)
    (f : Failure) : Settles n t s (some id) (s.fail t x f) :=
  .conclude (r := x.result.fail f s.pool.now) hn x.sink own
    (ExecutionResult.isFinished_finish _ s.pool.now)

theorem dropped (h : Settles n t (s.dropSlot u) id? s') : Settles n t s id? s' :=
  .after (nextExecution_dropSlot u) (results_dropSlot u) h

theorem execute (hn : s.pool.config.history = n) {x : Execution} (own : x.result.id = id)
    (i : Nat) : Settles n t s (some id) (s.execute t i x) := by
  have noticed : x.noticed.result.id = id := by
    rw [noticed_eq, ← own]
    split <;> rfl
  rw [execute_eq]
  split
  · exact .dropped (.complete ((congrArg _ (config_dropSlot t)).trans hn) noticed)
  · exact .setTask (congrArg some noticed)

theorem list (i : Nat) : Settles n t s none (s.list t i) := by
  unfold Services.list
  split
  · exact .dropped (.finish _)
  · exact .setTask rfl

theorem move (hn : s.pool.config.history = n) (own : w.id? = id?) (m : Move) :
    Settles n t s id? (s.move t w m) := by
  subst own
  let slot (i : Nat) : Services := { s with slots := s.slots.set t i }
  have slotted : ∀ {i id? s'}, Settles n t (slot i) id? s' → Settles n t s id? s' :=
    fun {i} {_} {_} h => .after (d := slot i) rfl rfl h
  cases m with
  | wait stage => exact .setTask rfl
  | finish o =>
    cases w with
    | execution x =>
      cases o with
      | slot i => exact slotted (.execute (s := slot i) hn rfl i)
      | failed f => exact .fail hn rfl f
      | done | kernel | kernels | removed | flag | channel => exact .complete hn rfl
    | introspection =>
      cases o with
      | slot i => exact slotted (.list i)
      | done | kernel | kernels | removed | flag | channel | failed => exact .finish _
    | operation | listing | stream | submission =>
      cases o with
      | slot i => exact slotted (.finish _)
      | done | kernel | kernels | removed | flag | channel | failed => exact .finish _

theorem reap (ht : t < s'.nextTask) (dead : List Nat) (h : Settles n t s id? s') :
    Settles n t s id? (s'.reap dead) := by
  obtain ⟨tasks, replies⟩ := reap_of_lt dead ht
  obtain ⟨results, number⟩ := results_reap (s := s') dead
  cases h with
  | on number' same working =>
    exact .on (number.trans number') (results.trans same) ((executing?_of_tasks tasks).trans working)
  | ends number' r k own finished replied gone kept =>
    exact .ends (number.trans number') r k own finished (replies.trans replied) (tasks.trans gone)
      (results.trans kept)

theorem startPool (hn : s.pool.config.history = n) (ht : t < s.nextTask) (own : w.id? = id?)
    (c : PoolCall) : Settles n t s id? (s.startPool t w c) := by
  let b := s.pool.start s.catalog t c
  let e : Services := { s with pool := b.pool }
  have opening : Pool.Opening t s.pool c b.pool b.dead b.move := Pool.opening_of_start
  have moved : Settles n t e id? (e.move t w b.move) :=
    .move ((congrArg _ opening.config_eq).trans hn) own b.move
  exact .reap (ht.trans_eq (nextTask_move (s := e) b.move).symm) b.dead
    (.after (d := e) rfl rfl moved)

theorem endStream (hn : s.pool.config.history = n) (ht : t < s.nextTask) (own : w.id? = id?)
    (i : Nat) : Settles n t s id? (s.endStream t i w) := by
  subst own
  cases w with
  | execution x =>
    obtain ⟨number, same, config, next⟩ : (s.counting i x).nextExecution = s.nextExecution ∧
        (s.counting i x).results = s.results ∧ (s.counting i x).pool.config = s.pool.config ∧
        (s.counting i x).nextTask = s.nextTask := by
      unfold counting
      split <;> exact ⟨rfl, rfl, rfl, rfl⟩
    have hn' : ((s.counting i x).dropSlot t).pool.config.history = n := by
      rw [config_dropSlot, config, hn]
    have own : ∀ k, (Work.execution (x.counted k)).id? = some x.result.id := fun _ => rfl
    rw [endStream_eq]
    split
    · refine .after number same (.dropped (.startPool hn' ?_ (own _) _))
      rwa [nextTask_dropSlot, next]
    · exact .after number same (.dropped (.complete hn' rfl))
  | listing => exact .dropped (.finish _)
  | stream | operation | introspection | submission => exact .finish _

theorem receive (hn : s.pool.config.history = n) (ht : t < s.nextTask) (own : w.id? = id?)
    (i : Nat) (r : RequestId) (m : Mail) :
    Settles n t s id? (s.receive t w i r m) := by
  have output : ∀ e, (s.takeOutput e w).id? = id? := by
    intro e
    rw [← own]
    cases w <;> rfl
  unfold Services.receive
  split
  · exact .setTask own
  · next e _ => exact .setTask (output e)
  · exact .endStream hn ht own i
  · next e _ => exact .endStream hn ht (output e) i

theorem resume {a : Activity} (hn : s.pool.config.history = n) (ht : t < s.nextTask)
    (own : a.id? = id?) (h : s.resume t a = some s') :
    Settles n t s id? s' := by
  cases a with
  | pool w stage =>
    obtain ⟨⟨p, m⟩, hstep, rfl⟩ := Option.map_eq_some_iff.mp h
    have hp : p.config.history = n :=
      (congrArg _ (Pool.advance_of_step hstep).config_eq).trans hn
    exact .after (d := { s with pool := p }) rfl rfl (.move hp own m)
  | receiving w i r =>
    simp only [Services.resume] at h
    split at h
    · cases h
    · next m rest _ =>
      obtain rfl := Option.some.inj h
      exact .after (d := { s with pool := s.pool.modify i ({ · with mail := rest }) }) rfl rfl
        (.receive (s := { s with pool := s.pool.modify i ({ · with mail := rest }) }) hn ht own i r m)
  | submitting | querying | pausing => simp [Services.resume] at h

theorem answer {a : Activity} {ans : Answer} (hn : s.pool.config.history = n) (ht : t < s.nextTask)
    (own : a.id? = id?) (h : s.answer t a ans = some s') :
    Settles n t s id? s' := by
  cases a with
  | pool w stage =>
    obtain ⟨⟨p, m⟩, hstep, rfl⟩ := Option.map_eq_some_iff.mp h
    have hp : p.config.history = n :=
      (congrArg _ (Pool.advance_of_answer hstep).config_eq).trans hn
    exact .after (d := { s with pool := p }) rfl rfl (.move hp own m)
  | submitting w i code =>
    cases ans with
    | failed f =>
      cases w with
      | execution x =>
        obtain rfl := Option.some.inj h
        exact own ▸ .dropped (.fail ((congrArg _ (config_dropSlot t)).trans hn) rfl f)
      | operation | introspection | listing | stream | submission =>
        obtain rfl := Option.some.inj h
        exact own ▸ .dropped (.finish _)
    | ok | elapsed => simp [Services.answer] at h
  | querying i r =>
    cases ans with
    | failed f =>
      obtain rfl := Option.some.inj h
      exact own ▸ .finish _
    | ok | elapsed => simp [Services.answer] at h
  | receiving w i r =>
    cases ans with
    | failed f =>
      obtain rfl := Option.some.inj h
      exact .receive hn ht own i r _
    | elapsed =>
      obtain rfl := Option.some.inj h
      exact .setTask own
    | ok => simp [Services.answer] at h
  | pausing w i r =>
    cases ans with
    | elapsed =>
      obtain rfl := Option.some.inj h
      exact .setTask own
    | ok | failed => simp [Services.answer] at h

theorem accept {a : Activity} {r : RequestId} (own : a.id? = id?)
    (h : s.accept t r a = some s') : Settles n t s id? s' := by
  cases a with
  | submitting w i code =>
    cases w with
    | submission =>
      obtain rfl := Option.some.inj h
      exact own ▸ .finish _
    | operation | execution | introspection | listing | stream =>
      obtain rfl := Option.some.inj h
      exact .setTask own
  | pool | querying | receiving | pausing => simp [Services.accept] at h

theorem take {a : Activity} {v : Json} (own : a.id? = id?)
    (h : s.take t v a = some s') : Settles n t s id? s' := by
  cases a with
  | querying =>
    obtain rfl := Option.some.inj h
    exact own ▸ .finish _
  | pool | submitting | receiving | pausing => simp [Services.take] at h

theorem expire {a : Activity} (hn : s.pool.config.history = n) (ht : t < s.nextTask)
    (own : a.id? = id?) (h : s.expire t a = some s') :
    Settles n t s id? s' := by
  cases a with
  | receiving w | pausing w =>
    cases w with
    | listing =>
      obtain rfl := Option.some.inj h
      exact .endStream (w := .listing _) hn ht own _
    | operation | execution | introspection | stream | submission =>
      simp [Services.expire] at h
  | pool | submitting | querying => simp [Services.expire] at h

end Settles

/-- An execution keeps the result that it starts with, and may end at once. -/
theorem settles_of_execute {request : ExecuteRequest} {sink : Sink}
    (hn : s.pool.config.history = n) (step : s.step (.call (.execute request sink)) = some s') :
    ∃ p d, s.begun (.call (.execute request sink)) = [(s.nextTask, p)] ∧
      p.id = .fresh s.nextExecution ∧ p.isFinished = false ∧
      d.nextExecution = s.nextExecution + 1 ∧ d.results = s.results.keep n p.id p ∧
      Settles n s.nextTask d (some p.id) s' := by
  let p : ExecutionResult := .start (.fresh s.nextExecution) request.kernel request.cell s.pool.now
  let d : Services :=
    { s with nextTask := s.nextTask + 1, nextExecution := s.nextExecution + 1 }.remember p
  let x : Execution := ⟨request, sink, p, false⟩
  obtain rfl := Option.some.inj step
  have begins : Settles n s.nextTask d (some p.id)
      (d.startPool s.nextTask (.execution x) (.acquire request.kernel)) :=
    .startPool (s := d) (w := .execution x) hn (Nat.lt_succ_self _) rfl _
  exact ⟨p, d, rfl, rfl, rfl, rfl, hn ▸ rfl, begins⟩

/-- No other call is for an execution. -/
theorem settles_of_call {c : Call} (hn : s.pool.config.history = n)
    (hc : ∀ request sink, c ≠ .execute request sink) (step : s.step (.call c) = some s') :
    s.begun (.call c) = [] ∧ Settles n s.nextTask s none s' := by
  obtain rfl := Option.some.inj step
  let d : Services := { s with nextTask := s.nextTask + 1 }
  have ht : s.nextTask < d.nextTask := Nat.lt_succ_self _
  have finish : ∀ {d' : Services} (r : Reply), d'.nextExecution = s.nextExecution →
      d'.results = s.results → Settles n s.nextTask s none (d'.finish s.nextTask r) :=
    fun r number same => .after number same (.finish r)
  cases c with
  | execute request sink => exact absurd rfl (hc request sink)
  | pool c => exact ⟨rfl, .after (d := d) rfl rfl (.startPool (s := d) (w := .operation) hn ht rfl c)⟩
  | record slot =>
    refine ⟨rfl, ?_⟩
    simp only [start]
    split <;> exact finish _ rfl rfl
  | count slot =>
    refine ⟨rfl, ?_⟩
    simp only [start]
    split <;> exact finish _ rfl rfl
  | release slot =>
    refine ⟨rfl, ?_⟩
    simp only [start]
    split
    · exact finish _ rfl rfl
    · exact finish _ (nextExecution_dropSlot slot) (results_dropSlot slot)
  | introspect id =>
    exact ⟨rfl, .after (d := d) rfl rfl (.startPool (s := d) (w := .introspection) hn ht rfl _)⟩
  | result id =>
    refine ⟨rfl, ?_⟩
    simp only [start]
    split <;> exact finish _ rfl rfl
  | submit | stream | query => exact ⟨rfl, .after (d := d) rfl rfl (.setTask rfl)⟩
  | list i => exact ⟨rfl, .after (d := d) rfl rfl (.list i)⟩

/-- In a step that begins no execution, the task that takes it works on or ends its own. -/
theorem settles_of_step (hn : s.pool.config.history = n) (fresh : s.scene.Fresh)
    (hl : ∀ request sink, l ≠ .call (.execute request sink)) (step : s.step l = some s') :
    s.begun l = [] ∧ Settles n (s.actor l) s (s.executing? (s.actor l)) s' := by
  have unborn : s.executing? s.nextTask = none :=
    executing?_of_ended (fresh.act _ (Nat.le_refl _))
  cases hown : l.task? with
  | none =>
    have hactor : s.actor l = s.nextTask := by rw [actor, hown, Option.getD_none]
    rw [hactor, unborn]
    cases l with
    | call c => exact settles_of_call hn (fun request sink hc => hl request sink (hc ▸ rfl)) step
    | alive | deliver | renew | pass =>
      obtain rfl := Option.some.inj step
      exact ⟨rfl, .on rfl rfl unborn⟩
    | resume | answer | submitted | replied | expire => cases hown
  | some t =>
    have hactor : s.actor l = t := by rw [actor, hown, Option.getD_some]
    obtain ⟨a, ha, h⟩ := activity_of_step hown step
    have own : a.id? = s.executing? t := by simp only [executing?, ha, Option.bind_some]
    have ht : t < s.nextTask := fresh.lt_of_act ha
    rw [hactor]
    rcases h with ⟨rfl, h⟩ | ⟨ans, rfl, h⟩ | ⟨r, rfl, h⟩ | ⟨v, rfl, h⟩ | ⟨rfl, h⟩
    · exact ⟨rfl, .resume hn ht own h⟩
    · exact ⟨rfl, .answer hn ht own h⟩
    · exact ⟨rfl, .accept own h⟩
    · exact ⟨rfl, .take own h⟩
    · exact ⟨rfl, .expire hn ht own h⟩

/-- The other tasks work on for what they were at work for. -/
theorem executing?_of_step (sound : s.scene.Sound) (hu : u ≠ s.actor l) (step : s.step l = some s') :
    s'.executing? u = s.executing? u := by
  have key : (s'.scene.act u).bind Activity.id? = (s.scene.act u).bind Activity.id? := by
    have stirred : (s.stir l).scene.act = s.scene.act := by rw [scene_stir]
    refine (step_keeps (I := fun c => (∀ v, c.next ≤ v → c.act v = none) ∧
      (c.act u).bind Activity.id? = (s.scene.act u).bind Activity.id?) sound step ?_ ?_).2.2
    · exact ⟨(sound_stir sound l).fresh.act, by rw [stirred]⟩
    · rintro c c' hsound hlt turn ⟨unborn, hc⟩
      refine ⟨(hsound.turn hlt turn).fresh.act, ?_⟩
      have aside : ∀ v a, u ≠ v →
          (update c.act v a u).bind Activity.id? = (s.scene.act u).bind Activity.id? := by
        intro v a hv
        rw [Function.update_of_ne hv, hc]
      cases turn with
      | rise | carry | shift | advance | begin => exact aside _ _ hu
      | count | drop | reply => exact hc
      | reap i =>
        -- a task that tears a worker down is for no execution, as the task was that had not begun
        by_cases hnext : u = c.next
        · subst hnext
          rw [unborn c.next (Nat.le_refl _)] at hc
          simp only [Scene.spawn, Function.update_self]
          exact hc
        · exact aside _ _ hnext
  exact key

end Services

/-! ## The ledger -/

/-- What is kept, and who is at work for which execution. -/
structure Ledger where
  results : Table ExecutionId ExecutionResult
  /-- The number of the next execution. -/
  next : Nat
  working : TaskId → Option ExecutionId
  reply : TaskId → Option Reply

namespace Ledger

/-- An execution begins, and what it starts with is kept. -/
def enter (n : Nat) (t : TaskId) (p : ExecutionResult) (c : Ledger) : Ledger :=
  { c with
    results := c.results.keep n p.id p
    next := c.next + 1
    working := update c.working t (some p.id) }

/-- An execution ends: its result is kept and returned. -/
def close (n : Nat) (t : TaskId) (r : ExecutionResult) (k : Sink) (c : Ledger) : Ledger :=
  { c with
    results := c.results.keep n r.id r
    working := update c.working t none
    reply := update c.reply t (some (.result r k)) }

/-- What is kept are the results of the executions that have begun. -/
structure Filed (n : Nat) (seen : List (TaskId × ExecutionResult)) (c : Ledger) : Prop where
  numbered : seen.map (·.2.id) = (List.range c.next).map .fresh
  started : ∀ e ∈ seen, e.2.isFinished = false
  bounded : c.results.Bounded n
  /-- Whoever is at work for an execution has begun it. -/
  known : ∀ t id, c.working t = some id → ∃ p, (t, p) ∈ seen ∧ p.id = id
  /-- An execution is worked on until it has returned. -/
  course : ∀ e ∈ seen, c.working e.1 = some e.2.id ∧ c.reply e.1 = none ∨
    c.working e.1 = none ∧
      ∃ r k, c.reply e.1 = some (.result r k) ∧ r.id = e.2.id ∧ r.isFinished = true
  /-- What is kept for it is what it started with, and afterwards what it returned. -/
  kept : ∀ id r, c.results.get? id = some r → ∃ e ∈ seen, e.2.id = id ∧
    (c.reply e.1 = none ∧ r = e.2 ∨ ∃ k, c.reply e.1 = some (.result r k))

namespace Filed

variable {n : Nat} {seen : List (TaskId × ExecutionResult)} {c c' : Ledger} {t : TaskId}

/-- No two executions have one identifier. -/
theorem single (h : c.Filed n seen) : (seen.map (·.2.id)).Nodup := by
  rw [h.numbered]
  exact List.pairwise_map.mpr
    (List.nodup_range.imp fun hne heq => hne (ExecutionId.fresh_injective heq))

/-- What has this identifier is the one execution that has it. -/
theorem unique {e f : TaskId × ExecutionResult} (h : c.Filed n seen) (he : e ∈ seen) (hf : f ∈ seen)
    (same : e.2.id = f.2.id) : e = f := List.inj_on_of_nodup_map h.single he hf same

/-- Nothing is kept yet for the next execution. -/
theorem absent (h : c.Filed n seen) : .fresh c.next ∉ c.results.keys := by
  intro hmem
  obtain ⟨⟨_, r⟩, hr, rfl⟩ := List.mem_map.mp hmem
  obtain ⟨e, he, hid, -⟩ := h.kept _ r (Table.get?_of_mem h.bounded.single hr)
  have hnum : e.2.id ∈ seen.map (·.2.id) := List.mem_map.mpr ⟨e, he, rfl⟩
  rw [h.numbered] at hnum
  obtain ⟨m, hm, hfresh⟩ := List.mem_map.mp hnum
  have hlt := List.mem_range.mp hm
  rw [ExecutionId.fresh_injective (hfresh.trans hid)] at hlt
  exact Nat.lt_irrefl _ hlt

/-- A task is at work for the execution that it has begun. -/
theorem at_work {e : TaskId × ExecutionResult} {id : ExecutionId} (h : c.Filed n seen) (he : e ∈ seen)
    (working : c.working e.1 = some id) : e.2.id = id := by
  rcases h.course e he with ⟨hw, -⟩ | ⟨hw, -⟩
  · exact Option.some.inj (hw.symm.trans working)
  · exact absurd (hw.symm.trans working) (by simp)

/-- The replies of other tasks do not matter. -/
theorem congr (h : c.Filed n seen) (results : c'.results = c.results) (next : c'.next = c.next)
    (working : c'.working = c.working) (reply : ∀ e ∈ seen, c'.reply e.1 = c.reply e.1) :
    c'.Filed n seen where
  numbered := next ▸ h.numbered
  started := h.started
  bounded := results ▸ h.bounded
  known t id ht := h.known t id (working ▸ ht)
  course e he := by
    rw [working, reply e he]
    exact h.course e he
  kept id r hr := by
    obtain ⟨e, he, hid, stored⟩ := h.kept id r (results ▸ hr)
    exact ⟨e, he, hid, by rwa [reply e he]⟩

theorem enter {p : ExecutionResult} (h : c.Filed n seen) (room : 0 < n) (own : p.id = .fresh c.next)
    (running : p.isFinished = false) (young : ∀ e ∈ seen, e.1 ≠ t) (owed : c.reply t = none) :
    (c.enter n t p).Filed n (seen ++ [(t, p)]) where
  numbered := by
    rw [Ledger.enter, List.map_append, h.numbered, List.range_succ, List.map_append,
      List.map_singleton, List.map_singleton, own]
  started e he := by
    rcases List.mem_append.mp he with he | he
    · exact h.started e he
    · rwa [List.mem_singleton.mp he]
  bounded := h.bounded.keep p.id p
  known u id hu := by
    by_cases hut : u = t
    · subst hut
      refine ⟨p, List.mem_append_right _ (List.mem_singleton_self _), ?_⟩
      simpa [Ledger.enter] using hu
    · obtain ⟨q, hq, hid⟩ := h.known u id (by simpa [Ledger.enter, Function.update_of_ne hut] using hu)
      exact ⟨q, List.mem_append_left _ hq, hid⟩
  course e he := by
    rcases List.mem_append.mp he with he | he
    · have hne := young e he
      simpa only [Ledger.enter, Function.update_of_ne hne] using h.course e he
    · obtain rfl := List.mem_singleton.mp he
      exact .inl ⟨Function.update_self .., owed⟩
  kept id r hr := by
    by_cases hid : id = p.id
    · subst hid
      obtain rfl := Option.some.inj ((Table.get?_keep_self h.bounded room).symm.trans hr)
      exact ⟨(t, p), List.mem_append_right _ (List.mem_singleton_self _), rfl, .inl ⟨owed, rfl⟩⟩
    · obtain ⟨e, he, stored⟩ := h.kept id r (Table.get?_of_keep h.bounded hid hr)
      exact ⟨e, List.mem_append_left _ he, stored⟩

theorem close {r : ExecutionResult} (h : c.Filed n seen) (room : 0 < n)
    (working : c.working t = some r.id) (finished : r.isFinished = true) (k : Sink) :
    (c.close n t r k).Filed n seen where
  numbered := h.numbered
  started := h.started
  bounded := h.bounded.keep r.id r
  known u id hu := by
    by_cases hut : u = t
    · subst hut
      simp [Ledger.close] at hu
    · exact h.known u id (by simpa [Ledger.close, Function.update_of_ne hut] using hu)
  course e he := by
    by_cases het : e.1 = t
    · have hid := h.at_work he (het ▸ working)
      exact .inr ⟨het ▸ Function.update_self .., r, k, het ▸ Function.update_self .., hid.symm,
        finished⟩
    · simpa only [Ledger.close, Function.update_of_ne het] using h.course e he
  kept id r' hr := by
    by_cases hid : id = r.id
    · subst hid
      obtain rfl := Option.some.inj ((Table.get?_keep_self h.bounded room).symm.trans hr)
      obtain ⟨p, hp, hid⟩ := h.known t _ working
      exact ⟨(t, p), hp, hid, .inr ⟨k, Function.update_self ..⟩⟩
    · obtain ⟨e, he, rfl, stored⟩ := h.kept id r' (Table.get?_of_keep h.bounded hid hr)
      have het : e.1 ≠ t := fun het => hid (h.at_work he (het ▸ working))
      exact ⟨e, he, rfl, by simpa only [Ledger.close, Function.update_of_ne het] using stored⟩

end Filed
end Ledger

namespace Services

/-! ## Runs -/

/-- The results that are kept, and who is at work for which execution. -/
def ledger (s : Services) : Ledger where
  results := s.results
  next := s.nextExecution
  working := s.executing?
  reply t := s.replies.get? t

variable {s s' : Services} {l : Label} {ls : List Label} {t : TaskId} {n : Nat}

/-- A step of task `t` that finds this ledger, after the execution that may begin in it. -/
structure Posts (n : Nat) (seen : List (TaskId × ExecutionResult)) (t : TaskId) (c : Ledger)
    (s' : Services) : Prop where
  filed : c.Filed n seen
  settles : ∃ d : Services, d.results = c.results ∧ d.nextExecution = c.next ∧
    Settles n t d (c.working t) s'
  live : ∀ e ∈ seen, e.1 = t → c.reply t = none
  fresh : s'.scene.Fresh
  others : ∀ u, u ≠ t → s'.executing? u = c.working u
  replies : ∀ e ∈ seen, e.1 ≠ t → s'.replies.get? e.1 = c.reply e.1

namespace Posts

variable {seen : List (TaskId × ExecutionResult)} {c : Ledger} {e : TaskId × ExecutionResult}
  {reply : Reply} {id : ExecutionId}

/-- Who is at work owes a reply. -/
theorem owed (h : Posts n seen t c s') (working : s'.executing? t = some id) :
    s'.replies.get? t = none := by
  obtain ⟨a, ha, -⟩ := Option.bind_eq_some_iff.mp working
  exact h.fresh.owed t a ha

theorem keeps (h : Posts n seen t c s') (room : 0 < n) : s'.ledger.Filed n seen := by
  obtain ⟨d, hresults, hnext, settles⟩ := h.settles
  cases settles with
  | on number same working =>
    refine h.filed.congr (same.trans hresults) (number.trans hnext) ?_ ?_
    · funext u
      by_cases hu : u = t
      · exact hu ▸ working
      · exact h.others u hu
    · intro e he
      by_cases het : e.1 = t
      · rcases h.filed.course e he with ⟨hw, hr⟩ | ⟨-, r, k, hr, -⟩
        · exact (het ▸ h.owed (working.trans (het ▸ hw))).trans hr.symm
        · exact absurd ((het ▸ h.live e he het).symm.trans hr) (by simp)
      · exact h.replies e he het
  | ends number r k own finished replied gone kept =>
    refine (h.filed.close room own finished k).congr (kept.trans (hresults ▸ rfl))
      (number.trans hnext) ?_ ?_
    · funext u
      by_cases hu : u = t
      · subst hu
        simpa [ledger, Ledger.close] using executing?_of_ended gone
      · exact (h.others u hu).trans (Function.update_of_ne hu _ _).symm
    · intro e he
      by_cases het : e.1 = t
      · subst het
        simpa [ledger, Ledger.close] using replied
      · exact (h.replies e he het).trans (Function.update_of_ne het _ _).symm

/-- What an execution returns in the step is what is kept for it then. -/
theorem returned (h : Posts n seen t c s') (room : 0 < n) (he : e ∈ seen)
    (owed : c.reply e.1 = none) (replied : s'.replies.get? e.1 = some reply) :
    ∃ r k, reply = .result r k ∧ s'.results.get? e.2.id = some r := by
  have het : e.1 = t := by
    by_contra hne
    exact absurd (replied.symm.trans ((h.replies e he hne).trans owed)) (by simp)
  have working : c.working e.1 = some e.2.id := by
    rcases h.filed.course e he with ⟨hw, -⟩ | ⟨-, r, k, hr, -⟩
    · exact hw
    · exact absurd (owed.symm.trans hr) (by simp)
  obtain ⟨d, hresults, hnext, settles⟩ := h.settles
  cases settles with
  | on _ _ still =>
    exact absurd ((h.owed (still.trans (het ▸ working))).symm.trans (het ▸ replied)) (by simp)
  | ends _ r k own _ replied' _ kept =>
    refine ⟨r, k, Option.some.inj (replied.symm.trans (het ▸ replied')), ?_⟩
    rw [Option.some.inj (working.symm.trans (het ▸ own)), kept, hresults]
    exact Table.get?_keep_self h.filed.bounded room

end Posts

/-- The results that are kept are those of the executions that have begun. -/
structure OnFile (config : Config) (seen : List (TaskId × ExecutionResult)) (s : Services) : Prop where
  sound : s.scene.Sound
  within : s.scene.Within config
  begun : ∀ e ∈ seen, e.1 < s.nextTask
  filed : s.ledger.Filed config.history seen

namespace OnFile

variable {config : Config} {catalog : Catalog} {seen : List (TaskId × ExecutionResult)}

theorem init (config : Config) (catalog : Catalog) : OnFile config [] (init config catalog) where
  sound := sound_init config catalog
  within := within_init
  begun _ h := by cases h
  filed :=
    { numbered := rfl
      started _ h := by cases h
      bounded := ⟨List.nodup_nil, Nat.zero_le _⟩
      known _ _ h := by cases h
      course _ h := by cases h
      kept _ _ h := by cases h }

theorem room (config : Config) : 0 < config.history := Nat.le_max_right _ _

theorem history (h : OnFile config seen s) : s.pool.config.history = config.history :=
  congrArg Config.history h.within.settings

/-- The ledger in a step, after the execution that may begin in it. -/
inductive Opens (n : Nat) (s : Services) (l : Label) : Ledger → Prop
  | idle (h : s.begun l = []) : Opens n s l s.ledger
  | enter (p : ExecutionResult) (h : s.begun l = [(s.actor l, p)]) (own : p.id = .fresh s.nextExecution) :
      Opens n s l (s.ledger.enter n (s.actor l) p)

theorem Opens.reply {c : Ledger} (h : Opens n s l c) : c.reply = s.ledger.reply := by
  cases h <;> rfl

theorem posts (h : OnFile config seen s) (step : s.step l = some s') :
    ∃ c, Opens config.history s l c ∧ Posts config.history (seen ++ s.begun l) (s.actor l) c s' := by
  have fresh' : s'.scene.Fresh := (sound_step h.sound step).fresh
  have replies : ∀ e ∈ seen, e.1 ≠ s.actor l → s'.replies.get? e.1 = s.replies.get? e.1 := by
    intro e he hne
    refine (frame_of_step h.sound (h.begun e he) (fun hl => hne ?_) step).2
    rw [actor, hl, Option.getD_some]
  by_cases hexec : ∃ request sink, l = .call (.execute request sink)
  · obtain ⟨request, sink, rfl⟩ := hexec
    obtain ⟨p, d, hbegun, own, running, hnext, hresults, settles⟩ :=
      settles_of_execute h.history step
    have young : ∀ e ∈ seen, e.1 ≠ s.nextTask := fun e he => Nat.ne_of_lt (h.begun e he)
    have owed : s.replies.get? s.nextTask = none := h.sound.fresh.reply _ (Nat.le_refl _)
    have filed := h.filed.enter (room config) own running young owed
    refine ⟨_, .enter p hbegun own, ?_⟩
    rw [hbegun]
    refine ⟨filed, ⟨d, hresults, hnext, ?_⟩, fun _ _ _ => owed, fresh', ?_, ?_⟩
    · simpa [actor, Label.task?, Ledger.enter] using settles
    · intro u hu
      exact (executing?_of_step h.sound hu step).trans (Function.update_of_ne hu _ _).symm
    · intro e he hne
      rcases List.mem_append.mp he with he | he
      · exact replies e he hne
      · exact absurd (congrArg Prod.fst (List.mem_singleton.mp he)) hne
  · obtain ⟨hbegun, settles⟩ := settles_of_step h.history h.sound.fresh
      (fun request sink hl => hexec ⟨request, sink, hl⟩) step
    refine ⟨_, .idle hbegun, ?_⟩
    rw [hbegun, List.append_nil]
    refine ⟨h.filed, ⟨s, rfl, rfl, settles⟩, ?_, fresh',
      fun u hu => executing?_of_step h.sound hu step, replies⟩
    -- a task that takes a step is at work, and who has not begun is none of the executions
    intro e he het
    cases hl : l.task? with
    | none =>
      have hactor : s.actor l = s.nextTask := by rw [actor, hl, Option.getD_none]
      exact absurd (het.trans hactor) (Nat.ne_of_lt (h.begun e he))
    | some t =>
      obtain ⟨a, ha, -⟩ := activity_of_step hl step
      have hactor : s.actor l = t := by rw [actor, hl, Option.getD_some]
      exact hactor ▸ h.sound.fresh.owed t a ha

theorem step (h : OnFile config seen s) (step : s.step l = some s') :
    OnFile config (seen ++ s.begun l) s' := by
  obtain ⟨c, -, posts⟩ := h.posts step
  have hle := Nat.le_trans (nextTask_le_stir s l) (nextTask_le_step h.sound step)
  have within := step_keeps h.sound step (within_stir h.within) fun _ _ sound _ turn hc =>
    Scene.Within.turn sound turn hc
  refine ⟨sound_step h.sound step, within.2, ?_, posts.keeps (room config)⟩
  intro e he
  rcases List.mem_append.mp he with he | he
  · exact Nat.lt_of_lt_of_le (h.begun e he) hle
  · cases l with
    | call c =>
      have hlt : s.nextTask < s'.nextTask := nextTask_le_step h.sound step
      cases c with
      | execute request sink => exact (List.mem_singleton.mp he) ▸ hlt
      | pool | record | count | release | introspect | result | submit | stream | list | query =>
        cases he
    | resume | answer | submitted | replied | expire | alive | deliver | renew | pass => cases he

theorem run (run : (Services.init config catalog).run ls = some s) :
    OnFile config ((Services.init config catalog).gather Services.begun ls) s :=
  run_gathers (P := fun _ => True) (fun _ _ _ _ _ h hs => h.step hs) (fun _ _ => trivial) []
    (init config catalog) run

end OnFile

/-- Whatever the settings, the callers, the workers and the order of the steps: no more results are
kept than the history allows, and no two executions have one identifier. Who looks an identifier up is
told that there is nothing, or what its execution started with, as long as it has not returned, or
else just the result that it has returned, which is finished. And in the step in which an execution
returns, its result can be looked up. -/
theorem lookup_returned (config : Config) (catalog : Catalog) (ls : List Label) (s : Services)
    (run : (init config catalog).run ls = some s) :
    s.results.length ≤ max config.executionHistory 1 ∧
    (((init config catalog).gather begun ls).map (·.2.id)).Nodup ∧
    (∀ id, s.lookup id = some (.pool (.failed (.executionNotFound id))) ∨
      ∃ t p, (t, p) ∈ (init config catalog).gather begun ls ∧ p.id = id ∧
        (s.replies.get? t = none ∧ p.isFinished = false ∧ s.lookup id = some (.result p .absent) ∨
          ∃ r k, s.replies.get? t = some (.result r k) ∧ r.isFinished = true ∧
            s.lookup id = some (.result r .absent))) ∧
    ∀ l s', s.step l = some s' → ∀ t p, (t, p) ∈ (init config catalog).gather begun (ls ++ [l]) →
      s.replies.get? t = none → ∀ reply, s'.replies.get? t = some reply →
        ∃ r k, reply = .result r k ∧ r.id = p.id ∧ s'.lookup r.id = some (.result r .absent) := by
  have h := OnFile.run run
  have found : ∀ {s : Services} {id r}, s.results.get? id = some r →
      s.lookup id = some (.result r .absent) := by
    intro s id r hr
    rw [lookup_eq, hr, Option.elim_some]
  refine ⟨h.filed.bounded.length, h.filed.single, fun id => ?_, fun l s' step t p he owed reply hr => ?_⟩
  · cases hr : s.results.get? id with
    | none =>
      left
      rw [lookup_eq, hr, Option.elim_none]
    | some r =>
      obtain ⟨⟨t, p⟩, he, hid, ⟨owed, rfl⟩ | ⟨k, replied⟩⟩ := h.filed.kept id r hr
      · exact .inr ⟨t, r, he, hid, .inl ⟨owed, h.filed.started _ he, found hr⟩⟩
      · rcases h.filed.course _ he with ⟨-, owed⟩ | ⟨-, r', k', replied', -, finished⟩
        · exact absurd (owed.symm.trans replied) (by simp)
        · obtain ⟨rfl, rfl⟩ := Reply.result.inj (Option.some.inj (replied.symm.trans replied'))
          exact .inr ⟨t, p, he, hid, .inr ⟨r, k, replied, finished, found hr⟩⟩
  · rw [gather_append_singleton run] at he
    obtain ⟨c, opens, posts⟩ := h.posts step
    obtain ⟨r, k, rfl, kept⟩ := posts.returned (OnFile.room config) he
      ((congrFun opens.reply t).trans owed) hr
    rcases (posts.keeps (OnFile.room config)).course _ he with ⟨-, owed'⟩ | ⟨-, r', k', hr', hid, -⟩
    · exact absurd (owed'.symm.trans hr) (by simp)
    · obtain ⟨rfl, rfl⟩ := Reply.result.inj (Option.some.inj (hr.symm.trans hr'))
      exact ⟨r, k, rfl, hid, hid ▸ found kept⟩

/-- No code is to be executed on a kernel. -/
def idly (id : KernelId) : Label := .call (.execute ⟨id, "", none, false, true⟩ .absent)

/-- While an execution waits for its slot, another one begins and fails, for want of a kernel. -/
def displacing : List Label := booting ++ [idly (.fresh 0), idly ⟨"k"⟩, .resume 1]

/-- With room for one result the first execution is pushed out, and comes in again as it ends. -/
theorem lookup_returned_displacing :
    ∃ s s' r k, (init { executionHistory := 0 } [.python3]).run displacing = some s ∧
      s.lookup (.fresh 0) = some (.pool (.failed (.executionNotFound (.fresh 0)))) ∧
      s.step (.resume 1) = some s' ∧ s'.replies.get? 1 = some (.result r k) ∧
      s'.lookup r.id = some (.result r .absent) := by
  let p : ExecutionResult := .start (.fresh 0) (.fresh 0) none 0
  have h : ((init { executionHistory := 0 } [.python3]).run displacing).bind (fun s =>
      (s.step (.resume 1)).bind fun s' => (s'.replies.get? 1).map fun reply =>
        (s.lookup (.fresh 0), s.replies.get? 1, reply)) =
      some (some (.pool (.failed (.executionNotFound (.fresh 0)))), none,
        .result ({ p with executionCount := some 0 }.finish 0) .absent) := by
    decide
  have begins : (1, p) ∈ (init { executionHistory := 0 } [.python3]).gather begun
      (displacing ++ [.resume 1]) := by decide
  obtain ⟨s, run, h⟩ := Option.bind_eq_some_iff.mp h
  obtain ⟨s', step, h⟩ := Option.bind_eq_some_iff.mp h
  obtain ⟨reply, replied, h⟩ := Option.map_eq_some_iff.mp h
  obtain ⟨absent, h⟩ := Prod.mk.inj h
  obtain ⟨owed, rfl⟩ := Prod.mk.inj h
  obtain ⟨-, -, -, kept⟩ := lookup_returned { executionHistory := 0 } [.python3] displacing s run
  obtain ⟨r, k, hr, -, found⟩ := kept (.resume 1) s' step 1 p begins owed _ replied
  exact ⟨s, s', r, k, run, absent, step, hr ▸ replied, found⟩

end Services
end NotebookKernels
