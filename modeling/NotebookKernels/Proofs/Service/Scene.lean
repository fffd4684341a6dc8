import Mathlib.Logic.Relation
import Mathlib.Logic.Function.Basic
import NotebookKernels.Proofs.Pool.Queues
import NotebookKernels.Service.Step

/- A step of the services, taken apart.

   One step of the services may do many things: a message ends a stream, the slot is dropped, the
   kernel counted, and a removal begun. `Scene` is what can be seen of the services, and `Turn l t` is
   one small change of a scene, made for task `t` in a step with label `l`; while the task is between
   two activities it has none. `turns_of_step` says that every step is a sequence of such turns, after
   what the step does from outside (`Services.stir`). An invariant of all runs is proved from the ten
   turns and never from the code of the services. -/
namespace NotebookKernels

open Function (update)

/-- What can be seen of the services. -/
structure Scene where
  pool : Pool
  /-- What the tasks are doing. -/
  act : TaskId → Option Activity
  /-- The entries on which the tasks have a slot. -/
  slot : TaskId → Option Nat
  /-- What the calls that have ended came to. -/
  reply : TaskId → Option Reply
  /-- The next task. -/
  next : TaskId

namespace Activity

/-- Where the task stands in an operation of the pool. -/
def stage? : Activity → Option Stage
  | .pool _ s => some s
  | _ => none

/-- The entry whose channel the task uses: it submits code there or reads the events. -/
def channel? : Activity → Option Nat
  | .submitting _ i _ | .receiving _ i _ | .pausing _ i _ => some i
  | .pool .. | .querying .. => none

end Activity

namespace Call

/-- The entry whose channel a caller uses by itself, without a slot. -/
def direct? : Call → Option Nat
  | .submit i _ | .stream i _ | .list i => some i
  | _ => none

end Call

namespace Label

/-- The entry whose channel a caller uses by itself in this step. -/
def direct? : Label → Option Nat
  | .call c => c.direct?
  | _ => none

/-- The task that takes this step. A call has no task before it begins. -/
def task? : Label → Option TaskId
  | .resume t | .answer t _ | .submitted t _ | .replied t _ | .expire t => some t
  | .call _ | .alive .. | .deliver .. | .renew _ | .pass _ => none

end Label

namespace Scene

/-- The scene with this activity for the task. -/
def setAct (c : Scene) (t : TaskId) (a : Option Activity) : Scene :=
  { c with act := update c.act t a }

/-- The scene when the task makes a move inside the pool, which brings it to pool `p`. -/
def goOn (c : Scene) (t : TaskId) (w : Work) (p : Pool) (m : Move) : Scene :=
  { c with
    pool := p
    act := update c.act t (m.stage?.map (.pool w))
    slot := m.slot?.elim c.slot fun i => update c.slot t (some i) }

/-- The scene when the task's slot on the entry is given up. A busy kernel becomes idle. -/
def letGo (c : Scene) (u : TaskId) (i : Nat) : Scene :=
  { c with
    pool := (c.pool.touch i fun k =>
      if k.status = .busy then { k with status := .idle } else k).releaseSlot i
    slot := update c.slot u none }

/-- The scene with a new task that is to tear the entry's worker down. -/
def spawn (c : Scene) (i : Nat) : Scene :=
  { c with act := update c.act c.next (some (.pool .operation (.reap i))), next := c.next + 1 }

/-- The small changes of a scene in a step with label `l`, made for task `t`. -/
inductive Turn (l : Label) (t : TaskId) (c : Scene) : Scene → Prop
  /-- The task is through with an activity outside the pool. -/
  | rise (a : Activity) (was : c.act t = some a) (outside : a.stage? = none) :
      Turn l t c (c.setAct t none)
  /-- It takes up another. It uses a channel only with the slot, or because its caller does. -/
  | carry (a : Activity) (risen : c.act t = none) (outside : a.stage? = none)
      (holds : ∀ i, a.channel? = some i → c.slot t = some i ∨ l.direct? = some i)
      (owed : c.reply t = none) : Turn l t c (c.setAct t (some a))
  /-- It goes from one activity outside the pool to another on the same channel. -/
  | shift (a b : Activity) (was : c.act t = some a) (outside : a.stage? = none)
      (still : b.stage? = none) (same : b.channel? = a.channel?) :
      Turn l t c (c.setAct t (some b))
  /-- It counts an execution. -/
  | count (i : Nat) :
      Turn l t c
        { c with pool := c.pool.touch i fun k => { k with executionCount := k.executionCount + 1 } }
  /-- A slot is given up, by a task that is between two activities or has ended. -/
  | drop (u : TaskId) (i : Nat) (ended : c.act u = none) (holds : c.slot u = some i) :
      Turn l t c (c.letGo u i)
  /-- It ends. -/
  | reply (r : Reply) (risen : c.act t = none) :
      Turn l t c { c with reply := update c.reply t (some r) }
  /-- It takes a step inside the pool, and only when the step is its own. -/
  | advance (w : Work) (s : Stage) (p : Pool) (m : Move) (was : c.act t = some (.pool w s))
      (step : Pool.Advance t c.pool s p m) (own : l.task? = some t) : Turn l t c (c.goOn t w p m)
  /-- It begins an operation of the pool. Only callers set a status. -/
  | begin (w : Work) (call : PoolCall) (p : Pool) (dead : List Nat) (m : Move)
      (may : l = .call (.pool call) ∨ ∀ id status, call ≠ .updateStatus id status)
      (risen : c.act t = none) (free : c.slot t = none) (step : Pool.Opening t c.pool call p dead m)
      (owed : c.reply t = none) : Turn l t c (c.goOn t w p m)
  /-- A new task is to tear a dead worker down. -/
  | reap (i : Nat) (there : c.pool.Has i) : Turn l t c (c.spawn i)

/-- The tasks that have not begun do nothing and have nothing, and those that are doing something have
no reply yet. -/
structure Fresh (c : Scene) : Prop where
  act : ∀ t, c.next ≤ t → c.act t = none
  slot : ∀ t, c.next ≤ t → c.slot t = none
  reply : ∀ t, c.next ≤ t → c.reply t = none
  owed : ∀ t a, c.act t = some a → c.reply t = none

/-- A sequence of turns. -/
abbrev Turns (l : Label) (t : TaskId) : Scene → Scene → Prop := Relation.ReflTransGen (Turn l t)

/-- No turn takes an entry away. -/
theorem Turn.has_mono {l : Label} {t : TaskId} {c c' : Scene} (h : Turn l t c c') {i : Nat}
    (hi : c.pool.Has i) : c'.pool.Has i := by
  cases h with
  | rise | carry | shift | reply | reap => exact hi
  | count => exact (Pool.has_touch _).mpr hi
  | drop => exact Pool.has_releaseSlot.mpr ((Pool.has_touch _).mpr hi)
  | advance _ _ _ _ _ step => exact step.has_iff.mpr hi
  | begin _ _ _ _ _ _ _ _ step => exact step.has_mono hi

theorem Turns.has_mono {l : Label} {t : TaskId} {c c' : Scene} (h : Turns l t c c') {i : Nat}
    (hi : c.pool.Has i) : c'.pool.Has i := by
  induction h with
  | refl => exact hi
  | tail _ turn ih => exact turn.has_mono ih

end Scene

namespace Services

/-- What can be seen of the services. -/
def scene (s : Services) : Scene where
  pool := s.pool
  act t := s.tasks.get? t
  slot t := s.slots.get? t
  reply t := s.replies.get? t
  next := s.nextTask

/-- The scene while the task is between two activities. -/
def lifted (s : Services) (t : TaskId) : Scene := s.scene.setAct t none

/-- The task that a step is made for: a new one, if no task takes the step. -/
def actor (s : Services) (l : Label) : TaskId := l.task?.getD s.nextTask

/-- The services after what a step does from outside: a call gets the next task, a worker sends
something or dies, time passes, and a message that is read leaves its queue. -/
def stir (s : Services) : Label → Services
  | .call _ => { s with nextTask := s.nextTask + 1 }
  | .resume t => match s.tasks.get? t with
    | some (.receiving _ i _) =>
      { s with pool := s.pool.modify i fun e => { e with mail := e.mail.tail } }
    | _ => s
  | .alive i alive => { s with pool := s.pool.modify i ({ · with alive }) }
  | .deliver i m => { s with pool := s.pool.modify i fun e => { e with mail := e.mail ++ [m] } }
  | .renew i => { s with pool := s.pool.modify i ({ · with mail := [] }) }
  | .pass n => { s with pool := { s.pool with now := s.pool.now + n } }
  | .answer .. | .submitted .. | .replied .. | .expire _ => s

end Services

namespace Table

variable {κ α : Type} [DecidableEq κ]

theorem get?_set (k : κ) (a : α) (tab : Table κ α) :
    (fun l => get? l (set k a tab)) = update (fun l => get? l tab) k (some a) := by
  funext l
  by_cases h : l = k
  · subst h
    simp
  · rw [get?_set_of_ne h, Function.update_of_ne h]

theorem get?_erase (k : κ) (tab : Table κ α) :
    (fun l => get? l (erase k tab)) = update (fun l => get? l tab) k none := by
  funext l
  by_cases h : l = k
  · subst h
    simp
  · rw [get?_erase_of_ne h, Function.update_of_ne h]

end Table

namespace Services

open Scene

variable {s : Services} {l : Label} {t u : TaskId} {i : Nat} {w : Work}

theorem lifted_act : (s.lifted t).act t = none := Function.update_self ..

theorem lifted_eq_scene (h : s.tasks.get? t = none) : s.lifted t = s.scene := by
  have hact : update s.scene.act t none = s.scene.act := Function.update_eq_self_iff.mpr h.symm
  simp only [lifted, setAct, hact]

theorem scene_setTask (a : Activity) : (s.setTask t a).scene = (s.lifted t).setAct t (some a) := by
  simp only [scene, setTask, lifted, setAct, Function.update_idem, Table.get?_set]

theorem scene_finish (r : Reply) :
    (s.finish t r).scene =
      { s.lifted t with reply := update (s.lifted t).reply t (some r) } := by
  simp only [scene, finish, lifted, setAct, Table.get?_set, Table.get?_erase]

/-! ## The parts of a step -/

theorem turns_setTask {a : Activity} (outside : a.stage? = none)
    (holds : ∀ i, a.channel? = some i → s.slots.get? t = some i ∨ l.direct? = some i)
    (owed : s.replies.get? t = none) : Turns l t (s.lifted t) (s.setTask t a).scene := by
  rw [scene_setTask]
  exact .single (.carry a lifted_act outside holds owed)

theorem turns_finish (r : Reply) : Turns l t (s.lifted t) (s.finish t r).scene := by
  rw [scene_finish]
  exact .single (.reply r lifted_act)

@[simp] theorem replies_dropSlot (u : TaskId) : (s.dropSlot u).replies = s.replies := by
  unfold dropSlot
  split <;> rfl

theorem turns_dropSlot (ended : u = t ∨ s.tasks.get? u = none) :
    Turns l t (s.lifted t) ((s.dropSlot u).lifted t) := by
  unfold dropSlot
  split
  · exact .refl
  · next i hi =>
    have hrisen : (s.lifted t).act u = none := by
      by_cases h : u = t
      · exact h ▸ lifted_act
      · exact (Function.update_of_ne h _ _).trans (ended.resolve_left h)
    apply Relation.ReflTransGen.single
    have hdrop := Turn.drop (l := l) (t := t) u i hrisen hi
    simp only [letGo, lifted, scene, setAct, Table.get?_erase] at hdrop ⊢
    exact hdrop

theorem turns_countUp (i : Nat) : Turns l t (s.lifted t) ((s.countUp i).lifted t) :=
  .single (.count i)

theorem turns_conclude (k : Sink) (r : ExecutionResult) :
    Turns l t (s.lifted t) (s.conclude t k r).scene :=
  turns_finish (s := s.remember r) _

theorem turns_complete (x : Execution) : Turns l t (s.lifted t) (s.complete t x).scene :=
  turns_conclude _ _

theorem turns_fail (x : Execution) (f : Failure) : Turns l t (s.lifted t) (s.fail t x f).scene :=
  turns_conclude _ _

theorem turns_execute (x : Execution) (holds : s.slots.get? t = some i)
    (owed : s.replies.get? t = none) : Turns l t (s.lifted t) (s.execute t i x).scene := by
  unfold execute
  dsimp only
  split
  · exact (turns_dropSlot (.inl rfl)).trans (turns_complete _)
  · refine turns_setTask rfl ?_ owed
    intro j hj
    exact .inl (holds.trans hj)

theorem turns_list (holds : s.slots.get? t = some i ∨ l.direct? = some i)
    (owed : s.replies.get? t = none) : Turns l t (s.lifted t) (s.list t i).scene := by
  unfold list
  split
  · exact (turns_dropSlot (.inl rfl)).trans (turns_finish _)
  · refine turns_setTask rfl ?_ owed
    intro j hj
    obtain rfl := Option.some.inj hj
    exact holds

/-- The services go on as the move says. -/
theorem turns_move (p : Pool) (m : Move) (owed : s.replies.get? t = none) :
    Turns l t (s.scene.goOn t w p m) (({ s with pool := p } : Services).move t w m).scene := by
  cases m with
  | wait st =>
    have h : (({ s with pool := p } : Services).move t w (.wait st)).scene =
        s.scene.goOn t w p (.wait st) := by
      simp only [move, scene_setTask, goOn, lifted, setAct, Function.update_idem]
      rfl
    exact h ▸ .refl
  | finish o =>
    by_cases ho : ∃ i, o = .slot i
    · obtain ⟨i, rfl⟩ := ho
      let s' : Services := { s with pool := p, slots := s.slots.set t i }
      have hs' : s.scene.goOn t w p (.finish (.slot i)) = s'.lifted t := by
        simp only [goOn, Move.stage?, Move.slot?, Option.map, Option.elim, lifted, scene, setAct, s',
          Table.get?_set]
      rw [hs']
      have holds : s'.slots.get? t = some i := Table.get?_set_self ..
      cases w with
      | execution x => exact turns_execute x holds owed
      | introspection => exact turns_list (.inl holds) owed
      | operation | listing | stream | submission => exact turns_finish _
    · -- without a slot there is nothing to go on with
      let s' : Services := { s with pool := p }
      have hgo : s.scene.goOn t w p (.finish o) = s'.lifted t := by
        cases o with
        | slot i => exact absurd ⟨i, rfl⟩ ho
        | _ => rfl
      rw [hgo]
      cases w with
      | execution x =>
        cases o with
        | slot i => exact absurd ⟨i, rfl⟩ ho
        | failed f => exact turns_fail x f
        | done | kernel | kernels | removed | flag | channel => exact turns_complete x
      | introspection =>
        cases o with
        | slot i => exact absurd ⟨i, rfl⟩ ho
        | done | kernel | kernels | removed | flag | channel | failed => exact turns_finish _
      | operation | listing | stream | submission =>
        cases o with
        | slot i => exact absurd ⟨i, rfl⟩ ho
        | done | kernel | kernels | removed | flag | channel | failed => exact turns_finish _

theorem turns_reap (dead : List Nat) (there : ∀ i ∈ dead, s.pool.Has i) :
    Turns l t s.scene (s.reap dead).scene := by
  induction dead generalizing s with
  | nil => exact .refl
  | cons i r ih =>
    let s' : Services :=
      { s with
        tasks := s.tasks.set s.nextTask (.pool .operation (.reap i))
        nextTask := s.nextTask + 1 }
    have hturn : Turn l t s.scene s'.scene := by
      have h := Turn.reap (l := l) (t := t) (c := s.scene) i (there i (List.mem_cons_self ..))
      simp only [spawn, scene, s', Table.get?_set] at h ⊢
      exact h
    exact (Relation.ReflTransGen.single hturn).trans
      (ih (s := s') fun j hj => there j (List.mem_cons_of_mem _ hj))

theorem turns_startPool {call : PoolCall}
    (may : l = .call (.pool call) ∨ ∀ id status, call ≠ .updateStatus id status)
    (free : s.slots.get? t = none) (owed : s.replies.get? t = none) :
    Turns l t (s.lifted t) (s.startPool t w call).scene := by
  let b := s.pool.start s.catalog t call
  have step : Pool.Opening t s.pool call b.pool b.dead b.move := Pool.opening_of_start
  have hbegin : Turn l t (s.lifted t) ((s.lifted t).goOn t w b.pool b.move) :=
    .begin w call b.pool b.dead b.move may lifted_act free step owed
  have hgo : (s.lifted t).goOn t w b.pool b.move = s.scene.goOn t w b.pool b.move := by
    simp only [goOn, lifted, setAct, Function.update_idem]
  rw [hgo] at hbegin
  have hmove : Turns l t (s.scene.goOn t w b.pool b.move)
      (({ s with pool := b.pool } : Services).move t w b.move).scene := turns_move b.pool b.move owed
  refine ((Relation.ReflTransGen.single hbegin).trans hmove).trans (turns_reap _ ?_)
  intro i hi
  exact hmove.has_mono (step.has_dead hi)

theorem slots_dropSlot : (s.dropSlot t).slots.get? t = none := by
  unfold dropSlot
  split
  · next h => exact h
  · exact Table.get?_erase_self ..

theorem turns_endStream (owed : s.replies.get? t = none) :
    Turns l t (s.lifted t) (s.endStream t i w).scene := by
  cases w with
  | execution x =>
    have hcount : Turns l t (s.lifted t) ((if x.request.silent then s else s.countUp i).lifted t) := by
      split
      · exact .refl
      · exact turns_countUp i
    refine hcount.trans ((turns_dropSlot (.inl rfl)).trans ?_)
    have owed' : (if x.request.silent then s else s.countUp i).replies.get? t = none := by
      split <;> exact owed
    simp only [endStream]
    generalize (if x.request.silent then s else s.countUp i) = s' at owed'
    split
    · refine turns_startPool (.inr ?_) slots_dropSlot (by rwa [replies_dropSlot])
      intro id status h
      cases h
    · exact turns_complete _
  | listing => exact (turns_dropSlot (.inl rfl)).trans (turns_finish _)
  | stream | operation | introspection | submission => exact turns_finish _

theorem turns_rise {a : Activity} (was : s.tasks.get? t = some a) (outside : a.stage? = none) :
    Turns l t s.scene (s.lifted t) := .single (.rise a was outside)

theorem turns_shift {a b : Activity} (was : s.tasks.get? t = some a) (outside : a.stage? = none)
    (still : b.stage? = none) (same : b.channel? = a.channel?) :
    Turns l t s.scene (s.setTask t b).scene := by
  have h := Turn.shift (l := l) (t := t) (c := s.scene) a b was outside still same
  rw [scene_setTask]
  simp only [lifted, setAct, Function.update_idem] at h ⊢
  exact .single h

theorem turns_receive {r : RequestId} (m : Mail) (was : s.tasks.get? t = some (.receiving w i r))
    (owed : s.replies.get? t = none) : Turns l t s.scene (s.receive t w i r m).scene := by
  unfold receive
  split
  · exact turns_shift was rfl rfl rfl
  · exact turns_shift was rfl rfl rfl
  · exact (turns_rise was rfl).trans (turns_endStream owed)
  · exact (turns_rise was rfl).trans (turns_endStream owed)

theorem turns_start {c : Call} (free : s.slots.get? t = none) (owed : s.replies.get? t = none) :
    Turns (.call c) t (s.lifted t) (s.start t c).scene := by
  cases c with
  | pool c => exact turns_startPool (.inl rfl) free owed
  | record u =>
    simp only [start]
    split
    · exact turns_finish _
    · next i hi => exact (turns_countUp i).trans (turns_finish _)
  | count u =>
    simp only [start]
    split <;> exact turns_finish _
  | release u =>
    simp only [start]
    split
    · exact turns_finish _
    · next i hi =>
      have hu : s.tasks.get? u = none := by
        unfold held? at hi
        cases h : s.tasks.get? u with
        | none => rfl
        | some a => simp [h] at hi
      exact (turns_dropSlot (.inr hu)).trans (turns_finish _)
  | execute request k =>
    refine turns_startPool (s := { s with nextExecution := s.nextExecution + 1 }.remember _)
      (.inr ?_) free owed
    intro id status h
    cases h
  | introspect id =>
    refine turns_startPool (.inr ?_) free owed
    intro id status h
    cases h
  | result id =>
    simp only [start]
    split <;> exact turns_finish _
  | submit i code => exact turns_setTask rfl (fun j hj => .inr hj) owed
  | stream i r => exact turns_setTask rfl (fun j hj => .inr hj) owed
  | list i => exact turns_list (.inr rfl) owed
  | query i r =>
    refine turns_setTask rfl ?_ owed
    intro j hj
    cases hj

theorem turns_advance {st : Stage} {p : Pool} {m : Move}
    (was : s.tasks.get? t = some (.pool w st)) (step : Pool.Advance t s.pool st p m)
    (own : l.task? = some t) (owed : s.replies.get? t = none) :
    Turns l t s.scene (({ s with pool := p } : Services).move t w m).scene :=
  (Relation.ReflTransGen.single (.advance w st p m was step own)).trans (turns_move p m owed)

theorem turns_answer {a : Activity} {ans : Answer} {s' : Services} (was : s.tasks.get? t = some a)
    (own : a.stage? = none ∨ l.task? = some t) (owed : s.replies.get? t = none)
    (h : s.answer t a ans = some s') : Turns l t s.scene s'.scene := by
  cases a with
  | pool w st =>
    obtain ⟨⟨p, m⟩, hstep, rfl⟩ := Option.map_eq_some_iff.mp h
    exact turns_advance was (Pool.advance_of_answer hstep) (own.resolve_left (by simp [Activity.stage?]))
      owed
  | submitting w i code =>
    have hrise := turns_rise (l := l) was rfl
    cases ans with
    | failed f =>
      cases w with
      | execution x =>
        obtain rfl := Option.some.inj h
        exact (hrise.trans (turns_dropSlot (.inl rfl))).trans (turns_fail _ _)
      | operation | introspection | listing | stream | submission =>
        obtain rfl := Option.some.inj h
        exact (hrise.trans (turns_dropSlot (.inl rfl))).trans (turns_finish _)
    | ok | elapsed => simp [answer] at h
  | querying i r =>
    cases ans with
    | failed f =>
      obtain rfl := Option.some.inj h
      exact (turns_rise was rfl).trans (turns_finish _)
    | ok | elapsed => simp [answer] at h
  | receiving w i r =>
    cases ans with
    | failed f =>
      obtain rfl := Option.some.inj h
      exact turns_receive _ was owed
    | elapsed =>
      obtain rfl := Option.some.inj h
      exact turns_shift was rfl rfl rfl
    | ok => simp [answer] at h
  | pausing w i r =>
    cases ans with
    | elapsed =>
      obtain rfl := Option.some.inj h
      exact turns_shift was rfl rfl rfl
    | ok | failed => simp [answer] at h

theorem turns_accept {a : Activity} {r : RequestId} {s' : Services}
    (was : s.tasks.get? t = some a) (h : s.accept t r a = some s') :
    Turns l t s.scene s'.scene := by
  cases a with
  | submitting w i code =>
    cases w with
    | submission =>
      obtain rfl := Option.some.inj h
      exact (turns_rise was rfl).trans (turns_finish _)
    | operation | execution | introspection | listing | stream =>
      obtain rfl := Option.some.inj h
      exact turns_shift was rfl rfl rfl
  | pool | querying | receiving | pausing => simp [accept] at h

theorem turns_take {a : Activity} {v : Json} {s' : Services} (was : s.tasks.get? t = some a)
    (h : s.take t v a = some s') : Turns l t s.scene s'.scene := by
  cases a with
  | querying =>
    obtain rfl := Option.some.inj h
    exact (turns_rise was rfl).trans (turns_finish _)
  | pool | submitting | receiving | pausing => simp [take] at h

theorem turns_expire {a : Activity} {s' : Services} (was : s.tasks.get? t = some a)
    (owed : s.replies.get? t = none) (h : s.expire t a = some s') : Turns l t s.scene s'.scene := by
  cases a with
  | receiving w | pausing w =>
    cases w with
    | listing =>
      obtain rfl := Option.some.inj h
      exact (turns_rise was rfl).trans (turns_endStream owed)
    | operation | execution | introspection | stream | submission => simp [expire] at h
  | pool | submitting | querying => simp [expire] at h

theorem turns_resume {a : Activity} {s' : Services} (was : s.tasks.get? t = some a)
    (own : a.stage? = none ∨ l.task? = some t) (owed : s.replies.get? t = none)
    (h : s.resume t a = some s') : Turns l t (s.stir (.resume t)).scene s'.scene := by
  cases a with
  | pool w st =>
    have hstir : s.stir (.resume t) = s := by simp only [stir, was]
    obtain ⟨⟨p, m⟩, hstep, rfl⟩ := Option.map_eq_some_iff.mp h
    rw [hstir]
    exact turns_advance was (Pool.advance_of_step hstep) (own.resolve_left (by simp [Activity.stage?]))
      owed
  | receiving w i r =>
    have hstir : s.stir (.resume t) =
        { s with pool := s.pool.modify i fun e => { e with mail := e.mail.tail } } := by
      simp only [stir, was]
    rw [hstir]
    simp only [resume] at h
    split at h
    · cases h
    · next m rest hmail =>
      obtain rfl := Option.some.inj h
      -- the item that is read has left the queue in `stir` already
      have hpool : s.pool.modify i ({ · with mail := rest }) =
          s.pool.modify i fun e => { e with mail := e.mail.tail } := by
        apply Pool.modify_congr
        intro e he
        have hm : e.mail = m :: rest := by simpa [he] using hmail
        simp [hm]
      rw [hpool]
      exact turns_receive m was owed
  | submitting | querying | pausing => simp [resume] at h

/-! ## Whole steps -/

/-- A step makes its turns, for the task that it is made for, after what it does from outside. -/
theorem turns_of_step {s' : Services} (fresh : s.scene.Fresh) (h : s.step l = some s') :
    Turns l (s.actor l) (s.stir l).scene s'.scene := by
  cases l with
  | call c =>
    obtain rfl := Option.some.inj h
    have hlift : ({ s with nextTask := s.nextTask + 1 } : Services).lifted s.nextTask =
        ({ s with nextTask := s.nextTask + 1 } : Services).scene := lifted_eq_scene (fresh.act _ (Nat.le_refl _))
    exact hlift ▸ turns_start (fresh.slot _ (Nat.le_refl _)) (fresh.reply _ (Nat.le_refl _))
  | resume t =>
    obtain ⟨a, was, h⟩ := Option.bind_eq_some_iff.mp h
    exact turns_resume was (.inr rfl) (fresh.owed _ _ was) h
  | answer t ans =>
    obtain ⟨a, was, h⟩ := Option.bind_eq_some_iff.mp h
    exact turns_answer was (.inr rfl) (fresh.owed _ _ was) h
  | submitted t r =>
    obtain ⟨a, was, h⟩ := Option.bind_eq_some_iff.mp h
    exact turns_accept was h
  | replied t v =>
    obtain ⟨a, was, h⟩ := Option.bind_eq_some_iff.mp h
    exact turns_take was h
  | expire t =>
    obtain ⟨a, was, h⟩ := Option.bind_eq_some_iff.mp h
    exact turns_expire was (fresh.owed _ _ was) h
  | alive | deliver | renew | pass =>
    obtain rfl := Option.some.inj h
    exact .refl

end Services
end NotebookKernels
