import NotebookKernels.Proofs.Service.History

/- The course of an execution.

   An execution acquires a slot, submits its code, reads what the code sends, and ends; after a failure
   of the transport it first removes the kernel if it is dead. `Phase` says how far it is, with all
   that it has gathered; `Exchange` is what passes between it and the pool and the transport; and
   `Phase.Next` has one rule for every way in which a phase ends or goes on. `next_of_step` says that the
   services take no other course, whatever else happens between the steps of the task. -/
namespace NotebookKernels

namespace Stage

/-- The task acquires a slot. -/
def Acquires : Stage → Prop
  | .acquireLock _ | .acquireSlot _ => True
  | _ => False

/-- The task removes a kernel if it is dead. -/
def Prunes : Stage → Prop
  | .structure (.removeIfDead _) | .sweep (.removeIfDead _) .. | .closing (.removeIfDead _) ..
  | .stopping (.removeIfDead _) .. => True
  | _ => False

end Stage

namespace Pool

variable {p p' : Pool} {t : TaskId} {s : Stage} {m : Move}

/-- An acquisition ends with a slot or with a failure. -/
theorem Advance.acquires (h : Advance t p s p' m) (hs : s.Acquires) :
    (∃ s', m = .wait s' ∧ s'.Acquires) ∨ (∃ i, m = .finish (.slot i)) ∨
      ∃ f, m = .finish (.failed f) := by
  cases h with
  | queue i => exact .inl ⟨_, rfl, trivial⟩
  | grant i => exact .inr (.inl ⟨i, rfl⟩)
  | refuse i => exact .inr (.inr ⟨_, rfl⟩)
  | abandon _ _ _ was | restartFailed _ _ _ was => obtain rfl | rfl := was <;> exact False.elim hs
  | _ => exact False.elim hs

/-- An acquisition begins by waiting, or it fails at once. -/
theorem start_acquire (p : Pool) (catalog : Catalog) (t : TaskId) (id : KernelId) :
    (∃ i, (p.start catalog t (.acquire id)).move = .wait (.acquireLock i)) ∨
      ∃ f, (p.start catalog t (.acquire id)).move = .finish (.failed f) := by
  simp only [start, withLive]
  split
  · exact .inr ⟨_, rfl⟩
  · split
    · exact .inr ⟨_, rfl⟩
    · exact .inl ⟨_, rfl⟩

/-- A removal ends with an answer, and never with a slot or a failure. -/
theorem Advance.prunes (h : Advance t p s p' m) (hs : s.Prunes) :
    (∃ s', m = .wait s' ∧ s'.Prunes) ∨ ∃ b, m = .finish (.flag b) := by
  have errand : ∀ {e : Errand}, (Stage.structure e).Prunes → ∃ id, e = .removeIfDead id := by
    intro e he
    cases e with
    | removeIfDead id => exact ⟨id, rfl⟩
    | _ => exact False.elim he
  cases h with
  | enter e | spare e | gone e | forget e | close e | stop e | stopped e =>
    obtain ⟨id, rfl⟩ : ∃ id, e = .removeIfDead id := errand (by cases e <;> exact hs)
    exact .inl ⟨_, rfl, trivial⟩
  | conclude e found =>
    obtain ⟨id, rfl⟩ : ∃ id, e = .removeIfDead id := errand (by cases e <;> exact hs)
    exact .inr ⟨_, rfl⟩
  | abandon _ _ _ was | restartFailed _ _ _ was => obtain rfl | rfl := was <;> exact False.elim hs
  | _ => exact False.elim hs

end Pool

/-- What passes between an execution and the pool and the transport. -/
inductive Exchange where
  /-- The pool grants it the slot of an entry. -/
  | acquired (i : Nat)
  /-- The pool has no slot for it. -/
  | refused (f : Failure)
  /-- It submits code on an entry's channel. -/
  | submitted (i : Nat) (code : Code)
  /-- The worker accepts the code as this request. -/
  | accepted (r : RequestId)
  /-- The code cannot be submitted. -/
  | rejected (f : Failure)
  /-- It takes an item from the event queue, or learns that the transport failed. -/
  | received (m : Mail)
  deriving DecidableEq, Repr

/-- What the pool tells a task with its move. -/
def Move.exchanges : Move → List Exchange
  | .finish (.slot i) => [.acquired i]
  | .finish (.failed f) => [.refused f]
  | _ => []

namespace Services

/-- What the pool and the transport tell the task in a step. -/
def told (t : TaskId) (s : Services) (l : Label) : List Exchange :=
  match l, s.tasks.get? t with
  | .call (.execute request _), _ =>
    if t = s.nextTask then (s.pool.start s.catalog t (.acquire request.kernel)).move.exchanges else []
  | .resume u, some (.pool _ stage) =>
    if u = t then (s.pool.step t stage).elim [] (·.2.exchanges) else []
  | .resume u, some (.receiving _ i _) =>
    if u = t then (s.pool.mail i).head?.toList.map .received else []
  | .answer u a, some (.pool _ stage) =>
    if u = t then (s.pool.answer t stage a).elim [] (·.2.exchanges) else []
  | .answer u (.failed f), some (.submitting ..) => if u = t then [.rejected f] else []
  | .answer u (.failed f), some (.receiving ..) => if u = t then [.received (.failure f)] else []
  | .submitted u r, some (.submitting ..) => if u = t then [.accepted r] else []
  | _, _ => []

/-- What a task submits by going from one activity to the next. -/
def submits : Option Activity → Option Activity → List Exchange
  | some (.submitting ..), _ => []
  | _, some (.submitting _ i code) => [.submitted i code]
  | _, _ => []

/-- What passes between the task and the pool and the transport in a step. -/
def exchanges (t : TaskId) (s : Services) (l : Label) : List Exchange :=
  s.told t l ++ (s.step l).elim [] fun s' => submits (s.tasks.get? t) (s'.tasks.get? t)

end Services

namespace ExecuteRequest

/-- The request's submission with its directives expanded. -/
def submission (r : ExecuteRequest) : Submission := Submission.process r.code.toList

/-- The notices of the directives, as output. -/
def notice (r : ExecuteRequest) : List OutputEvent :=
  (r.submission.immediate.map fun notices => .stdout (String.ofList (Notices.render notices))).toList

/-- The code that is submitted. -/
def toSubmit (r : ExecuteRequest) : Code :=
  ⟨String.ofList r.submission.code, r.silent, r.storeHistory⟩

end ExecuteRequest

namespace Execution

/-- The execution with the notices of its directives taken in. -/
def noticed (x : Execution) : Execution := x.request.notice.foldl take x

/-- The execution with its kernel's count. -/
def counted (x : Execution) (n : Nat) : Execution :=
  { x with result := { x.result with executionCount := some n } }

end Execution

/-- How far an execution is. -/
inductive Phase where
  | acquiring (x : Execution)
  | submitting (x : Execution) (i : Nat) (code : Code)
  | reading (x : Execution) (i : Nat) (r : RequestId)
  /-- The transport failed, and a dead kernel is to be removed. -/
  | removing (x : Execution)
  | ended (r : ExecutionResult) (k : Sink)

/-- The items of the event queue that end a stream, with what the execution is then. -/
inductive Closes (r : RequestId) (x : Execution) (m : Mail) : Execution → Prop
  | ended (h : m.deliveryFor r = .ended) : Closes r x m x
  | broken (e : OutputEvent) (h : m.deliveryFor r = .broken e) : Closes r x m (x.take e)

/-- What may follow on a phase, and what passes then. -/
inductive Phase.Next : Phase → List Exchange → Phase → Prop
  /-- Nothing that concerns the execution happens. -/
  | stay (φ : Phase) : Next φ [] φ
  | refused (x : Execution) (f : Failure) (now : Nat) :
      Next (.acquiring x) [.refused f] (.ended (x.result.fail f now) x.sink)
  /-- Nothing is left to submit. -/
  | blank (x : Execution) (i n now : Nat) (h : x.request.submission.code.allBlank = true) :
      Next (.acquiring x) [.acquired i]
        (.ended ((x.noticed.counted n).result.finish now) x.noticed.sink)
  | submit (x : Execution) (i : Nat) (h : x.request.submission.code.allBlank = false) :
      Next (.acquiring x) [.acquired i, .submitted i x.request.toSubmit]
        (.submitting x.noticed i x.request.toSubmit)
  | rejected (x : Execution) (i : Nat) (code : Code) (f : Failure) (now : Nat) :
      Next (.submitting x i code) [.rejected f] (.ended (x.result.fail f now) x.sink)
  | accepted (x : Execution) (i : Nat) (code : Code) (r : RequestId) :
      Next (.submitting x i code) [.accepted r] (.reading x i r)
  /-- The item is for another request. -/
  | skip (x : Execution) (i : Nat) (r : RequestId) (m : Mail) (h : m.deliveryFor r = .skip) :
      Next (.reading x i r) [.received m] (.reading x i r)
  | output (x : Execution) (i : Nat) (r : RequestId) (m : Mail) (e : OutputEvent)
      (h : m.deliveryFor r = .output e) :
      Next (.reading x i r) [.received m] (.reading (x.take e) i r)
  | close (x y : Execution) (i : Nat) (r : RequestId) (m : Mail) (n now : Nat) (h : Closes r x m y)
      (sound : y.broken = false) :
      Next (.reading x i r) [.received m] (.ended ((y.counted n).result.finish now) y.sink)
  | fail (x y : Execution) (i : Nat) (r : RequestId) (m : Mail) (n : Nat) (h : Closes r x m y)
      (broken : y.broken = true) :
      Next (.reading x i r) [.received m] (.removing (y.counted n))
  | removed (x : Execution) (now : Nat) :
      Next (.removing x) [] (.ended (x.result.finish now) x.sink)

namespace Services

/-- The task is an execution in this phase. -/
def Shows (s : Services) (t : TaskId) : Phase → Prop
  | .acquiring x => s.replies.get? t = none ∧
      ∃ stage, s.tasks.get? t = some (.pool (.execution x) stage) ∧ stage.Acquires
  | .submitting x i code => s.replies.get? t = none ∧
      s.tasks.get? t = some (.submitting (.execution x) i code)
  | .reading x i r => s.replies.get? t = none ∧
      (s.tasks.get? t = some (.receiving (.execution x) i r) ∨
        s.tasks.get? t = some (.pausing (.execution x) i r))
  | .removing x => s.replies.get? t = none ∧
      ∃ stage, s.tasks.get? t = some (.pool (.execution x) stage) ∧ stage.Prunes
  | .ended r k => s.replies.get? t = some (.result r k) ∧ s.tasks.get? t = none

variable {s s' : Services} {t : TaskId} {l : Label} {φ : Phase} {x : Execution} {i : Nat}
  {r : RequestId}

/-! ## The parts of a step, for an execution -/

theorem shows_conclude (k : Sink) (r : ExecutionResult) :
    (s.conclude t k r).Shows t (.ended r k) :=
  ⟨Table.get?_set_self .., Table.get?_erase_self ..⟩

theorem tasks_conclude (k : Sink) (r : ExecutionResult) :
    (s.conclude t k r).tasks.get? t = none := Table.get?_erase_self ..

/-- Tearing dead workers down is not the work of a task that has begun. -/
theorem reap_of_lt (dead : List Nat) (ht : t < s.nextTask) :
    (s.reap dead).tasks.get? t = s.tasks.get? t ∧
      (s.reap dead).replies.get? t = s.replies.get? t := by
  induction dead generalizing s with
  | nil => exact ⟨rfl, rfl⟩
  | cons i dead ih =>
    let s₁ : Services :=
      { s with
        tasks := s.tasks.set s.nextTask (.pool .operation (.reap i))
        nextTask := s.nextTask + 1 }
    obtain ⟨htasks, hreplies⟩ := ih (s := s₁) (Nat.lt_succ_of_lt ht)
    exact ⟨htasks.trans (Table.get?_set_of_ne (Nat.ne_of_lt ht) _ _), hreplies⟩

theorem shows_reap (dead : List Nat) (ht : t < s.nextTask) (h : s.Shows t φ) :
    (s.reap dead).Shows t φ := by
  obtain ⟨htasks, hreplies⟩ := reap_of_lt dead ht
  cases φ <;> simpa only [Shows, htasks, hreplies] using h

theorem noticed_eq (x : Execution) :
    x.noticed = match x.request.submission.immediate with
      | none => x
      | some notices => x.take (.stdout (String.ofList (Notices.render notices))) := by
  unfold Execution.noticed ExecuteRequest.notice
  cases x.request.submission.immediate <;> rfl

theorem request_noticed (x : Execution) : x.noticed.request = x.request := by
  rw [noticed_eq]
  split <;> rfl

theorem execute_eq (x : Execution) :
    s.execute t i x =
      if x.request.submission.code.allBlank then
        (s.dropSlot t).complete t (x.noticed.counted (s.countOf i))
      else s.setTask t (.submitting (.execution x.noticed) i x.request.toSubmit) := by
  have h : s.execute t i x =
      if x.request.submission.code.allBlank then
        (s.dropSlot t).complete t (x.noticed.counted (s.countOf i))
      else s.setTask t (.submitting (.execution x.noticed) i
        ⟨String.ofList x.request.submission.code, x.noticed.request.silent,
          x.noticed.request.storeHistory⟩) := by
    rw [noticed_eq]
    rfl
  rw [h, request_noticed]
  rfl

/-- An execution that has been granted a slot is over, or submits. -/
theorem next_of_execute (fresh : s.replies.get? t = none) (x : Execution) (i : Nat) :
    ∃ φ', (s.execute t i x).Shows t φ' ∧
      Phase.Next (.acquiring x)
        (.acquired i :: submits none ((s.execute t i x).tasks.get? t)) φ' := by
  rw [execute_eq]
  split
  · next h =>
    refine ⟨_, shows_conclude .., ?_⟩
    have hnone : ((s.dropSlot t).complete t (x.noticed.counted (s.countOf i))).tasks.get? t = none :=
      tasks_conclude ..
    rw [hnone]
    exact .blank x i _ _ h
  · next h =>
    have hset : (s.setTask t (.submitting (.execution x.noticed) i x.request.toSubmit)).tasks.get? t =
        some (.submitting (.execution x.noticed) i x.request.toSubmit) := Table.get?_set_self ..
    refine ⟨.submitting x.noticed i x.request.toSubmit, ⟨fresh, hset⟩, ?_⟩
    rw [hset]
    exact .submit x i (by simpa using h)

/-- The services when an execution has been counted, unless it is silent. -/
def counting (s : Services) (i : Nat) (x : Execution) : Services :=
  if x.request.silent then s else s.countUp i

theorem replies_counting (x : Execution) : (s.counting i x).replies = s.replies := by
  unfold counting
  split <;> rfl

theorem endStream_eq (x : Execution) :
    s.endStream t i (.execution x) =
      if x.broken then
        ((s.counting i x).dropSlot t).startPool t
          (.execution (x.counted ((s.counting i x).countOf i))) (.removeIfDead x.request.kernel)
      else ((s.counting i x).dropSlot t).complete t (x.counted ((s.counting i x).countOf i)) := rfl

/-- An execution whose stream has ended is over, or has its kernel removed if it is dead. -/
theorem next_of_endStream (fresh : s.replies.get? t = none) {y : Execution} {m : Mail}
    (h : Closes r x m y) :
    ∃ φ', (s.endStream t i (.execution y)).Shows t φ' ∧
      Phase.Next (.reading x i r) [.received m] φ' := by
  rw [endStream_eq]
  split
  · next hb =>
    refine ⟨.removing (y.counted ((s.counting i y).countOf i)),
      ⟨?_, _, Table.get?_set_self .., trivial⟩, .fail x y i r m _ h hb⟩
    show ((s.counting i y).dropSlot t).replies.get? t = none
    rw [replies_dropSlot, replies_counting]
    exact fresh
  · next hb =>
    exact ⟨_, shows_conclude .., .close x y i r m _ _ h (by simpa using hb)⟩

theorem next_of_receive (fresh : s.replies.get? t = none) (x : Execution) (i : Nat) (r : RequestId)
    (m : Mail) :
    ∃ φ', (s.receive t (.execution x) i r m).Shows t φ' ∧
      Phase.Next (.reading x i r) [.received m] φ' := by
  unfold receive
  cases h : m.deliveryFor r with
  | skip =>
    exact ⟨.reading x i r, ⟨fresh, .inl (Table.get?_set_self ..)⟩, .skip x i r m h⟩
  | output e =>
    exact ⟨.reading (x.take e) i r, ⟨fresh, .inl (Table.get?_set_self ..)⟩, .output x i r m e h⟩
  | ended => exact next_of_endStream fresh (.ended h)
  | broken e => exact next_of_endStream fresh (.broken e h)

/-! ## Whole steps -/

/-- Only an execution that begins to submit submits. -/
theorem submits_eq_nil (h : s.Shows t φ) (hφ : ∀ x i code, φ ≠ .submitting x i code)
    (a : Option Activity) : submits a (s.tasks.get? t) = [] := by
  have hnot : ∀ w i code, s.tasks.get? t ≠ some (.submitting w i code) := by
    intro w i code hsub
    cases φ with
    | submitting x i code => exact hφ x i code rfl
    | acquiring | removing =>
      obtain ⟨-, stage, hst, -⟩ := h
      exact absurd (hsub.symm.trans hst) (by simp)
    | reading =>
      obtain ⟨-, hst | hst⟩ := h
      · exact absurd (hsub.symm.trans hst) (by simp)
      · exact absurd (hsub.symm.trans hst) (by simp)
    | ended => exact absurd (hsub.symm.trans h.2) (by simp)
  unfold submits
  split
  · rfl
  · next hsub => exact absurd hsub (hnot _ _ _)
  · rfl

theorem submits_self (a : Option Activity) : submits a a = [] := by
  cases a with
  | none => rfl
  | some a => cases a <;> rfl

theorem submits_pool (w : Work) (stage : Stage) (a : Option Activity) :
    submits (some (.pool w stage)) a = submits none a := by
  cases a with
  | none => rfl
  | some a => cases a <;> rfl

/-- The steps of other tasks are nothing to an execution. -/
theorem exchanges_of_frame (ht : t < s.nextTask) (hne : l.task? ≠ some t)
    (step : s.step l = some s') (frame : s'.tasks.get? t = s.tasks.get? t) :
    s.exchanges t l = [] := by
  have htold : s.told t l = [] := by
    unfold told
    split
    · exact if_neg (Nat.ne_of_lt ht)
    · exact if_neg fun h => hne (congrArg some h)
    · exact if_neg fun h => hne (congrArg some h)
    · exact if_neg fun h => hne (congrArg some h)
    · exact if_neg fun h => hne (congrArg some h)
    · exact if_neg fun h => hne (congrArg some h)
    · exact if_neg fun h => hne (congrArg some h)
    · rfl
  rw [exchanges, htold, step, Option.elim_some, frame, submits_self]
  rfl

theorem exchanges_of_step (step : s.step l = some s') :
    s.exchanges t l = s.told t l ++ submits (s.tasks.get? t) (s'.tasks.get? t) := by
  rw [exchanges, step, Option.elim_some]

/-- A label of a task's own step needs an activity of the task. -/
theorem activity_of_step (hl : l.task? = some t) (step : s.step l = some s') :
    ∃ a, s.tasks.get? t = some a ∧
      (l = .resume t ∧ s.resume t a = some s' ∨
        (∃ ans, l = .answer t ans ∧ s.answer t a ans = some s') ∨
        (∃ r, l = .submitted t r ∧ s.accept t r a = some s') ∨
        (∃ v, l = .replied t v ∧ s.take t v a = some s') ∨
        l = .expire t ∧ s.expire t a = some s') := by
  cases l with
  | resume u =>
    obtain rfl := Option.some.inj hl
    obtain ⟨a, ha, h⟩ := Option.bind_eq_some_iff.mp step
    exact ⟨a, ha, .inl ⟨rfl, h⟩⟩
  | answer u ans =>
    obtain rfl := Option.some.inj hl
    obtain ⟨a, ha, h⟩ := Option.bind_eq_some_iff.mp step
    exact ⟨a, ha, .inr (.inl ⟨ans, rfl, h⟩)⟩
  | submitted u r =>
    obtain rfl := Option.some.inj hl
    obtain ⟨a, ha, h⟩ := Option.bind_eq_some_iff.mp step
    exact ⟨a, ha, .inr (.inr (.inl ⟨r, rfl, h⟩))⟩
  | replied u v =>
    obtain rfl := Option.some.inj hl
    obtain ⟨a, ha, h⟩ := Option.bind_eq_some_iff.mp step
    exact ⟨a, ha, .inr (.inr (.inr (.inl ⟨v, rfl, h⟩)))⟩
  | expire u =>
    obtain rfl := Option.some.inj hl
    obtain ⟨a, ha, h⟩ := Option.bind_eq_some_iff.mp step
    exact ⟨a, ha, .inr (.inr (.inr (.inr ⟨rfl, h⟩)))⟩
  | call | alive | deliver | renew | pass => cases hl

/-- A step of the pool, taken by the task itself or because a call to a worker ended. -/
theorem move_of_step {w : Work} {stage : Stage} (hl : l.task? = some t)
    (was : s.tasks.get? t = some (.pool w stage)) (step : s.step l = some s') :
    ∃ p m, Pool.Advance t s.pool stage p m ∧ s' = ({ s with pool := p } : Services).move t w m ∧
      s.told t l = m.exchanges ∧ s.strides l = [⟨t, stage, m⟩] := by
  obtain ⟨a, ha, h⟩ := activity_of_step hl step
  obtain rfl := Option.some.inj (was.symm.trans ha)
  rcases h with ⟨rfl, h⟩ | ⟨ans, rfl, h⟩ | ⟨r, rfl, h⟩ | ⟨v, rfl, h⟩ | ⟨rfl, h⟩
  · obtain ⟨⟨p, m⟩, hstep, rfl⟩ := Option.map_eq_some_iff.mp h
    refine ⟨p, m, Pool.advance_of_step hstep, rfl, ?_, ?_⟩
    · simp only [told, was, if_true, hstep, Option.elim_some]
    · simp [strides, was, hstep]
  · obtain ⟨⟨p, m⟩, hstep, rfl⟩ := Option.map_eq_some_iff.mp h
    refine ⟨p, m, Pool.advance_of_answer hstep, rfl, ?_, ?_⟩
    · simp only [told, was, if_true, hstep, Option.elim_some]
    · simp [strides, was, hstep]
  · simp [accept] at h
  · simp [take] at h
  · simp [expire] at h

theorem next_of_acquiring (hl : l.task? = some t) (h : s.Shows t (.acquiring x))
    (step : s.step l = some s') :
    ∃ φ', s'.Shows t φ' ∧ Phase.Next (.acquiring x) (s.exchanges t l) φ' := by
  obtain ⟨fresh, stage, was, acquires⟩ := h
  obtain ⟨p, m, adv, rfl, htold, -⟩ := move_of_step hl was step
  rw [exchanges_of_step step, htold, was]
  rcases adv.acquires acquires with ⟨stage', rfl, acquires'⟩ | ⟨i, rfl⟩ | ⟨f, rfl⟩
  · have hset : Services.Shows (({ s with pool := p } : Services).move t (.execution x)
        (.wait stage')) t (.acquiring x) := ⟨fresh, stage', Table.get?_set_self .., acquires'⟩
    refine ⟨.acquiring x, hset, ?_⟩
    rw [submits_eq_nil hset (by simp)]
    exact .stay _
  · rw [submits_pool]
    exact next_of_execute (s := { s with pool := p, slots := s.slots.set t i }) fresh x i
  · have hend : Services.Shows (({ s with pool := p } : Services).move t (.execution x)
        (.finish (.failed f))) t (.ended (x.result.fail f p.now) x.sink) := shows_conclude ..
    refine ⟨_, hend, ?_⟩
    rw [submits_eq_nil hend (by simp)]
    exact .refused x f _

theorem next_of_removing (hl : l.task? = some t) (h : s.Shows t (.removing x))
    (step : s.step l = some s') :
    ∃ φ', s'.Shows t φ' ∧ Phase.Next (.removing x) (s.exchanges t l) φ' := by
  obtain ⟨fresh, stage, was, prunes⟩ := h
  obtain ⟨p, m, adv, rfl, htold, -⟩ := move_of_step hl was step
  rw [exchanges_of_step step, htold, was]
  rcases adv.prunes prunes with ⟨stage', rfl, prunes'⟩ | ⟨b, rfl⟩
  · have hset : Services.Shows (({ s with pool := p } : Services).move t (.execution x)
        (.wait stage')) t (.removing x) := ⟨fresh, stage', Table.get?_set_self .., prunes'⟩
    refine ⟨.removing x, hset, ?_⟩
    rw [submits_eq_nil hset (by simp)]
    exact .stay _
  · have hend : Services.Shows (({ s with pool := p } : Services).move t (.execution x)
        (.finish (.flag b))) t (.ended (x.result.finish p.now) x.sink) := shows_conclude ..
    refine ⟨_, hend, ?_⟩
    rw [submits_eq_nil hend (by simp)]
    exact .removed x _

theorem next_of_submitting {code : Code} (hl : l.task? = some t)
    (h : s.Shows t (.submitting x i code)) (step : s.step l = some s') :
    ∃ φ', s'.Shows t φ' ∧ Phase.Next (.submitting x i code) (s.exchanges t l) φ' := by
  obtain ⟨fresh, was⟩ := h
  obtain ⟨a, ha, h⟩ := activity_of_step hl step
  obtain rfl := Option.some.inj (was.symm.trans ha)
  rw [exchanges_of_step step]
  rcases h with ⟨rfl, h⟩ | ⟨ans, rfl, h⟩ | ⟨r, rfl, h⟩ | ⟨v, rfl, h⟩ | ⟨rfl, h⟩
  · simp [resume] at h
  · cases ans with
    | failed f =>
      obtain rfl := Option.some.inj h
      have hend : Services.Shows ((s.dropSlot t).fail t x f) t
          (.ended (x.result.fail f (s.dropSlot t).pool.now) x.sink) := shows_conclude ..
      refine ⟨_, hend, ?_⟩
      rw [submits_eq_nil hend (by simp)]
      simp only [told, was, if_true, List.append_nil]
      exact .rejected x i code f _
    | ok | elapsed => simp [answer] at h
  · obtain rfl := Option.some.inj h
    have hset : Services.Shows (s.setTask t (.receiving (.execution x) i r)) t (.reading x i r) :=
      ⟨fresh, .inl (Table.get?_set_self ..)⟩
    refine ⟨_, hset, ?_⟩
    rw [submits_eq_nil hset (by simp)]
    simp only [told, was, if_true, List.append_nil]
    exact .accepted x i code r
  · simp [take] at h
  · simp [expire] at h

/-- A reader takes an item or learns that the transport failed, or it goes on reading. -/
theorem cases_of_reading (hl : l.task? = some t) (h : s.Shows t (.reading x i r))
    (step : s.step l = some s') :
    (∃ m p, s.told t l = [.received m] ∧ s.pool.Alike p ∧
      s' = ({ s with pool := p } : Services).receive t (.execution x) i r m) ∨
    s.told t l = [] ∧ s'.Shows t (.reading x i r) := by
  obtain ⟨fresh, was⟩ := h
  obtain ⟨a, ha, h⟩ := activity_of_step hl step
  rcases was with was | was
  · obtain rfl := Option.some.inj (was.symm.trans ha)
    rcases h with ⟨rfl, h⟩ | ⟨ans, rfl, h⟩ | ⟨r, rfl, h⟩ | ⟨v, rfl, h⟩ | ⟨rfl, h⟩
    · simp only [resume] at h
      split at h
      · cases h
      · next m rest hmail =>
        have hhead : (s.pool.mail i).head? = some m := congrArg List.head? hmail
        refine .inl ⟨m, s.pool.modify i ({ · with mail := rest }), ?_,
          .modify _ _ (fun _ => rfl) (fun _ => rfl) fun _ => rfl, (Option.some.inj h).symm⟩
        simp only [told, was, if_true, hhead]
        rfl
    · cases ans with
      | failed f =>
        refine .inl ⟨.failure f, s.pool, ?_, .refl _, (Option.some.inj h).symm⟩
        simp only [told, was, if_true]
      | elapsed =>
        obtain rfl := Option.some.inj h
        exact .inr ⟨by simp only [told, was], fresh, .inr (Table.get?_set_self ..)⟩
      | ok => simp [answer] at h
    · simp [accept] at h
    · simp [take] at h
    · simp [expire] at h
  · obtain rfl := Option.some.inj (was.symm.trans ha)
    rcases h with ⟨rfl, h⟩ | ⟨ans, rfl, h⟩ | ⟨r, rfl, h⟩ | ⟨v, rfl, h⟩ | ⟨rfl, h⟩
    · simp [resume] at h
    · cases ans with
      | elapsed =>
        obtain rfl := Option.some.inj h
        exact .inr ⟨by simp only [told, was], fresh, .inl (Table.get?_set_self ..)⟩
      | ok | failed => simp [answer] at h
    · simp [accept] at h
    · simp [take] at h
    · simp [expire] at h

theorem next_of_reading (hl : l.task? = some t) (h : s.Shows t (.reading x i r))
    (step : s.step l = some s') :
    ∃ φ', s'.Shows t φ' ∧ Phase.Next (.reading x i r) (s.exchanges t l) φ' := by
  rw [exchanges_of_step step]
  rcases cases_of_reading hl h step with ⟨m, p, htold, -, rfl⟩ | ⟨htold, hset⟩
  · obtain ⟨φ', hφ', hnext⟩ := next_of_receive (s := { s with pool := p }) h.1 x i r m
    refine ⟨φ', hφ', ?_⟩
    have hnot : ∀ x i code, φ' ≠ .submitting x i code := by
      rintro x i code rfl
      cases hnext
    rw [submits_eq_nil hφ' hnot, htold]
    exact hnext
  · -- a wait that brings nothing changes no phase
    refine ⟨_, hset, ?_⟩
    rw [submits_eq_nil hset (by simp), htold]
    exact .stay _

/-- Whatever happens in a step, an execution goes on as its phase allows. -/
theorem next_of_step (sound : s.scene.Sound) (ht : t < s.nextTask) (h : s.Shows t φ)
    (step : s.step l = some s') : ∃ φ', s'.Shows t φ' ∧ φ.Next (s.exchanges t l) φ' := by
  by_cases hl : l.task? = some t
  · cases φ with
    | acquiring => exact next_of_acquiring hl h step
    | submitting => exact next_of_submitting hl h step
    | reading => exact next_of_reading hl h step
    | removing => exact next_of_removing hl h step
    | ended =>
      obtain ⟨a, ha, -⟩ := activity_of_step hl step
      exact absurd (h.2.symm.trans ha) (by simp)
  · obtain ⟨htasks, hreplies⟩ := frame_of_step sound ht hl step
    have hshows : s'.Shows t φ := by
      cases φ <;> simpa only [Shows, htasks, hreplies] using h
    refine ⟨φ, hshows, ?_⟩
    rw [exchanges_of_frame ht hl step htasks]
    exact .stay φ

/-! ## Runs -/

/-- What every permitted step keeps of an execution's phase and of what is seen besides, a run of
such steps keeps; `K` is what else they keep of the services. -/
theorem shows_run {α : Type} {f : Services → Label → List α} {P : Label → Prop} {K : Services → Prop}
    {J : List α → Phase → Prop} {ls : List Label}
    (kept : ∀ s l s', P l → s.scene.Sound → K s → s.step l = some s' → K s')
    (next : ∀ seen s l s' φ φ', P l → s.scene.Sound → K s → s.Shows t φ → s.step l = some s' →
      φ.Next (s.exchanges t l) φ' → J seen φ → J (seen ++ f s l) φ')
    (permitted : ∀ l ∈ ls, P l) (sound : s.scene.Sound) (ht : t < s.nextTask) (hK : K s)
    (seen : List α) (hφ : s.Shows t φ) (hJ : J seen φ) (run : s.run ls = some s') :
    t < s'.nextTask ∧ ∃ φ', s'.Shows t φ' ∧ J (seen ++ s.gather f ls) φ' := by
  have hkeep := run_gathers (f := f) (P := P) (I := fun seen s => s.scene.Sound ∧ K s ∧
      t < s.nextTask ∧ ∃ φ, s.Shows t φ ∧ J seen φ) ?_ permitted seen ⟨sound, hK, ht, φ, hφ, hJ⟩ run
  · exact hkeep.2.2
  · rintro seen s l s' hl ⟨sound, hK, ht, φ, hφ, hJ⟩ step
    obtain ⟨φ', hφ', hnext⟩ := next_of_step sound ht hφ step
    have hle := Nat.le_trans (nextTask_le_stir s l) (nextTask_le_step sound step)
    exact ⟨sound_step sound step, kept s l s' hl sound hK step, Nat.lt_of_lt_of_le ht hle, φ', hφ',
      next seen s l s' φ φ' hl sound hK hφ step hnext hJ⟩

end Services
end NotebookKernels
