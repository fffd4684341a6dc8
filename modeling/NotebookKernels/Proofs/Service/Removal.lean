import Mathlib.Data.List.Infix
import NotebookKernels.Proofs.Service.Membership
import NotebookKernels.Proofs.Service.Seats

/- What becomes of a kernel whose worker dies during an execution.

   An execution learns of the death as a failure of the transport: its code is not accepted, or the wait
   for an event fails. Which of two things it does then is told by its output (`Breaks`). If that shows a
   channel failure, the execution gives up its slot and has the kernel removed if the worker is dead. From
   then on the kernel is `Doomed`: as long as it is tracked, the execution is on its way to it, and finds
   it dead unless somebody else has its worker (`doomed_step`). If the output shows none, the execution
   returns at once and leaves the kernel as it is. That is so for code that is not accepted, and for any
   failure that goes by another name, as `dead_kernel_left_behind` has it. -/
namespace NotebookKernels

open Function (update)

namespace Stage

/-- The task is to remove the kernel of this entry if its worker is dead, and has not looked yet. -/
def Hunts (i : Nat) (s : Stage) : Prop :=
  s = .structure (.removeIfDead (.fresh i)) ∨ s = .sweep (.removeIfDead (.fresh i)) [i] []

end Stage

namespace Pool

variable {p p' : Pool} {t : TaskId} {s : Stage} {m : Move} {i : Nat}

/-- A worker that does not run is dead if nobody has it or waits for it. -/
theorem isDead_of_queue (dead : p.alive? i = some false) (idle : p.queue (.worker i) = []) :
    p.isDead i = true := by
  obtain ⟨e, he, hf⟩ := Option.map_eq_some_iff.mp dead
  have free : e.workerLock.queue = [] := by simpa [queue, he] using idle
  simp [isDead, he, Entry.isDead, Lock.isFree, free, hf]

/-- Whoever is to remove a dead kernel removes it, or is about to look at it. -/
theorem Advance.hunts (h : Advance t p s p' m) (hs : s.Hunts i)
    (found : p.find? (.fresh i) = some i) (dead : p.isDead i = true) :
    i ∉ p'.tracked ∨ m.To (Stage.Hunts i) := by
  rcases hs with rfl | rfl
  · cases h with
    | enter =>
      refine .inr (.inr ?_)
      simp [agenda, found]
    | abandon _ _ _ was | restartFailed _ _ _ was => obtain h | h := was <;> cases h
  · cases h with
    | spare _ _ _ _ _ alive => exact absurd (dead.symm.trans alive) (by simp)
    | gone _ _ _ _ _ absent => exact .inl absent
    | forget => exact .inl fun hi => (mem_tracked_untrack.mp hi).2 rfl
    | close => exact .inl fun hi => (mem_tracked_untrack.mp hi).2 rfl
    | abandon _ _ _ was | restartFailed _ _ _ was => obtain h | h := was <;> cases h

end Pool

namespace Scene

variable {c c' : Scene} {l : Label} {t : TaskId} {i : Nat}

/-- What an entry's worker says and sends does not change in a turn. -/
theorem Turn.outer {α : Type} {g : Entry → α} (turn : Turn l t c c') (hg : Pool.Outer g)
    (has : c.pool.Has i) : (c'.pool.entry? i).map g = (c.pool.entry? i).map g := by
  cases turn with
  | rise | carry | shift | reply | reap => rfl
  | count => exact Pool.outer_touch hg _
  | drop => exact (Pool.outer_releaseSlot hg).trans (Pool.outer_touch hg _)
  | advance _ _ _ _ _ step => exact step.outer hg
  | begin _ _ _ _ _ _ _ _ step => exact step.outer hg has

end Scene

/-- An execution whose code is not accepted waits for no event. -/
theorem Phase.Next.not_received {φ φ' : Phase} {ex : List Exchange} {f : Failure}
    (h : φ.Next ex φ') (rejected : .rejected f ∈ ex) (m : Mail) : .received m ∉ ex := by
  cases h with
  | rejected => simp
  | stay | refused | blank | submit | accepted | skip | output | close | fail | removed =>
    simp at rejected

namespace Services

open Scene

variable {config : Config} {catalog : Catalog} {before during : List Label} {s s₀ s₁ s' d : Services}
  {l : Label} {t : TaskId} {i j : Nat} {request : ExecuteRequest} {sink : Sink} {x : Execution}
  {f : Failure} {φ φ' : Phase} {seen : List Exchange}

/-! ## Dead workers -/

/-- A worker that has died runs again only if somebody says so. -/
theorem dead_step (sound : s.scene.Sound) (dead : s.pool.alive? i = some false)
    (stays : l ≠ .alive i true) (step : s.step l = some s') : s'.pool.alive? i = some false := by
  have stirred : (s.stir l).pool.alive? i = some false := by
    cases l with
    | resume u =>
      simp only [stir]
      split
      · exact Eq.trans (Pool.alive?_modify fun _ => rfl) dead
      · exact dead
    | alive j b =>
      by_cases hj : j = i
      · subst hj
        obtain rfl : b = false := by simpa using stays
        obtain ⟨e, he, -⟩ := Option.map_eq_some_iff.mp dead
        simp [stir, Pool.alive?, Pool.entry?_modify, he]
      · have other : Pool.entry? (s.stir (.alive j b)).pool i = s.pool.entry? i := by
          simp [stir, Pool.entry?_modify, hj]
        rw [Pool.alive?, other]
        exact dead
    | deliver | renew => exact Eq.trans (Pool.alive?_modify fun _ => rfl) dead
    | call | answer | submitted | replied | expire | pass => exact dead
  refine (step_keeps (I := fun c => c.pool.alive? i = some false) sound step stirred ?_).2
  intro c c' _ _ turn h
  obtain ⟨e, he, -⟩ := Option.map_eq_some_iff.mp h
  exact (turn.outer Pool.outer_alive (Pool.has_iff_entry?.mpr ⟨e, he⟩)).trans h

/-- The worker of the entry is dead, and as long as its kernel is tracked the task is on its way to
remove it. -/
structure Doomed (t : TaskId) (i : Nat) (s : Services) : Prop where
  dead : s.pool.alive? i = some false
  grown : s.scene.Grown i
  hunted : i ∈ s.pool.tracked → s.scene.Stands (Stage.Hunts i) t

theorem doomed_step (h : Doomed t i s) (sound : s.scene.Sound) (named : s.scene.Named)
    (alone : i ∈ s.pool.tracked → s.pool.queue (.worker i) = []) (stays : l ≠ .alive i true)
    (step : s.step l = some s') : Doomed t i s' where
  dead := dead_step sound h.dead stays step
  grown := h.grown.step sound step
  hunted there' := by
    have there : i ∈ s.pool.tracked := by
      by_contra gone
      exact gone_of_step sound h.grown gone step there'
    have stands := h.hunted there
    have ⟨su, hsu, hunts⟩ := stands
    cases deed_of_step sound.fresh step with
    | calm shown same stages => exact (stands_congr (congrFun stages t)).mpr stands
    | stride u w st p m own was adv shown same stages =>
      by_cases htu : t = u
      · subst htu
        obtain rfl : st = su := Option.some.inj ((Sound.stage_of_act was).symm.trans hsu)
        have dead := Pool.isDead_of_queue h.dead (alone there)
        rcases adv.hunts hunts (named.find? sound there) dead with gone | goes
        · exact absurd (same.tracked ▸ there') gone
        · exact (stands_self stages).mpr goes
      · exact (stands_of_ne stages htu).mpr stands
    | begin u call p q dead m n shown before opening after may single free fresh begun stages =>
      have htu : t ≠ u := by
        rintro rfl
        exact absurd (free.symm.trans hsu) (by simp)
      have htn : t < n := by
        by_contra hle
        exact absurd ((fresh t (Nat.le_of_not_lt hle)).symm.trans hsu) (by simp)
      refine (stands_congr ?_).mpr stands
      rw [stages, if_pos htn, Function.update_of_ne htu]

/-- As long as nobody else has the worker while the kernel is tracked, the kernel stays doomed. -/
theorem doomed_run (h : Doomed t i s) (sound : s.scene.Sound) (named : s.scene.Named)
    (alone : ∀ ls d, ls <+: during → s.run ls = some d → i ∈ d.pool.tracked →
      d.pool.queue (.worker i) = [])
    (stays : .alive i true ∉ during) (run : s.run during = some s') :
    s'.scene.Sound ∧ s'.scene.Named ∧ Doomed t i s' := by
  have hrun := run_induction (I := fun ls d => ls <+: during →
    d.scene.Sound ∧ d.scene.Named ∧ Doomed t i d) (fun _ => ⟨sound, named, h⟩) ?_ run
  · exact hrun (List.prefix_refl _)
  · intro ls l d d' reached step ih upto
    have upto' : ls <+: during := (List.prefix_append ls [l]).trans upto
    obtain ⟨sound, named, doomed⟩ := ih upto'
    have hl : l ∈ during := upto.subset (List.mem_append_right ls (List.mem_singleton_self l))
    have stays' : l ≠ .alive i true := fun h => stays (h ▸ hl)
    exact ⟨sound_step sound step, named_step named sound step,
      doomed_step doomed sound named (alone ls d upto' reached) stays' step⟩

/-- When the task has ended, the kernel is gone. -/
theorem Doomed.gone (h : Doomed t i s) (ended : s.tasks.get? t = none) : i ∉ s.pool.tracked := by
  intro there
  obtain ⟨st, hst, -⟩ := h.hunted there
  have hact : s.scene.act t = none := ended
  simp [stage?, hact] at hst

/-! ## The step in which the transport fails -/

theorem sameWorkers_counting (i : Nat) (x : Execution) :
    s.pool.SameWorkers (s.counting i x).pool := by
  unfold counting
  split
  · exact .refl _
  · exact sameWorkers_countUp i

/-- What passes besides the submission is what the task is told. -/
theorem mem_told {e : Exchange} (step : s.step l = some s') (h : e ∈ s.exchanges t l)
    (he : ∀ i code, e ≠ .submitted i code) : e ∈ s.told t l := by
  rw [exchanges_of_step step] at h
  refine (List.mem_append.mp h).resolve_right fun h => ?_
  unfold submits at h
  split at h
  · cases h
  · exact he _ _ (List.mem_singleton.mp h)
  · cases h

/-- An execution whose code cannot be submitted gives up its slot and fails. -/
theorem step_of_rejected {code : Code} (own : l.task? = some t)
    (shown : s.Shows t (.submitting x j code)) (rejected : .rejected f ∈ s.told t l)
    (step : s.step l = some s') : s' = (s.dropSlot t).fail t x f := by
  obtain ⟨-, was⟩ := shown
  obtain ⟨a, ha, h⟩ := activity_of_step own step
  obtain rfl := Option.some.inj (was.symm.trans ha)
  rcases h with ⟨rfl, h⟩ | ⟨ans, rfl, h⟩ | ⟨r, rfl, h⟩ | ⟨v, rfl, h⟩ | ⟨rfl, h⟩
  · simp [resume] at h
  · cases ans with
    | failed g =>
      obtain rfl : f = g := by simpa [told, was] using rejected
      exact (Option.some.inj h).symm
    | ok | elapsed => simp [answer] at h
  · simp [told, was] at rejected
  · simp [take] at h
  · simp [expire] at h

/-- What an execution of the request does in the step in which its transport fails, with this output
in the end. -/
inductive Breaks (t : TaskId) (request : ExecuteRequest) (es : List OutputEvent) (s s' : Services) :
    Prop
  /-- Its output shows no channel failure: it returns, and looks after no kernel. -/
  | returns (res : ExecutionResult) (k : Sink) (shown : s'.Shows t (.ended res k))
      (outputs : res.outputs = es) (quiet : es.any (·.isChannelFailure) = false)
      (same : s'.pool.tracked = s.pool.tracked)
  /-- Its output shows a channel failure: it is to remove the kernel if its worker is dead. -/
  | removes (x : Execution) (shown : s'.Shows t (.removing x)) (outputs : x.result.outputs = es)
      (tells : es.any (·.isChannelFailure) = true)
      (hunts : s'.scene.stage? t = some (.structure (.removeIfDead request.kernel)))

theorem breaks_endStream {es : List OutputEvent} (owed : s.replies.get? t = none)
    (took : x.Took request sink es) : Breaks t request es s (s.endStream t j (.execution x)) := by
  rw [endStream_eq]
  split
  · next broken =>
    let y : Execution := x.counted ((s.counting j x).countOf j)
    let d : Services := (s.counting j x).dropSlot t
    have was : (d.startPool t (.execution y) (.removeIfDead x.request.kernel)).tasks.get? t =
        some (.pool (.execution y) (.structure (.removeIfDead x.request.kernel))) :=
      Table.get?_set_self ..
    have still : (d.startPool t (.execution y) (.removeIfDead x.request.kernel)).replies.get? t =
        none := by
      show d.replies.get? t = none
      rw [replies_dropSlot, replies_counting]
      exact owed
    refine .removes y ⟨still, _, was, trivial⟩ took.outputs (took.broken.symm.trans broken) ?_
    rw [← took.request]
    exact Sound.stage_of_act was
  · next sound =>
    refine .returns _ _ (shows_conclude ..) took.outputs ?_ ?_
    · rw [← took.broken]
      simpa using sound
    · exact (sameWorkers_dropSlot t).tracked.trans (sameWorkers_counting j x).tracked

/-- Notices are no channel failures. -/
theorem notice_quiet (request : ExecuteRequest) :
    request.notice.any (·.isChannelFailure) = false := by
  unfold ExecuteRequest.notice
  cases request.submission.immediate <;> rfl

/-- An execution whose code is not accepted returns with nothing but its notices. -/
theorem breaks_of_rejected (own : l.task? = some t) (shown : s.Shows t φ)
    (course : Course request sink seen φ) (next : φ.Next (s.exchanges t l) φ')
    (rejected : .rejected f ∈ s.exchanges t l) (step : s.step l = some s') :
    Breaks t request request.notice s s' := by
  have told := mem_told step rejected (by simp)
  generalize s.exchanges t l = ex at next rejected
  cases next with
  | rejected x j code g now =>
    obtain rfl := step_of_rejected own shown told step
    cases course with
    | submitting _ _ left took =>
      exact .returns _ _ (shows_conclude ..) took.outputs (notice_quiet request)
        (sameWorkers_dropSlot t).tracked
  | stay | refused | blank | submit | accepted | skip | output | close | fail | removed =>
    simp at rejected

/-- What happened before to the mail does not matter. -/
theorem Breaks.alike {es : List OutputEvent} {p : Pool} (same : s.pool.Alike p)
    (h : Breaks t request es { s with pool := p } s') : Breaks t request es s s' := by
  cases h with
  | returns res k shown outputs quiet kept =>
    exact .returns res k shown outputs quiet (kept.trans same.tracked)
  | removes x shown outputs tells hunts => exact .removes x shown outputs tells hunts

/-- An execution that is told of a failure while it reads shows the failure last. -/
theorem breaks_of_received (own : l.task? = some t) (shown : s.Shows t φ)
    (course : Course request sink seen φ) (next : φ.Next (s.exchanges t l) φ')
    (received : .received (.failure f) ∈ s.exchanges t l) (step : s.step l = some s') :
    ∃ es, Breaks t request (es ++ [.ofFailure f]) s s' := by
  have told := mem_told step received (by simp)
  generalize s.exchanges t l = ex at next received
  cases course with
  | reading j r ms x left going took =>
    rcases cases_of_reading own shown step with ⟨m, p, htold, same, rfl⟩ | ⟨htold, -⟩
    · obtain rfl : .failure f = m := by simpa [htold] using told
      exact ⟨_, .alike same (breaks_endStream shown.1 (took.take (.ofFailure f)))⟩
    · simp [htold] at told
  | acquiring | submitting | removing | ended => cases next <;> simp at received

/-- A failure of the transport is a step of the execution, with the output that it has in the end. Code
that is not accepted leaves no channel failure in it, and a channel failure while it reads does. -/
theorem breaks_of_failure (own : l.task? = some t) (sound : s.scene.Sound) (begun : t < s.nextTask)
    (shown : s.Shows t φ) (course : Course request sink seen φ) (step : s.step l = some s')
    (fails : .rejected f ∈ s.exchanges t l ∨ .received (.failure f) ∈ s.exchanges t l) :
    ∃ es, Breaks t request es s s' ∧
      (.rejected f ∈ s.exchanges t l → es.any (·.isChannelFailure) = false) ∧
      (.received (.failure f) ∈ s.exchanges t l → f.kind = Failure.channelKind →
        es.any (·.isChannelFailure) = true) := by
  obtain ⟨φ', -, next⟩ := next_of_step sound begun shown step
  rcases fails with rejected | received
  · refine ⟨request.notice, breaks_of_rejected own shown course next rejected step,
      fun _ => notice_quiet request, fun received => ?_⟩
    exact absurd received (next.not_received rejected _)
  · obtain ⟨es, breaks⟩ := breaks_of_received own shown course next received step
    refine ⟨_, breaks, fun rejected => ?_, fun _ kind => ?_⟩
    · exact absurd received (next.not_received rejected _)
    · simp [OutputEvent.ofFailure, OutputEvent.isChannelFailure, kind]

/-- An execution that is to look after its kernel returns with the output that it has. -/
theorem outputs_of_removing {during : List Label} {res : ExecutionResult} {k : Sink}
    (sound : s.scene.Sound) (begun : t < s.nextTask) (shown : s.Shows t (.removing x))
    (run : s.run during = some s') (returned : s'.replies.get? t = some (.result res k)) :
    s'.tasks.get? t = none ∧ res.outputs = x.result.outputs := by
  have kept : ∀ {ex φ φ'}, Phase.Next φ ex φ' →
      φ.isOver = true ∧ φ.result.outputs = x.result.outputs →
      φ'.isOver = true ∧ φ'.result.outputs = x.result.outputs := by
    intro ex φ φ' next h
    cases next with
    | stay | removed => exact h
    | refused | blank | submit | rejected | accepted | skip | output | close | fail => cases h.1
  obtain ⟨-, φ, shown', isOver, outputs⟩ := shows_run (f := exchanges t) (P := fun _ => True)
    (K := fun _ => True) (J := fun _ φ => φ.isOver = true ∧ φ.result.outputs = x.result.outputs)
    (fun _ _ _ _ _ _ _ => trivial) (fun _ _ _ _ _ _ _ _ _ _ _ next h => kept next h)
    (fun _ _ => trivial) sound begun trivial [] shown ⟨rfl, rfl⟩ run
  cases φ with
  | removing => exact absurd (shown'.1.symm.trans returned) (by simp)
  | ended =>
    obtain ⟨rfl, -⟩ := Reply.result.inj (Option.some.inj (returned.symm.trans shown'.1))
    exact ⟨shown'.2, outputs⟩
  | acquiring | submitting | reading => cases isOver

/-! ## From the call on -/

/-- The kernel of an execution in progress was found when the execution began. -/
theorem grown_of_execution (reached : (init config catalog).run before = some s₀)
    (run : s₀.run (.call (.execute request sink) :: during) = some s)
    (kernel : request.kernel = .fresh i) (going : s.tasks.get? s₀.nextTask ≠ none) :
    s.scene.Grown i := by
  have sound := sound_run (sound_init config catalog) reached
  obtain ⟨d, first, run⟩ := Option.bind_eq_some_iff.mp run
  have sound' := sound_step sound first
  cases commences_of_call sound.fresh first with
  | acquiring x j found =>
    obtain rfl := KernelId.fresh_injective (((named_run reached).of_find? sound found).symm.trans kernel)
    have grown := Grown.of_tracked sound (Pool.find?_eq_some found).1
    exact (grown_run sound' (grown.step sound first) run).2
  | refused r g shown =>
    exact absurd (ended_run sound' (nextTask_le_step sound first) shown.2 run) going

/-- What the failure comes to by the time the execution returns, if the worker is dead and stays so. -/
theorem removed_of_breaks {es : List OutputEvent} {after : List Label} {s₂ : Services}
    {res : ExecutionResult} {k : Sink} (breaks : Breaks t request es s s₁)
    (sound : s₁.scene.Sound) (named : s₁.scene.Named) (begun : t < s₁.nextTask)
    (kernel : request.kernel = .fresh i) (dead : s₁.pool.alive? i = some false)
    (grown : s₁.scene.Grown i) (rest : s₁.run after = some s₂)
    (alone : ∀ ls d, ls <+: after → s₁.run ls = some d → i ∈ d.pool.tracked →
      d.pool.queue (.worker i) = [])
    (stays : .alive i true ∉ after) (returned : s₂.replies.get? t = some (.result res k)) :
    res.outputs = es ∧
      (es.any (·.isChannelFailure) = true →
        i ∉ s₂.pool.tracked ∧ s₂.pool.find? request.kernel = none) ∧
      (es.any (·.isChannelFailure) = false →
        s₁.replies.get? t = some (.result res k) ∧ s₁.pool.tracked = s.pool.tracked) := by
  cases breaks with
  | returns res' k' shown outputs quiet same =>
    -- the execution is over, and what it has returned stands
    have stands := (reply_run sound begun shown.2 rest).trans shown.1
    obtain ⟨rfl, rfl⟩ := Reply.result.inj (Option.some.inj (returned.symm.trans stands))
    refine ⟨outputs, fun tells => ?_, fun _ => ⟨shown.1, same⟩⟩
    exact absurd (quiet.symm.trans tells) (by simp)
  | removes x shown outputs tells hunts =>
    -- the execution returns when the hunt is over
    obtain ⟨ended, still⟩ := outputs_of_removing sound begun shown rest returned
    rw [kernel] at hunts ⊢
    have doomed : Doomed t i s₁ := ⟨dead, grown, fun _ => ⟨_, hunts, .inl rfl⟩⟩
    obtain ⟨sound₂, named₂, doomed₂⟩ := doomed_run doomed sound named alone stays rest
    have gone := doomed₂.gone ended
    refine ⟨still.trans outputs, fun _ => ⟨gone, named₂.find?_eq_none sound₂ gone⟩, fun quiet => ?_⟩
    exact absurd (quiet.symm.trans tells) (by simp)

/-- Whatever the settings, the other calls and the order of the steps: let the transport of an
execution fail when the worker of its kernel is dead, let the worker stay dead, and let nobody have it or
wait for it as long as the kernel is tracked. If the output of the execution shows a channel failure, the
kernel is gone when the execution returns. If not, the execution returns with the failure, and the step
removes no kernel. The output shows none if the code was not accepted; it shows one if the failure came
while the execution read and goes by that name. -/
theorem dead_kernel_removed (config : Config) (catalog : Catalog) (before during after : List Label)
    (s₀ s s₁ s₂ : Services) (request : ExecuteRequest) (sink : Sink) (i : Nat) (l : Label)
    (f : Failure) (res : ExecutionResult) (k : Sink)
    (reached : (init config catalog).run before = some s₀)
    (run : s₀.run (.call (.execute request sink) :: during) = some s) (step : s.step l = some s₁)
    (fails : .rejected f ∈ s.exchanges s₀.nextTask l ∨
      .received (.failure f) ∈ s.exchanges s₀.nextTask l)
    (kernel : request.kernel = .fresh i) (dead : s.pool.alive? i = some false)
    (rest : s₁.run after = some s₂)
    (alone : ∀ ls d, ls <+: after → s₁.run ls = some d → i ∈ d.pool.tracked →
      d.pool.queue (.worker i) = [])
    (stays : .alive i true ∉ after)
    (returns : s₂.replies.get? s₀.nextTask = some (.result res k)) :
    (res.outputs.any (·.isChannelFailure) = true →
      i ∉ s₂.pool.tracked ∧ s₂.pool.find? request.kernel = none) ∧
    (res.outputs.any (·.isChannelFailure) = false →
      s₁.replies.get? s₀.nextTask = some (.result res k) ∧ s₁.pool.tracked = s.pool.tracked) ∧
    (.rejected f ∈ s.exchanges s₀.nextTask l → res.outputs.any (·.isChannelFailure) = false) ∧
    (.received (.failure f) ∈ s.exchanges s₀.nextTask l → f.kind = Failure.channelKind →
      res.outputs.any (·.isChannelFailure) = true) := by
  have whole : (init config catalog).run (before ++ .call (.execute request sink) :: during) = some s := by
    rw [run_append, reached, Option.bind_some, run]
  have sound := sound_run (sound_init config catalog) whole
  have begun := (executes_of_begun reached run).begun
  have own : l.task? = some s₀.nextTask := by
    apply own_of_exchanges sound begun step
    rcases fails with h | h <;> exact List.ne_nil_of_mem h
  -- the kernel was there when the execution began, since that is still in progress
  obtain ⟨a, going, -⟩ := activity_of_step own step
  have grown := grown_of_execution reached run kernel (by simp [going])
  obtain ⟨φ, shown, course⟩ := course_of_run (sound_run (sound_init config catalog) reached) run
  obtain ⟨es, breaks, quiet, tells⟩ := breaks_of_failure own sound begun shown course step fails
  have begun₁ : s₀.nextTask < s₁.nextTask :=
    Nat.lt_of_lt_of_le begun (Nat.le_trans (nextTask_le_stir s l) (nextTask_le_step sound step))
  have dead₁ : s₁.pool.alive? i = some false := by
    apply dead_step sound dead _ step
    rintro rfl
    cases own
  obtain ⟨outputs, gone, kept⟩ := removed_of_breaks breaks (sound_step sound step)
    (named_step (named_run whole) sound step) begun₁ kernel dead₁ (grown.step sound step) rest alone
    stays returns
  rw [outputs]
  exact ⟨gone, kept, quiet, tells⟩

/-- An execution has its code accepted, and the worker dies. -/
def dying : List Label :=
  [.call (.execute printer.request printer.sink), .resume 1, .resume 1, .submitted 1 ⟨"r"⟩,
    .alive 0 false]

/-- The execution has the kernel removed and its worker shut down, and returns. -/
def clearing : List Label := [.resume 1, .resume 1, .resume 1, .answer 1 .ok, .resume 1]

/-- A channel failure after the death of the worker has the kernel removed. -/
theorem dead_kernel_removed_dying :
    ∃ s s₁ s₂ res k, (init { } [.python3]).run (booting ++ dying) = some s ∧
      s.step (.answer 1 (.failed (.channel "gone"))) = some s₁ ∧ s₁.run clearing = some s₂ ∧
      s.pool.tracked = [0] ∧ s₂.replies.get? 1 = some (.result res k) ∧ 0 ∉ s₂.pool.tracked ∧
      s₂.pool.find? (.fresh 0) = none := by
  have h : ((init { } [.python3]).run booting).bind (fun s₀ => (s₀.run dying).bind fun s =>
      (s.step (.answer 1 (.failed (.channel "gone")))).bind fun s₁ => (s₁.run clearing).bind fun s₂ =>
        (s₂.replies.get? 1).map fun reply =>
          ((s₀.nextTask, s.pool.alive? 0, s.pool.tracked),
            s.exchanges 1 (.answer 1 (.failed (.channel "gone"))), reply)) =
      some ((1, some false, [0]), [.received (.failure (.channel "gone"))],
        .result ((printer.take (.ofFailure (.channel "gone"))).counted 1 |>.result.finish 0)
          (.open [.ofFailure (.channel "gone")])) := by
    decide
  have free : ∀ ls ∈ clearing.inits, (((init { } [.python3]).run
      (booting ++ dying ++ .answer 1 (.failed (.channel "gone")) :: ls)).all fun d =>
        0 ∉ d.pool.tracked ∨ d.pool.queue (.worker 0) = []) = true := by
    decide
  obtain ⟨s₀, start, h⟩ := Option.bind_eq_some_iff.mp h
  obtain ⟨s, run, h⟩ := Option.bind_eq_some_iff.mp h
  obtain ⟨s₁, step, h⟩ := Option.bind_eq_some_iff.mp h
  obtain ⟨s₂, rest, h⟩ := Option.bind_eq_some_iff.mp h
  obtain ⟨reply, returned, h⟩ := Option.map_eq_some_iff.mp h
  simp only [Prod.mk.injEq] at h
  obtain ⟨⟨next, dead, tracked⟩, told, rfl⟩ := h
  have upto : (init { } [.python3]).run (booting ++ dying) = some s := by
    rw [run_append, start, Option.bind_some, run]
  have alone : ∀ ls d, ls <+: clearing → s₁.run ls = some d → 0 ∈ d.pool.tracked →
      d.pool.queue (.worker 0) = [] := by
    intro ls d prior reached there
    have whole := free ls ((List.mem_inits ls clearing).mpr prior)
    rw [run_append, upto, Option.bind_some, run_cons step, reached] at whole
    simpa [there] using whole
  have fails : .received (.failure (.channel "gone")) ∈
      s.exchanges s₀.nextTask (.answer 1 (.failed (.channel "gone"))) := by
    rw [next, told]
    exact List.mem_singleton_self _
  obtain ⟨gone, -, -, shows⟩ := dead_kernel_removed { } [.python3] booting _ clearing s₀ s s₁ s₂
    printer.request printer.sink 0 _ (.channel "gone") _ _ start run step (.inr fails) rfl dead rest
    alone (by decide) (next ▸ returned)
  obtain ⟨absent, unfound⟩ := gone (shows fails rfl)
  exact ⟨s, s₁, s₂, _, _, upto, step, rest, tracked, returned, absent, unfound⟩

/-- An execution has its worker die before its code is accepted. -/
def dyingEarly : List Label :=
  [.call (.execute printer.request printer.sink), .resume 1, .resume 1, .alive 0 false]

/-- The execution returns in the step in which the transport fails like this. Its kernel, whose worker
is dead and which nobody else uses, is still there and idle. -/
def LeavesBehind (during : List Label) (f : Failure) : Prop :=
  ∃ s s₁, (init { } [.python3]).run (booting ++ during) = some s ∧
    s.step (.answer 1 (.failed f)) = some s₁ ∧ s.pool.alive? 0 = some false ∧
    (s.replies.get? 1).isSome = false ∧ (s₁.replies.get? 1).isSome = true ∧
    s₁.pool.queue (.worker 0) = [] ∧ s₁.pool.tracked = [0] ∧ s₁.pool.status? 0 = some .idle

theorem leavesBehind_of_run {during : List Label}
    (h : (((init { } [.python3]).run (booting ++ during)).bind fun s =>
        (s.step (.answer 1 (.failed f))).map fun s₁ =>
          ((s.pool.alive? 0, (s.replies.get? 1).isSome, (s₁.replies.get? 1).isSome),
            s₁.pool.queue (.worker 0), s₁.pool.tracked, s₁.pool.status? 0)) =
      some ((some false, false, true), [], [0], some .idle)) : LeavesBehind during f := by
  obtain ⟨s, run, hs⟩ := Option.bind_eq_some_iff.mp h
  obtain ⟨s₁, step, hs⟩ := Option.map_eq_some_iff.mp hs
  simp only [Prod.mk.injEq, and_assoc] at hs
  exact ⟨s, s₁, run, step, hs⟩

/-- A transport that fails before the code is accepted, and one that fails at a bad frame while the
execution reads, both leave the dead kernel behind. -/
theorem dead_kernel_left_behind :
    LeavesBehind dyingEarly (.channel "gone") ∧ LeavesBehind dying (.protocol "bad frame") := by
  constructor
  · exact leavesBehind_of_run (by decide)
  · exact leavesBehind_of_run (by decide)

end Services
end NotebookKernels
