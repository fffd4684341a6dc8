import NotebookKernels.Proofs.Service.Sinks

/- What an execution comes to.

   `Transcript` lists the four ways in which an execution can go, with all that passes between it and the
   pool and the transport. Every execution that returns went one of them, and this is what its result
   and its sink hold then: the notices first, the events of the stream in order,
   the failure or the first error among the events, and a status to match. -/
namespace NotebookKernels

namespace Delivery

/-- The output that an item brings. -/
def event? : Delivery → Option OutputEvent
  | .output e | .broken e => some e
  | .skip | .ended => none

/-- Does the item end the stream? -/
def closes : Delivery → Bool
  | .ended | .broken _ => true
  | .skip | .output _ => false

end Delivery

/-- The events that the items of an event queue bring to the reader of a request. -/
def eventsFor (r : RequestId) (ms : List Mail) : List OutputEvent :=
  ms.filterMap fun m => (m.deliveryFor r).event?

/-- The sink after these events. -/
def Sink.after (es : List OutputEvent) : Sink → Sink
  | .open received => .open (received ++ es)
  | k => k

/-- How an execution of the request went: what passed, its output, and its failure. -/
inductive Transcript (request : ExecuteRequest) :
    List Exchange → List OutputEvent → Option Failure → Prop
  /-- There was no slot for it. -/
  | refused (f : Failure) : Transcript request [.refused f] [] (some f)
  /-- Nothing was left to submit. -/
  | blank (i : Nat) (h : request.submission.code.allBlank = true) :
      Transcript request [.acquired i] request.notice none
  /-- The code could not be submitted. -/
  | rejected (i : Nat) (f : Failure) (h : request.submission.code.allBlank = false) :
      Transcript request [.acquired i, .submitted i request.toSubmit, .rejected f] request.notice
        (some f)
  /-- The stream of the request was read to its end. -/
  | read (i : Nat) (r : RequestId) (ms : List Mail) (m : Mail)
      (h : request.submission.code.allBlank = false)
      (going : ∀ m ∈ ms, (m.deliveryFor r).closes = false) (last : (m.deliveryFor r).closes = true) :
      Transcript request
        (.acquired i :: .submitted i request.toSubmit :: .accepted r ::
          (ms ++ [m]).map Exchange.received)
        (request.notice ++ eventsFor r (ms ++ [m])) none

/-- The error of an execution with this failure and this output: the kind of the failure and its text;
without a failure what the first error in the output says, if there is one. -/
inductive ErrorOf : Option Failure → List OutputEvent → Option ExecutionError → Prop
  | failed (f : Failure) (es : List OutputEvent) :
      ErrorOf (some f) es (some { ename := f.kind, evalue := f.message, traceback := [] })
  | raised (before after : List OutputEvent) (ename evalue : String) (traceback : List String)
      (first : ∀ n v t, .error n v t ∉ before) :
      ErrorOf none (before ++ .error ename evalue traceback :: after)
        (some { ename, evalue, traceback })
  | none (es : List OutputEvent) (quiet : ∀ n v t, .error n v t ∉ es) : ErrorOf none es none

theorem ExecutionError.ofEvent?_eq_some_iff {e : OutputEvent} {err : ExecutionError} :
    ofEvent? e = some err ↔ e = .error err.ename err.evalue err.traceback := by
  cases e with
  | error n v t =>
    refine ⟨fun h => ?_, fun h => ?_⟩
    · obtain rfl := Option.some.inj h
      rfl
    · obtain ⟨rfl, rfl, rfl⟩ := OutputEvent.error.inj h
      rfl
  | _ => simp [ofEvent?]

/-- Where no event reports an error, there is no error among the events. -/
theorem ExecutionError.not_mem_of_ofEvent? {es : List OutputEvent}
    (h : ∀ e ∈ es, ofEvent? e = none) (n v : String) (t : List String) : .error n v t ∉ es :=
  fun hmem => Option.some_ne_none _ (h _ hmem)

theorem errorOf_output (es : List OutputEvent) :
    ErrorOf none es (es.findSome? ExecutionError.ofEvent?) := by
  cases h : es.findSome? ExecutionError.ofEvent? with
  | none => exact .none es (ExecutionError.not_mem_of_ofEvent? (List.findSome?_eq_none_iff.mp h))
  | some err =>
    obtain ⟨before, e, after, rfl, reported, first⟩ := List.findSome?_eq_some_iff.mp h
    obtain rfl := ExecutionError.ofEvent?_eq_some_iff.mp reported
    exact .raised before after _ _ _ (ExecutionError.not_mem_of_ofEvent? first)

/-- The execution is for the request, and has taken in this output. -/
structure Execution.Took (request : ExecuteRequest) (sink : Sink) (es : List OutputEvent)
    (x : Execution) : Prop where
  request : x.request = request
  outputs : x.result.outputs = es
  error : x.result.error = es.findSome? ExecutionError.ofEvent?
  sink : x.sink = sink.after es
  broken : x.broken = es.any (·.isChannelFailure)

namespace Execution.Took

variable {request : ExecuteRequest} {sink : Sink} {es : List OutputEvent} {x : Execution}

theorem take (h : x.Took request sink es) (e : OutputEvent) :
    (x.take e).Took request sink (es ++ [e]) where
  request := h.request
  outputs := congrArg (· ++ [e]) h.outputs
  error := by
    show (x.result.error <|> ExecutionError.ofEvent? e) = _
    rw [h.error, List.findSome?_append]
    cases es.findSome? ExecutionError.ofEvent? <;> simp
  sink := by
    show x.sink.take e = _
    rw [h.sink]
    cases sink <;> simp [Sink.after, Sink.take]
  broken := by
    show (x.broken || e.isChannelFailure) = _
    rw [h.broken, List.any_append]
    simp

theorem counted (h : x.Took request sink es) (n : Nat) : (x.counted n).Took request sink es :=
  ⟨h.request, h.outputs, h.error, h.sink, h.broken⟩

/-- The notices come first. -/
theorem noticed (h : x.Took request sink []) : x.noticed.Took request sink request.notice := by
  have key : ∀ (es ds : List OutputEvent) (y : Execution), y.Took request sink ds →
      (es.foldl Execution.take y).Took request sink (ds ++ es) := by
    intro es
    induction es with
    | nil => intro ds y hy; simpa using hy
    | cons e es ih =>
      intro ds y hy
      have hnext := ih (ds ++ [e]) (y.take e) (hy.take e)
      rwa [List.append_assoc] at hnext
  unfold Execution.noticed
  rw [h.request]
  exact key request.notice [] x h

end Execution.Took

/-! ## What has passed in each phase -/

/-- The result is finished, and holds this output and the failure or the first error of the output. -/
structure ExecutionResult.Reports (es : List OutputEvent) (f : Option Failure)
    (res : ExecutionResult) : Prop where
  outputs : res.outputs = es
  error : ErrorOf f es res.error
  status : res.status = if res.error.isSome then .error else .success

/-- What has passed between an execution of the request and the pool and the transport, and what the
execution has made of it. -/
inductive Course (request : ExecuteRequest) (sink : Sink) : List Exchange → Phase → Prop
  | acquiring (x : Execution) (h : x.Took request sink []) : Course request sink [] (.acquiring x)
  | submitting (i : Nat) (x : Execution) (left : request.submission.code.allBlank = false)
      (h : x.Took request sink request.notice) :
      Course request sink [.acquired i, .submitted i request.toSubmit]
        (.submitting x i request.toSubmit)
  | reading (i : Nat) (r : RequestId) (ms : List Mail) (x : Execution)
      (left : request.submission.code.allBlank = false)
      (going : ∀ m ∈ ms, (m.deliveryFor r).closes = false)
      (h : x.Took request sink (request.notice ++ eventsFor r ms)) :
      Course request sink
        (.acquired i :: .submitted i request.toSubmit :: .accepted r :: ms.map .received)
        (.reading x i r)
  | removing (seen : List Exchange) (es : List OutputEvent) (x : Execution)
      (went : Transcript request seen es none) (h : x.Took request sink es) :
      Course request sink seen (.removing x)
  | ended (seen : List Exchange) (es : List OutputEvent) (f : Option Failure) (res : ExecutionResult)
      (went : Transcript request seen es f) (h : res.Reports es f) :
      Course request sink seen (.ended res (sink.after es))

variable {request : ExecuteRequest} {sink : Sink} {es : List OutputEvent} {x y : Execution}
  {r : RequestId} {m : Mail} {ms : List Mail}

theorem eventsFor_append (r : RequestId) (ms ks : List Mail) :
    eventsFor r (ms ++ ks) = eventsFor r ms ++ eventsFor r ks := List.filterMap_append

theorem eventsFor_singleton (r : RequestId) (m : Mail) :
    eventsFor r [m] = (m.deliveryFor r).event?.toList := by
  unfold eventsFor
  cases h : (m.deliveryFor r).event? <;> simp [h]

namespace Execution.Took

theorem finish (h : x.Took request sink es) (now : Nat) :
    (x.result.finish now).Reports es none where
  outputs := h.outputs
  error := by
    show ErrorOf none es x.result.error
    rw [h.error]
    exact errorOf_output es
  status := rfl

theorem fail (h : x.Took request sink es) (f : Failure) (now : Nat) :
    (x.result.fail f now).Reports es (some f) :=
  ⟨h.outputs, .failed f es, rfl⟩

/-- The item that ends a stream may bring a last event. -/
theorem closes (h : x.Took request sink es) (hc : Closes r x m y) :
    y.Took request sink (es ++ eventsFor r [m]) ∧ (m.deliveryFor r).closes = true := by
  rw [eventsFor_singleton]
  cases hc with
  | ended hm =>
    rw [hm]
    exact ⟨by simpa [Delivery.event?] using h, rfl⟩
  | broken e hm =>
    rw [hm]
    exact ⟨h.take e, rfl⟩

end Execution.Took

namespace Course

variable {seen ex : List Exchange} {φ φ' : Phase}

/-- The stream has been read up to the item that ends it. -/
theorem read_of_closes {i : Nat} (left : request.submission.code.allBlank = false)
    (going : ∀ m ∈ ms, (m.deliveryFor r).closes = false)
    (h : x.Took request sink (request.notice ++ eventsFor r ms)) (hc : Closes r x m y) :
    Transcript request
      (.acquired i :: .submitted i request.toSubmit :: .accepted r ::
        (ms ++ [m]).map Exchange.received)
      (request.notice ++ eventsFor r (ms ++ [m])) none ∧
    y.Took request sink (request.notice ++ eventsFor r (ms ++ [m])) := by
  obtain ⟨hy, hlast⟩ := h.closes hc
  rw [List.append_assoc, ← eventsFor_append] at hy
  exact ⟨.read i r ms m left going hlast, hy⟩

/-- The stream goes on after an item that does not end it. -/
theorem more {i : Nat} (left : request.submission.code.allBlank = false)
    (going : ∀ m ∈ ms, (m.deliveryFor r).closes = false) (hm : (m.deliveryFor r).closes = false)
    (h : y.Took request sink (request.notice ++ eventsFor r (ms ++ [m]))) :
    Course request sink
      ((.acquired i :: .submitted i request.toSubmit :: .accepted r :: ms.map .received) ++
        [.received m]) (.reading y i r) := by
  have hgoing : ∀ k ∈ ms ++ [m], (k.deliveryFor r).closes = false := by
    intro k hk
    rcases List.mem_append.mp hk with hk | hk
    · exact going k hk
    · rwa [List.mem_singleton.mp hk]
  have hnow := Course.reading i r (ms ++ [m]) y left hgoing h
  rwa [List.map_append] at hnow

theorem next (h : Course request sink seen φ) (hn : φ.Next ex φ') :
    Course request sink (seen ++ ex) φ' := by
  cases hn with
  | stay => rwa [List.append_nil]
  | refused x f now =>
    cases h with
    | acquiring _ hx => exact hx.sink ▸ .ended _ [] (some f) _ (.refused f) (hx.fail f now)
  | blank x i n now hblank =>
    cases h with
    | acquiring _ hx =>
      have ht := hx.noticed
      rw [hx.request] at hblank
      exact ht.sink ▸ .ended _ _ none _ (.blank i hblank) ((ht.counted n).finish now)
  | submit x i hleft =>
    cases h with
    | acquiring _ hx =>
      rw [hx.request] at hleft ⊢
      exact .submitting i _ hleft hx.noticed
  | rejected x i code f now =>
    cases h with
    | submitting _ _ hleft hx =>
      exact hx.sink ▸ .ended _ _ (some f) _ (.rejected i f hleft) (hx.fail f now)
  | accepted x i code r =>
    cases h with
    | submitting _ _ hleft hx =>
      refine .reading i r [] x hleft (by simp) ?_
      simpa [eventsFor] using hx
  | skip x i r m hm =>
    cases h with
    | reading _ _ ms _ left going hx =>
      apply more left going (by rw [hm]; rfl)
      rw [eventsFor_append, eventsFor_singleton, hm]
      simpa [Delivery.event?] using hx
  | output x i r m e hm =>
    cases h with
    | reading _ _ ms _ left going hx =>
      apply more left going (by rw [hm]; rfl)
      rw [eventsFor_append, eventsFor_singleton, hm, ← List.append_assoc]
      exact hx.take e
  | close x y i r m n now hc =>
    cases h with
    | reading _ _ ms _ hleft going hx =>
      obtain ⟨went, hy⟩ := read_of_closes (i := i) hleft going hx hc
      have reports := (hy.counted n).finish now
      have hnow : Course request sink _ (.ended _ (sink.after _)) := .ended _ _ none _ went reports
      rw [List.map_append, ← hy.sink] at hnow
      exact hnow
  | fail x y i r m n hc =>
    cases h with
    | reading _ _ ms _ hleft going hx =>
      obtain ⟨went, hy⟩ := read_of_closes (i := i) hleft going hx hc
      have hnow := Course.removing _ _ _ went (hy.counted n)
      rwa [List.map_append] at hnow
  | removed x now =>
    cases h with
    | removing _ es _ went hx =>
      rw [List.append_nil]
      exact hx.sink ▸ .ended _ _ none _ went (hx.finish now)

end Course

/-! ## Runs -/

namespace Services

variable {s s₀ s' : Services} {t : TaskId} {reply : Reply}

theorem course_of_call (fresh : s₀.scene.Fresh)
    (step : s₀.step (.call (.execute request sink)) = some s) :
    ∃ φ, s.Shows s₀.nextTask φ ∧
      Course request sink (s₀.exchanges s₀.nextTask (.call (.execute request sink))) φ := by
  let t := s₀.nextTask
  let res : ExecutionResult :=
    .start (.fresh s₀.nextExecution) request.kernel request.cell s₀.pool.now
  let x : Execution := ⟨request, sink, res, false⟩
  let b := s₀.pool.start s₀.catalog t (.acquire request.kernel)
  let s₁ : Services :=
    { s₀ with nextTask := s₀.nextTask + 1, nextExecution := s₀.nextExecution + 1 }.remember res
  have hs : s = (({ s₁ with pool := b.pool } : Services).move t (.execution x) b.move).reap b.dead :=
    (Option.some.inj step).symm
  have took : x.Took request sink [] :=
    ⟨rfl, rfl, rfl, by cases sink <;> simp [Sink.after, x], rfl⟩
  have htold : s₀.told t (.call (.execute request sink)) = b.move.exchanges := by
    simp only [told, t, if_true, b]
  rw [exchanges_of_step step, htold]
  rcases Pool.start_acquire s₀.pool s₀.catalog t request.kernel with ⟨i, hmove⟩ | ⟨f, hmove⟩
  · have hwait : b.move = .wait (.acquireLock i) := hmove
    have hset : Services.Shows (({ s₁ with pool := b.pool } : Services).move t (.execution x)
        (.wait (.acquireLock i))) t (.acquiring x) :=
      ⟨fresh.reply _ (Nat.le_refl _), _, Table.get?_set_self .., trivial⟩
    have hshows : s.Shows t (.acquiring x) := by
      rw [hs, hwait]
      exact shows_reap b.dead (Nat.lt_succ_self _) hset
    refine ⟨_, hshows, ?_⟩
    rw [submits_eq_nil hshows (by simp), hwait]
    exact .acquiring x took
  · have hfail : b.move = .finish (.failed f) := hmove
    have hend : Services.Shows (({ s₁ with pool := b.pool } : Services).move t (.execution x)
        (.finish (.failed f))) t (.ended (res.fail f b.pool.now) sink) := shows_conclude ..
    have hshows : s.Shows t (.ended (res.fail f b.pool.now) sink) := by
      rw [hs, hfail]
      exact shows_reap b.dead (Nat.lt_succ_self _) hend
    refine ⟨_, hshows, ?_⟩
    rw [submits_eq_nil hshows (by simp), hfail]
    exact (Course.acquiring x took).next (.refused x f b.pool.now)

theorem course_of_run {ls : List Label} (sound : s₀.scene.Sound)
    (run : s₀.run (.call (.execute request sink) :: ls) = some s) :
    ∃ φ, s.Shows s₀.nextTask φ ∧
      Course request sink (s₀.gather (exchanges s₀.nextTask) (.call (.execute request sink) :: ls))
        φ := by
  obtain ⟨s₁, step, run⟩ := Option.bind_eq_some_iff.mp run
  have first := course_of_call sound.fresh step
  have hlt : s₀.nextTask < s₁.nextTask := nextTask_le_step sound step
  obtain ⟨φ, hφ, course⟩ := first
  rw [gather_cons step]
  have hkeep := shows_run (f := exchanges s₀.nextTask) (P := fun _ => True) (K := fun _ => True)
    (J := Course request sink) (fun _ _ _ _ _ _ _ => trivial)
    (fun _ _ _ _ _ _ _ _ _ _ _ hnext h => h.next hnext) (fun _ _ => trivial)
    (sound_step sound step) hlt trivial _ hφ course run
  exact hkeep.2

/-- An execution that has returned went one of the four ways. -/
theorem returned_of_run {ls : List Label} (sound : s₀.scene.Sound)
    (run : s₀.run (.call (.execute request sink) :: ls) = some s)
    (returned : s.replies.get? s₀.nextTask = some reply) :
    ∃ res es f, reply = .result res (sink.after es) ∧ res.Reports es f ∧
      Transcript request
        (s₀.gather (exchanges s₀.nextTask) (.call (.execute request sink) :: ls)) es f := by
  obtain ⟨φ, hshows, course⟩ := course_of_run sound run
  generalize s₀.gather (exchanges s₀.nextTask) (.call (.execute request sink) :: ls) = seen
    at course ⊢
  cases course with
  | ended _ es f res went reports =>
    exact ⟨res, es, f, Option.some.inj (returned.symm.trans hshows.1), reports, went⟩
  | acquiring | submitting | reading | removing =>
    exact absurd (hshows.1.symm.trans returned) (by simp)

/-- Whatever the pool and the transport do: an execution that returns went one of the four ways, its
result is finished and holds just the output of it with the failure or the first error and the
status to match, and an open sink has received the same output. With any other sink, the same steps
come to the same result. -/
theorem execute_returns (config : Config) (catalog : Catalog) (before ls : List Label)
    (s₀ s : Services) (request : ExecuteRequest) (sink : Sink) (reply : Reply)
    (start : (init config catalog).run before = some s₀)
    (run : s₀.run (.call (.execute request sink) :: ls) = some s)
    (returned : s.replies.get? s₀.nextTask = some reply) :
    ∃ res es f, reply = .result res (sink.after es) ∧ res.isFinished = true ∧
      Transcript request
        (s₀.gather (exchanges s₀.nextTask) (.call (.execute request sink) :: ls)) es f ∧
      res.outputs = es ∧ ErrorOf f es res.error ∧
      res.status = (if res.error.isSome then .error else .success) ∧
      ∀ other : Sink, ∃ s', s₀.run (.call (.execute request other) :: ls) = some s' ∧
        s'.replies.get? s₀.nextTask = some (.result res (other.after es)) := by
  have sound := sound_run (sound_init config catalog) start
  obtain ⟨res, es, f, rfl, reports, went⟩ := returned_of_run sound run returned
  refine ⟨res, es, f, rfl, ?_, went, reports.outputs, reports.error, reports.status, ?_⟩
  · rw [ExecutionResult.isFinished, reports.status]
    split <;> rfl
  · intro other
    have labels : (.call (.execute request other) :: ls).map Label.blind =
        (.call (.execute request sink) :: ls).map Label.blind := rfl
    obtain ⟨s', run', same⟩ := run_of_blind labels run
    obtain ⟨k, returned'⟩ := result_of_blind same returned
    obtain ⟨res', es', f', hreply, reports', -⟩ := returned_of_run sound run' returned'
    obtain ⟨rfl, rfl⟩ := Reply.result.inj hreply
    obtain rfl : es' = es := reports'.outputs.symm.trans reports.outputs
    exact ⟨s', run', returned'⟩

/-- An execution of the first kernel. -/
def printer : Execution where
  request := ⟨.fresh 0, "1", none, false, true⟩
  sink := .open []
  result := .start (.fresh 0) (.fresh 0) none 0
  broken := false

/-- Code is submitted, prints something, and is done. -/
def printing : List Label :=
  [.call (.execute printer.request printer.sink), .resume 1, .resume 1, .submitted 1 ⟨"r"⟩,
    .deliver 0 (.message ⟨some ⟨"r"⟩, "stream",
      .object [("name", .string "stdout"), ("text", .string "hi")]⟩),
    .deliver 0 (.message ⟨some ⟨"r"⟩, "status", .object [("execution_state", .string "idle")]⟩),
    .resume 1, .resume 1]

/-- Code is submitted, prints something, raises an error and another one, and is done. -/
def raising : List Label :=
  [.resume 1, .resume 1, .submitted 1 ⟨"r"⟩,
    .deliver 0 (.message ⟨some ⟨"r"⟩, "stream",
      .object [("name", .string "stdout"), ("text", .string "hi")]⟩),
    .deliver 0 (.message ⟨some ⟨"r"⟩, "error", .object [("ename", .string "ValueError"),
      ("evalue", .string "bad"), ("traceback", .array [.string "line 1"])]⟩),
    .deliver 0 (.message ⟨some ⟨"r"⟩, "error", .object [("ename", .string "KeyError"),
      ("evalue", .string "k"), ("traceback", .array [])]⟩),
    .deliver 0 (.message ⟨some ⟨"r"⟩, "status", .object [("execution_state", .string "idle")]⟩),
    .resume 1, .resume 1, .resume 1, .resume 1]

/-- The result of the first execution when it has ended at once. -/
def endedWith (kernel : KernelId) (es : List OutputEvent) (error : Option ExecutionError)
    (count : Option Nat) : ExecutionResult where
  id := .fresh 0
  kernel
  status := if error.isSome then .error else .success
  cell := none
  outputs := es
  error
  startedAt := 0
  completedAt := some 0
  duration := some 0
  executionCount := count

/-- Code that prints something has no error, and code that raises some has the first of them. There is
no slot on a kernel that is not there, and the transport may not take the code: then the error says
so. -/
theorem execute_returns_each_way :
    ∃ s₀, (init { } [.python3]).run booting = some s₀ ∧
      ∀ x ∈ [(KernelId.fresh 0, printing.tail, endedWith (.fresh 0) [.stdout "hi"] none (some 1)),
        (.fresh 0, raising, endedWith (.fresh 0)
          [.stdout "hi", .error "ValueError" "bad" ["line 1"], .error "KeyError" "k" []]
          (some ⟨"ValueError", "bad", ["line 1"]⟩) (some 1)),
        (⟨"k"⟩, [], endedWith ⟨"k"⟩ [] (some ⟨"KernelNotFound", "kernel not found: k", []⟩) none),
        (.fresh 0, [.resume 1, .resume 1, .answer 1 (.failed (.channel "gone"))], endedWith (.fresh 0) []
          (some ⟨"ChannelFailure", "channel failure: gone", []⟩) none)],
        ∃ s f, s₀.run (.call (.execute { kernel := x.1, code := "1" } (.open [])) :: x.2.1) = some s ∧
          s.replies.get? s₀.nextTask = some (.result x.2.2 (.open x.2.2.outputs)) ∧
          x.2.2.isFinished = true ∧ ErrorOf f x.2.2.outputs x.2.2.error := by
  obtain ⟨s₀, start⟩ : ∃ s₀, (init { } [.python3]).run booting = some s₀ :=
    Option.isSome_iff_exists.mp (by decide)
  refine ⟨s₀, start, fun x hx => ?_⟩
  have replied : ((init { } [.python3]).run booting).bind (fun s₀ =>
      (s₀.run (.call (.execute { kernel := x.1, code := "1" } (.open [])) :: x.2.1)).bind
        fun s => s.replies.get? s₀.nextTask) = some (.result x.2.2 (.open x.2.2.outputs)) := by
    simp only [List.mem_cons, List.not_mem_nil, or_false] at hx
    rcases hx with rfl | rfl | rfl | rfl <;> decide
  rw [start, Option.bind_some] at replied
  obtain ⟨s, run, returned⟩ := Option.bind_eq_some_iff.mp replied
  obtain ⟨res, es, f, hreply, finished, -, rfl, error, -⟩ :=
    execute_returns { } [.python3] booting _ s₀ s _ _ _ start run returned
  obtain ⟨rfl, -⟩ := Reply.result.inj hreply
  exact ⟨s, f, run, returned, finished, error⟩

end Services
end NotebookKernels
