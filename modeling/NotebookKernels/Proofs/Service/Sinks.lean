import NotebookKernels.Proofs.Service.Course

/- Nobody reads a sink.

   `Services.blind` forgets where the output of the executions goes besides their results. Every step can
   be taken without knowing it: `blind_step` says that forgetting before a step or after it comes to the
   same. So two runs that differ in the sinks alone have the same steps and the same results. -/
namespace NotebookKernels

namespace Execution

/-- The execution without its sink. -/
def blind (x : Execution) : Execution := { x with sink := .absent }

end Execution

/-- The work without its sink. -/
def Work.blind : Work → Work
  | .execution x => .execution x.blind
  | w => w

/-- The activity without its sink. -/
def Activity.blind : Activity → Activity
  | .pool w stage => .pool w.blind stage
  | .submitting w i code => .submitting w.blind i code
  | .receiving w i r => .receiving w.blind i r
  | .pausing w i r => .pausing w.blind i r
  | .querying i request => .querying i request

/-- The reply without its sink. -/
def Reply.blind : Reply → Reply
  | .result r _ => .result r .absent
  | r => r

/-- The call without its sink. -/
def Call.blind : Call → Call
  | .execute request _ => .execute request .absent
  | c => c

/-- The label without its sink. -/
def Label.blind : Label → Label
  | .call c => .call c.blind
  | l => l

namespace Table

variable {κ α β : Type} [DecidableEq κ]

/-- Changes every value. -/
def mapValues (f : α → β) (tab : Table κ α) : Table κ β := tab.map fun p => (p.1, f p.2)

theorem get?_mapValues (f : α → β) (k : κ) (tab : Table κ α) :
    get? k (mapValues f tab) = (get? k tab).map f := by
  induction tab with
  | nil => rfl
  | cons p r ih =>
    obtain ⟨l, a⟩ := p
    by_cases h : l = k
    · simp [mapValues, get?, h]
    · simpa [mapValues, get?, h] using ih

theorem mapValues_set (f : α → β) (k : κ) (a : α) (tab : Table κ α) :
    mapValues f (set k a tab) = set k (f a) (mapValues f tab) := by
  induction tab with
  | nil => rfl
  | cons p r ih =>
    obtain ⟨l, b⟩ := p
    by_cases h : l = k
    · simp [mapValues, set, h]
    · simpa [mapValues, set, h] using ih

theorem mapValues_erase (f : α → β) (k : κ) (tab : Table κ α) :
    mapValues f (erase k tab) = erase k (mapValues f tab) := by
  induction tab with
  | nil => rfl
  | cons p r ih =>
    obtain ⟨l, b⟩ := p
    by_cases h : l = k
    · simpa [mapValues, erase, h] using ih
    · simpa [mapValues, erase, h] using ih

end Table

namespace Services

/-- The services without the sinks. -/
def blind (s : Services) : Services :=
  { s with
    tasks := Table.mapValues Activity.blind s.tasks
    replies := Table.mapValues Reply.blind s.replies }

variable {s : Services} {t : TaskId} {i : Nat}

/-! ## The parts of a step -/

theorem blind_setTask (a : Activity) : (s.setTask t a).blind = s.blind.setTask t a.blind := by
  simp only [blind, setTask, Table.mapValues_set]

theorem blind_finish (r : Reply) : (s.finish t r).blind = s.blind.finish t r.blind := by
  simp only [blind, finish, Table.mapValues_set, Table.mapValues_erase]

theorem blind_reap (dead : List Nat) : (s.reap dead).blind = s.blind.reap dead := by
  induction dead generalizing s with
  | nil => rfl
  | cons i r ih =>
    let s₁ : Services :=
      { s with
        tasks := s.tasks.set s.nextTask (.pool .operation (.reap i))
        nextTask := s.nextTask + 1 }
    have hset : s₁.blind =
        { s.blind with
          tasks := s.blind.tasks.set s.blind.nextTask (.pool .operation (.reap i))
          nextTask := s.blind.nextTask + 1 } := by
      simp only [blind, s₁, Table.mapValues_set]
      rfl
    exact (ih (s := s₁)).trans (congrArg (Services.reap · r) hset)

theorem blind_dropSlot (u : TaskId) : (s.dropSlot u).blind = s.blind.dropSlot u := by
  have hslots : s.blind.slots = s.slots := rfl
  unfold dropSlot
  rw [hslots]
  split <;> rfl

theorem blind_conclude (k : Sink) (r : ExecutionResult) :
    (s.conclude t k r).blind = s.blind.conclude t .absent r :=
  blind_finish (s := s.remember r) _

theorem blind_complete (x : Execution) : (s.complete t x).blind = s.blind.complete t x.blind :=
  blind_conclude ..

theorem blind_fail (x : Execution) (f : Failure) :
    (s.fail t x f).blind = s.blind.fail t x.blind f := blind_conclude ..

theorem blind_noticed (x : Execution) : x.noticed.blind = x.blind.noticed := by
  have hrequest : x.blind.request = x.request := rfl
  rw [noticed_eq, noticed_eq, hrequest]
  split <;> rfl

theorem blind_execute (x : Execution) : (s.execute t i x).blind = s.blind.execute t i x.blind := by
  have hrequest : x.blind.request = x.request := rfl
  rw [execute_eq, execute_eq, hrequest]
  split
  · rw [blind_complete, blind_dropSlot, ← blind_noticed]
    rfl
  · rw [blind_setTask, ← blind_noticed]
    rfl

theorem blind_list : (s.list t i).blind = s.blind.list t i := by
  have hpool : s.blind.pool = s.pool := rfl
  unfold list
  rw [hpool]
  split
  · rw [blind_finish, blind_dropSlot]
    rfl
  · rw [blind_setTask]
    rfl

theorem blind_move (w : Work) (m : Move) : (s.move t w m).blind = s.blind.move t w.blind m := by
  cases m with
  | wait stage => exact blind_setTask _
  | finish o =>
    cases w with
    | execution x =>
      cases o with
      | slot i => exact blind_execute (s := { s with slots := s.slots.set t i }) x
      | failed f => exact blind_fail x f
      | done | kernel | kernels | removed | flag | channel => exact blind_complete x
    | introspection =>
      cases o with
      | slot i => exact blind_list (s := { s with slots := s.slots.set t i })
      | done | kernel | kernels | removed | flag | channel | failed => exact blind_finish _
    | operation | listing | stream | submission =>
      cases o with
      | slot i => exact blind_finish (s := { s with slots := s.slots.set t i }) _
      | done | kernel | kernels | removed | flag | channel | failed => exact blind_finish _

theorem blind_startPool (w : Work) (c : PoolCall) :
    (s.startPool t w c).blind = s.blind.startPool t w.blind c := by
  let b := s.pool.start s.catalog t c
  have h : ((({ s with pool := b.pool } : Services).move t w b.move).reap b.dead).blind =
      ((({ s with pool := b.pool } : Services).blind.move t w.blind b.move)).reap b.dead := by
    rw [blind_reap, blind_move]
  exact h

theorem blind_takeOutput (e : OutputEvent) (w : Work) :
    (s.takeOutput e w).blind = s.blind.takeOutput e w.blind := by
  cases w <;> rfl

theorem blind_counting (x : Execution) : (s.counting i x).blind = s.blind.counting i x.blind := by
  have hrequest : x.blind.request = x.request := rfl
  unfold counting
  rw [hrequest]
  split <;> rfl

theorem blind_endStream (w : Work) : (s.endStream t i w).blind = s.blind.endStream t i w.blind := by
  cases w with
  | execution x =>
    have hcount : (s.blind.counting i x.blind).countOf i = (s.counting i x).countOf i := by
      rw [← blind_counting]
      rfl
    show _ = s.blind.endStream t i (.execution x.blind)
    have hdrop : (s.blind.counting i x.blind).dropSlot t = ((s.counting i x).dropSlot t).blind := by
      rw [blind_dropSlot, blind_counting]
    rw [endStream_eq, endStream_eq, hdrop, hcount]
    have hbroken : x.blind.broken = x.broken := rfl
    rw [hbroken]
    split
    · exact blind_startPool _ _
    · exact blind_complete _
  | listing l =>
    simp only [endStream, blind_finish, blind_dropSlot]
    rfl
  | stream => exact blind_finish _
  | operation | introspection | submission => exact blind_finish _

theorem blind_receive (w : Work) (r : RequestId) (m : Mail) :
    (s.receive t w i r m).blind = s.blind.receive t w.blind i r m := by
  unfold receive
  split
  · exact blind_setTask _
  · rw [blind_setTask, ← blind_takeOutput]
    rfl
  · exact blind_endStream w
  · rw [blind_endStream, blind_takeOutput]

theorem blind_start (c : Call) : (s.start t c).blind = s.blind.start t c.blind := by
  have hheld : ∀ u, s.blind.held? u = s.held? u := by
    intro u
    simp only [held?, blind, Table.get?_mapValues, Option.isSome_map]
  cases c with
  | pool c => exact blind_startPool _ _
  | record u =>
    simp only [start, Call.blind, hheld]
    split <;> exact blind_finish _
  | count u =>
    simp only [start, Call.blind, hheld]
    split <;> exact blind_finish _
  | release u =>
    simp only [start, Call.blind, hheld]
    split
    · exact blind_finish _
    · rw [blind_finish, blind_dropSlot]
      rfl
  | execute request k =>
    exact blind_startPool (s := { s with nextExecution := s.nextExecution + 1 }.remember _) _ _
  | introspect id => exact blind_startPool _ _
  | result id =>
    have hresults : s.blind.results = s.results := rfl
    simp only [start, Call.blind, hresults]
    split <;> exact blind_finish _
  | submit i code => exact blind_setTask _
  | stream i r => exact blind_setTask _
  | list i => exact blind_list
  | query i r => exact blind_setTask _

theorem blind_resume (a : Activity) :
    (s.resume t a).map blind = s.blind.resume t a.blind := by
  cases a with
  | pool w stage =>
    simp only [resume, Activity.blind, Option.map_map]
    apply congrArg (Option.map · _)
    funext next
    obtain ⟨p, m⟩ := next
    exact blind_move (s := { s with pool := p }) w m
  | receiving w i r =>
    have hpool : s.blind.pool = s.pool := rfl
    simp only [resume, Activity.blind, hpool]
    split
    · rfl
    · exact congrArg some (blind_receive (s := { s with pool := _ }) w r _)
  | submitting | querying | pausing => rfl

theorem blind_answer (a : Activity) (ans : Answer) :
    (s.answer t a ans).map blind = s.blind.answer t a.blind ans := by
  cases a with
  | pool w stage =>
    simp only [answer, Activity.blind, Option.map_map]
    apply congrArg (Option.map · _)
    funext next
    obtain ⟨p, m⟩ := next
    exact blind_move (s := { s with pool := p }) w m
  | submitting w i code =>
    cases ans with
    | failed f =>
      cases w with
      | execution x =>
        apply congrArg some
        rw [blind_fail, blind_dropSlot]
      | operation | introspection | listing | stream | submission =>
        apply congrArg some
        rw [blind_finish, blind_dropSlot]
        rfl
    | ok | elapsed => cases w <;> rfl
  | querying i request =>
    cases ans with
    | failed f => exact congrArg some (blind_finish _)
    | ok | elapsed => rfl
  | receiving w i r =>
    cases ans with
    | failed f => exact congrArg some (blind_receive w r _)
    | elapsed => exact congrArg some (blind_setTask _)
    | ok => rfl
  | pausing w i r =>
    cases ans with
    | elapsed => exact congrArg some (blind_setTask _)
    | ok | failed => rfl

theorem blind_accept (r : RequestId) (a : Activity) :
    (s.accept t r a).map blind = s.blind.accept t r a.blind := by
  cases a with
  | submitting w i code =>
    cases w with
    | submission => exact congrArg some (blind_finish _)
    | operation | execution | introspection | listing | stream =>
      exact congrArg some (blind_setTask _)
  | pool | querying | receiving | pausing => rfl

theorem blind_take (v : Json) (a : Activity) :
    (s.take t v a).map blind = s.blind.take t v a.blind := by
  cases a with
  | querying => exact congrArg some (blind_finish _)
  | pool | submitting | receiving | pausing => rfl

theorem blind_expire (a : Activity) :
    (s.expire t a).map blind = s.blind.expire t a.blind := by
  cases a with
  | receiving w | pausing w =>
    cases w with
    | listing => exact congrArg some (blind_endStream _)
    | operation | execution | introspection | stream | submission => rfl
  | pool | submitting | querying => rfl

/-! ## Steps and runs -/

/-- What the activity of a task decides is decided without the sinks. -/
theorem blind_bind {f g : Activity → Option Services}
    (h : ∀ a, (f a).map blind = g a.blind) :
    ((s.tasks.get? t).bind f).map blind = (s.blind.tasks.get? t).bind g := by
  simp only [blind, Table.get?_mapValues]
  cases s.tasks.get? t with
  | none => rfl
  | some a => exact h a

/-- No step reads a sink. -/
theorem blind_step (l : Label) : (s.step l).map blind = s.blind.step l.blind := by
  cases l with
  | call c => exact congrArg some (blind_start (s := { s with nextTask := s.nextTask + 1 }) c)
  | resume t => exact blind_bind blind_resume
  | answer t ans => exact blind_bind (blind_answer · ans)
  | submitted t r => exact blind_bind (blind_accept r)
  | replied t v => exact blind_bind (blind_take v)
  | expire t => exact blind_bind blind_expire
  | alive | deliver | renew | pass => rfl

/-- No run reads a sink. -/
theorem blind_run (ls : List Label) : (s.run ls).map blind = s.blind.run (ls.map Label.blind) := by
  induction ls generalizing s with
  | nil => rfl
  | cons l ls ih =>
    simp only [run, List.map_cons, ← blind_step]
    cases s.step l with
    | none => rfl
    | some s' => exact ih

/-- The same steps can be taken with another sink, and come to the same results. -/
theorem run_of_blind {ls ks : List Label} {s' : Services} (same : ks.map Label.blind = ls.map Label.blind)
    (run : s.run ls = some s') :
    ∃ s₂, s.run ks = some s₂ ∧ s₂.blind = s'.blind := by
  have h : (s.run ks).map blind = some s'.blind := by
    rw [blind_run, same, ← blind_run, run]
    rfl
  exact Option.map_eq_some_iff.mp h

/-- Services that are the same without the sinks have the same results. -/
theorem result_of_blind {s s' : Services} (same : s'.blind = s.blind) {r : ExecutionResult} {k : Sink}
    (h : s.replies.get? t = some (.result r k)) :
    ∃ k', s'.replies.get? t = some (.result r k') := by
  have hget : (s'.replies.get? t).map Reply.blind = some (.result r .absent) := by
    have hreplies := congrArg Services.replies same
    simp only [blind] at hreplies
    rw [← Table.get?_mapValues, hreplies, Table.get?_mapValues, h]
    rfl
  obtain ⟨reply, hreply, hblind⟩ := Option.map_eq_some_iff.mp hget
  cases reply with
  | result r' k' =>
    obtain ⟨rfl, -⟩ := Reply.result.inj hblind
    exact ⟨k', hreply⟩
  | pool | count | listing | events | submitted | value => cases hblind

end Services
end NotebookKernels
