import NotebookKernels.Proofs.CommandLine.Account

/- What the run of a script says and asks, and what it comes to.

   The calls of a run are those to create a kernel, to execute cells, to list variables and to shut
   down, in this order. `Batch` is the part of the cells, with the number of those that have failed. Which
   replies there can be is known from the calls alone (`Proofs.Service.Replies`), so a run fails just
   where one of its calls does. -/
namespace NotebookKernels

open Conversation (Held)
open Style

namespace RunOptions

/-! ## The calls of a run -/

/-- The request of an execution. -/
def request? : Call × Option Reply → Option ExecuteRequest
  | (.execute r _, _) => some r
  | _ => none

/-- The kernel that a call to create one came to. -/
def kernel? : Call × Option Reply → Option Kernel
  | (.pool (.create ..), some (.pool (.kernel k))) => some k
  | _ => none

/-- An execution with an error for its result. -/
inductive Errs : Call × Option Reply → Prop
  | intro {q : ExecuteRequest} {sink sink' : Sink} {r : ExecutionResult} (error : r.status = .error) :
    Errs (.execute q sink, some (.result r sink'))

/-- What makes a run fail. -/
inductive Fails : Call × Option Reply → Prop
  | creation (request : KernelCreate) (refusal : Option Failure) (f : Failure) :
    Fails (.pool (.create request refusal), some (.pool (.failed f)))
  | execution {q : ExecuteRequest} {sink sink' : Sink} {r : ExecutionResult}
    (error : r.status = .error) : Fails (.execute q sink, some (.result r sink'))
  | listing (id : KernelId) (f : Failure) : Fails (.introspect id, some (.pool (.failed f)))

/-- A script has been run, as far as the services have replied. -/
structure Ran (o : RunOptions) (script : List Cell) (seen : List Remark)
    (outcome : Option (Except Report Unit)) : Prop where
  /-- There is an outcome unless some call does not reply. -/
  waits : outcome = none ↔ ∃ c, (c, none) ∈ calls seen
  /-- The cells are executed in order on the kernel that was created, each once at most. -/
  inOrder : (calls seen).filterMap request? <+:
    ((calls seen).findSome? kernel?).elim [] fun k => script.map (request k.id)
  /-- Without leave to keep going, nothing is executed after an error. -/
  stops : o.keepGoing = false → (calls seen).Pairwise fun x y => Errs x → request? y = none
  /-- Otherwise all cells are executed. -/
  all : outcome ≠ none → (o.keepGoing = true ∨ ∀ x ∈ calls seen, ¬Errs x) →
    ∀ k, (calls seen).findSome? kernel? = some k →
      (calls seen).filterMap request? = script.map (request k.id)
  told : Told seen
  /-- The variables are listed if this is wanted. -/
  listed : outcome ≠ none → ∀ k, (calls seen).findSome? kernel? = some k →
    (o.vars = true ↔ ∃ reply, (.introspect k.id, reply) ∈ calls seen)
  /-- The run fails just where a call does. -/
  fails : outcome ≠ none →
    ((∃ report, outcome = some (.error report)) ↔ ∃ x ∈ calls seen, Fails x)
  /-- In the end all kernels are shut down. -/
  closes : outcome ≠ none → (calls seen).getLast? = some (.pool .shutdownAll, some (.pool .done))

/-- What some calls come to: whether all is well, unless one of them does not reply. -/
structure Judged (xs : List (Call × Option Reply)) (v : Option Bool) : Prop where
  waits : v = none ↔ ∃ c, (c, none) ∈ xs
  fails : ∀ b, v = some b → (b = false ↔ ∃ x ∈ xs, Fails x)

/-- The remark that a cell has been executed. -/
def executed (id : KernelId) (cell : Cell) (r : ExecutionResult) : Remark :=
  .called (.execute (request id cell) (.open [])) (some (.result r (.open r.outputs)))

/-- Cells are run: what is said and asked, and how many of them have failed, unless an execution does
not reply. -/
inductive Batch (o : RunOptions) (id : KernelId) : List Cell → List Remark → Option Nat → Prop
  | done : Batch o id [] [] (some 0)
  | waiting {cell : Cell} {more : List Cell} (text : String) : Batch o id (cell :: more)
    [.printed text, .called (.execute (request id cell) (.open [])) none] none
  | stopped {cell : Cell} {more : List Cell} {r : ExecutionResult} (text : String)
    (sincere : r.Sincere) (error : r.status = .error) (stops : o.keepGoing = false) :
    Batch o id (cell :: more) (.printed text :: executed id cell r :: account r) (some 1)
  | next {cell : Cell} {more : List Cell} {r : ExecutionResult} {seen : List Remark} {n : Option Nat}
    (text : String) (sincere : r.Sincere) (goes : r.status = .error → o.keepGoing = true)
    (rest : Batch o id more seen n) :
    Batch o id (cell :: more) (.printed text :: executed id cell r :: (account r ++ seen))
      (n.map ((if r.status = .error then 1 else 0) + ·))

variable {o : RunOptions} {id : KernelId} {s s' : Services} {seen : List Remark}
  {outcome : Option (Except Report Unit)} {cell : Cell} {cells : List Cell} {n : Option Nat}
  {r : ExecutionResult} {xs ys : List (Call × Option Reply)} {v : Option Bool} {b : Bool}

/-! ## Verdicts -/

@[simp] theorem errs_execute {q : ExecuteRequest} {sink sink' : Sink} :
    Errs (.execute q sink, some (.result r sink')) ↔ r.status = .error :=
  ⟨fun h => by cases h; assumption, .intro⟩

@[simp] theorem fails_execute {q : ExecuteRequest} {sink sink' : Sink} :
    Fails (.execute q sink, some (.result r sink')) ↔ r.status = .error :=
  ⟨fun h => by cases h; assumption, .execution⟩

theorem judged_nil : Judged [] (some true) := ⟨by simp, by simp⟩

theorem judged_waiting (c : Call) : Judged [(c, none)] none := ⟨by simp, by simp⟩

theorem judged_replied {c : Call} {reply : Reply} (h : b = false ↔ Fails (c, some reply)) :
    Judged [(c, some reply)] (some b) := ⟨by simp, by simp [h]⟩

theorem Judged.append (h : Judged xs (some b)) (h' : Judged ys v) :
    Judged (xs ++ ys) (v.map (b && ·)) where
  waits := by simp [exists_or, ← h.waits, ← h'.waits]
  fails d hd := by
    obtain ⟨b', rfl, rfl⟩ := Option.map_eq_some_iff.mp hd
    simp only [List.mem_append, or_and_right, exists_or, ← h.fails b rfl, ← h'.fails b' rfl,
      Bool.and_eq_false_iff]

/-! ## The cells -/

/-- A cell is executed; after that the batch goes on or, if it is to stop at an error, ends. -/
theorem cell_of_held {total place failed : Nat} {rest : Nat → Conversation} (reached : s.Reached)
    (h : Held s (o.cells id total rest place failed (cell :: cells)) seen s' outcome) :
    (seen = [.printed (heading place total cell), .called (.execute (request id cell) (.open [])) none] ∧
      outcome = none) ∨
    ∃ r tail s₁, seen = .printed (heading place total cell) :: executed id cell r :: (account r ++ tail) ∧
      r.Sincere ∧ s₁.Reached ∧
      ((r.status = .error ∧ o.keepGoing = false ∧ Held s₁ (rest (failed + 1)) tail s' outcome) ∨
        (r.status = .error → o.keepGoing = true) ∧
          Held s₁ (o.cells id total rest (place + 1)
            (failed + if r.status = .error then 1 else 0) cells) tail s' outcome) := by
  rw [RunOptions.cells] at h
  obtain ⟨_, rfl, hprinted⟩ := h.of_print
  rcases hprinted.of_ask with ⟨ls, s₁, reply, after, rfl, run, returned, hreply⟩ | ⟨rfl, rfl⟩
  · obtain ⟨r, rfl, sincere⟩ := Services.result_of_returned reached run returned
    obtain ⟨mid, rfl, hmid⟩ := held_showEvents r.outputs hreply
    by_cases status : r.status = .error
    · rw [if_pos status] at hmid
      obtain ⟨tail, rfl, htail⟩ := held_explain hmid
      refine .inr ⟨r, tail, s₁, by rw [account, List.append_assoc]; rfl, sincere, reached.run run, ?_⟩
      rw [if_pos status]
      split at htail
      · next goes => exact .inr ⟨fun _ => goes, htail⟩
      · next stops => exact .inl ⟨status, by simpa using stops, htail⟩
    · rw [if_neg status] at hmid
      -- nothing is explained here, as an error is all there is to explain
      have quiet : explanation r = [] := by
        have : r.error = none := by simpa using mt sincere.status.mpr status
        rw [explanation, this]
      refine .inr ⟨r, mid, s₁, by rw [account, quiet, List.append_nil]; rfl, sincere,
        reached.run run, .inr ⟨fun h => absurd h status, ?_⟩⟩
      rwa [if_neg status]
  · exact .inl ⟨rfl, rfl⟩

theorem batch_of_held {total place failed : Nat} {rest : Nat → Conversation} (reached : s.Reached)
    (h : Held s (o.cells id total rest place failed cells) seen s' outcome) :
    ∃ front back n, seen = front ++ back ∧ Batch o id cells front n ∧
      (n = none → back = [] ∧ outcome = none) ∧
      ∀ k, n = some k → ∃ s₁, s₁.Reached ∧ Held s₁ (rest (failed + k)) back s' outcome := by
  -- the number of the cells that have failed before runs along with the induction
  induction cells generalizing s seen place failed with
  | nil => exact ⟨[], seen, some 0, rfl, .done, by simp, by simpa using ⟨s, reached, h⟩⟩
  | cons cell cells ih =>
    rcases cell_of_held reached h with ⟨rfl, rfl⟩ |
      ⟨r, tail, s₁, rfl, sincere, reached₁, ⟨status, stops, htail⟩ | ⟨goes, htail⟩⟩
    · exact ⟨_, [], none, (List.append_nil _).symm, .waiting _, by simp, by simp⟩
    · exact ⟨_, tail, some 1, rfl, .stopped _ sincere status stops, by simp,
        by simpa using ⟨s₁, reached₁, htail⟩⟩
    · obtain ⟨front, back, n, rfl, batch, hwait, hgo⟩ := ih reached₁ htail
      refine ⟨_, back, _, ?_, .next (heading place total cell) sincere goes batch,
        by simpa using hwait, ?_⟩
      · simp
      · intro k hk
        obtain ⟨j, rfl, rfl⟩ := Option.map_eq_some_iff.mp hk
        rw [← Nat.add_assoc]
        exact hgo j rfl

@[simp] theorem calls_executed (id : KernelId) (cell : Cell) (r : ExecutionResult)
    (seen : List Remark) : calls (executed id cell r :: seen) =
      (.execute (request id cell) (.open []), some (.result r (.open r.outputs))) :: calls seen := rfl

namespace Batch

/-- All calls of a batch are executions. -/
theorem executes (h : Batch o id cells seen n) {x : Call × Option Reply} (hx : x ∈ calls seen) :
    ∃ q sink, x.1 = .execute q sink := by
  induction h with
  | done => cases hx
  | waiting | stopped =>
    simp only [calls_printed, calls_executed, calls_called, calls_account, calls_nil,
      List.mem_singleton] at hx
    exact hx ▸ ⟨_, _, rfl⟩
  | next text sincere goes rest ih =>
    simp only [calls_printed, calls_executed, calls_append, calls_account, List.nil_append,
      List.mem_cons] at hx
    rcases hx with rfl | hx
    · exact ⟨_, _, rfl⟩
    · exact ih hx

theorem judged (h : Batch o id cells seen n) : Judged (calls seen) (n.map (· == 0)) := by
  induction h with
  | done => exact judged_nil
  | waiting => exact judged_waiting _
  | @stopped cell more r text sincere error stops =>
    rw [calls_printed, calls_executed, calls_account]
    exact judged_replied (iff_of_true rfl (fails_execute.mpr error))
  | @next cell more r seen n text sincere goes rest ih =>
    have first : Judged [(.execute (request id cell) (.open []), some (.result r (.open r.outputs)))]
        (some (r.status ≠ .error)) := judged_replied (by simp)
    -- the number is zero just if neither this cell nor one after it has failed
    have verdict (k : Nat) : ((if r.status = .error then 1 else 0) + k == 0) =
        (decide (r.status ≠ .error) && k == 0) := by
      by_cases status : r.status = .error <;> simp [status]
    simpa [Function.comp_def, verdict] using first.append ih

theorem inOrder (h : Batch o id cells seen n) :
    (calls seen).filterMap request? <+: cells.map (request id) := by
  induction h with
  | done => exact List.prefix_rfl
  | waiting | stopped => simp [request?]
  | next text sincere goes rest ih => simpa [request?] using ih

/-- All cells are executed, unless one fails and the batch is to stop then. -/
theorem all (h : Batch o id cells seen n) (replied : n ≠ none)
    (goes : o.keepGoing = true ∨ ∀ x ∈ calls seen, ¬Errs x) :
    (calls seen).filterMap request? = cells.map (request id) := by
  induction h with
  | done => rfl
  | waiting => exact absurd rfl replied
  | stopped text sincere error stops => simp [stops, error] at goes
  | next text sincere _ rest ih =>
    have rest := ih (by simpa using replied)
      (goes.imp_right fun good x hx => good x (by simp [hx]))
    simpa [request?] using rest

theorem stops (h : Batch o id cells seen n) (stops : o.keepGoing = false) :
    (calls seen).Pairwise fun x y => Errs x → request? y = none := by
  induction h with
  | done => exact .nil
  | waiting | stopped => simp
  | next text sincere goes rest ih =>
    rw [calls_printed, calls_executed, calls_append, calls_account]
    refine .cons (fun y _ error => ?_) ih
    exact absurd (goes (errs_execute.mp error)) (by simp [stops])

theorem told (h : Batch o id cells seen n) {back : List Remark} (hback : Told back) :
    Told (seen ++ back) := by
  induction h with
  | done => exact hback
  | waiting => exact told_cons (by simp) (told_cons (by simp) hback)
  | stopped text sincere error stops =>
    exact told_cons (by simp) <| told_executed (tells_account sincere back) <|
      told_append (calls_account _) hback
  | next text sincere goes rest ih =>
    rw [List.cons_append, List.cons_append, List.append_assoc]
    exact told_cons (by simp) <| told_executed (tells_account sincere _) <|
      told_append (calls_account _) ih

end Batch

/-! ## The end of a run -/

/-- All kernels are shut down, and then the run ends with this report. -/
inductive Leaving (report : Except Report Unit) :
    List (Call × Option Reply) → Option (Except Report Unit) → Prop
  | waiting : Leaving report [(.pool .shutdownAll, none)] none
  | done : Leaving report [(.pool .shutdownAll, some (.pool .done))] (some report)

/-- The end of a run after a batch in which all has gone well, or not. -/
structure Ending (o : RunOptions) (id : KernelId) (good : Bool) (seen : List Remark)
    (outcome : Option (Except Report Unit)) : Prop where
  others : ∀ x ∈ calls seen, request? x = none ∧ kernel? x = none
  judged : ∃ v, Judged (calls seen) v ∧ outcome.map Except.isOk = v.map (good && ·)
  listed : outcome ≠ none → (o.vars = true ↔ ∃ reply, (.introspect id, reply) ∈ calls seen)
  closes : outcome ≠ none → (calls seen).getLast? = some (.pool .shutdownAll, some (.pool .done))

section Ending
variable {report : Except Report Unit}

theorem leaving_of_held (reached : s.Reached) (h : Held s (leave report) seen s' outcome) :
    Leaving report (calls seen) outcome := by
  rcases h.of_ask with ⟨ls, s₁, reply, after, rfl, run, returned, hdone⟩ | ⟨rfl, rfl⟩
  · obtain rfl := Services.done_of_shutdownAll reached run returned
    obtain ⟨rfl, rfl⟩ := hdone.of_done
    exact .done
  · exact .waiting

namespace Leaving

theorem others (h : Leaving report xs outcome) :
    ∀ x ∈ xs, request? x = none ∧ kernel? x = none ∧ ∀ id, x.1 ≠ .introspect id := by
  cases h <;> simp [request?, kernel?]

theorem judged (h : Leaving report xs outcome) : Judged xs (outcome.map fun _ => true) := by
  cases h with
  | waiting => exact judged_waiting _
  | done => exact judged_replied (iff_of_false (by simp) (by rintro ⟨⟩))

theorem closes (h : Leaving report xs outcome) (ended : outcome ≠ none) :
    xs.getLast? = some (.pool .shutdownAll, some (.pool .done)) := by
  cases h with
  | waiting => exact absurd rfl ended
  | done => rfl

theorem outcome_eq (h : Leaving report xs outcome) : outcome = outcome.map fun _ => report := by
  cases h <;> rfl

end Leaving

/-- The run is left after some calls with a report that says how all has gone. -/
theorem ending_of_leaving {good : Bool} (ys : List (Call × Option Reply)) (hcalls : calls seen = ys ++ xs)
    (leaving : Leaving report xs outcome) (others : ∀ x ∈ ys, request? x = none ∧ kernel? x = none)
    (judged : Judged ys (some b)) (ok : report.isOk = (good && b))
    (listed : o.vars = true ↔ ∃ reply, (.introspect id, reply) ∈ ys) :
    Ending o id good seen outcome where
  others x hx := by
    rcases List.mem_append.mp (hcalls ▸ hx) with hx | hx
    · exact others x hx
    · exact ⟨(leaving.others x hx).1, (leaving.others x hx).2.1⟩
  judged := by
    refine ⟨_, hcalls ▸ judged.append leaving.judged, ?_⟩
    rw [leaving.outcome_eq]
    cases outcome <;> simp [ok]
  listed _ := by
    have hno : ∀ reply, (.introspect id, reply) ∉ xs := fun reply hmem =>
      (leaving.others _ hmem).2.2 id rfl
    simp [hcalls, hno, listed]
  closes ended := by
    rw [hcalls, List.getLast?_append, leaving.closes ended]
    rfl

theorem conclude_of_held {total failed : Nat} (reached : s.Reached)
    (h : Held s (conclude total failed) seen s' outcome) :
    ∃ report : Except Report Unit, report.isOk = (failed == 0) ∧
      Leaving report (calls seen) outcome := by
  obtain ⟨_, rfl, hline⟩ := h.of_print
  have hclock := hline.of_elapsed
  split at hclock
  · next fine =>
    obtain ⟨_, rfl, hleave⟩ := hclock.of_print
    have leaving := leaving_of_held reached hleave
    exact ⟨.ok (), by simp [fine, Except.isOk, Except.toBool], leaving⟩
  · next failures =>
    obtain ⟨_, rfl, hleave⟩ := hclock.of_print
    have leaving := leaving_of_held reached hleave
    exact ⟨.error _, by simp [failures, Except.isOk, Except.toBool], leaving⟩

theorem held_variableLines {c : Conversation} (vs : List Variable)
    (h : Held s (vs.foldr (fun v rest => .print (variableLine v) rest) c) seen s' outcome) :
    ∃ rest, calls seen = calls rest ∧ Held s c rest s' outcome := by
  induction vs generalizing seen with
  | nil => exact ⟨seen, rfl, h⟩
  | cons v vs ih =>
    obtain ⟨more, rfl, hmore⟩ := h.of_print
    obtain ⟨rest, hcalls, hrest⟩ := ih hmore
    exact ⟨rest, hcalls, hrest⟩

theorem ending_of_held {total failed : Nat} (reached : s.Reached)
    (h : Held s (o.showVariables id (conclude total failed)) seen s' outcome) :
    Ending o id (failed == 0) seen outcome := by
  unfold showVariables at h
  split at h
  · next vars =>
    rcases h.of_ask with ⟨ls, s₁, reply, after, rfl, run, returned, hreply⟩ | ⟨rfl, rfl⟩
    · have reached₁ := reached.run run
      cases Services.listing_of_returned reached (.introspect id) run returned with
      | listing vs =>
        obtain ⟨lines, rfl, hlines⟩ := hreply.of_print
        obtain ⟨rest, hcalls, hrest⟩ : ∃ rest, calls lines = calls rest ∧
            Held s₁ (conclude total failed) rest s' outcome := by
          split at hlines
          · obtain ⟨rest, rfl, hrest⟩ := hlines.of_print
            exact ⟨rest, rfl, hrest⟩
          · exact held_variableLines vs hlines
        obtain ⟨report, ok, leaving⟩ := conclude_of_held reached₁ hrest
        exact ending_of_leaving [(.introspect id, some (.listing vs))]
          (by rw [calls_called, calls_printed, hcalls]; rfl) leaving (by simp [request?, kernel?])
          (judged_replied (b := true) (iff_of_false (by simp) (by rintro ⟨⟩))) (by simpa using ok)
          (by simp [vars])
      | failed f =>
        exact ending_of_leaving [(.introspect id, some (.pool (.failed f)))] rfl
          (leaving_of_held reached₁ hreply) (by simp [request?, kernel?])
          (judged_replied (b := false) (iff_of_true rfl (.listing id f)))
          (by simp [Except.isOk, Except.toBool]) (by simp [vars])
    · exact ⟨by simp [request?, kernel?], ⟨none, judged_waiting _, rfl⟩, by simp, by simp⟩
  · next vars =>
    obtain ⟨report, ok, leaving⟩ := conclude_of_held reached h
    exact ending_of_leaving [] rfl leaving (by simp) judged_nil (by simpa using ok)
      (by simp [vars])

end Ending

/-! ## The whole run -/

theorem told_of_others (h : ∀ x ∈ calls seen, request? x = none) : Told seen := by
  intro q sink reply after suffix
  have called := called_of_mem (x := (.execute q sink, some reply)) (suffix.mem (by simp))
  cases h _ called

theorem fails_iff_of_judged (h : Judged xs (outcome.map Except.isOk)) (ended : outcome ≠ none) :
    (∃ report, outcome = some (.error report)) ↔ ∃ x ∈ xs, Fails x := by
  obtain ⟨o, rfl⟩ := Option.ne_none_iff_exists'.mp ended
  rw [← h.fails o.isOk rfl]
  cases o <;> simp [Except.isOk, Except.toBool]

/-- A run that gets no kernel executes nothing. -/
theorem ran_of_others (others : ∀ x ∈ calls seen, request? x = none ∧ kernel? x = none)
    (judged : Judged (calls seen) (outcome.map Except.isOk))
    (closes : outcome ≠ none →
      (calls seen).getLast? = some (.pool .shutdownAll, some (.pool .done))) :
    o.Ran cells seen outcome := by
  have hrequest : (calls seen).filterMap request? = [] :=
    List.filterMap_eq_nil_iff.mpr fun x hx => (others x hx).1
  have hkernel : (calls seen).findSome? kernel? = none :=
    List.findSome?_eq_none_iff.mpr fun x hx => (others x hx).2
  exact {
    waits := by rw [← judged.waits, Option.map_eq_none_iff]
    inOrder := by simp [hrequest, hkernel]
    stops _ := List.pairwise_of_forall_mem_list fun _ _ y hy _ => (others y hy).1
    all _ _ k hk := absurd (hkernel.symm.trans hk) (by simp)
    told := told_of_others fun x hx => (others x hx).1
    listed _ k hk := absurd (hkernel.symm.trans hk) (by simp)
    fails := fails_iff_of_judged judged
    closes }

/-- A run with a kernel is a batch and an end. -/
theorem ran_of_batch {k : Kernel} {text : String} {wish : KernelCreate} {refusal : Option Failure}
    {front back : List Remark} (batch : Batch o k.id cells front n)
    (others : ∀ x ∈ calls back, request? x = none ∧ kernel? x = none)
    (judged : Judged (calls front ++ calls back) (outcome.map Except.isOk))
    (replied : outcome ≠ none → n ≠ none)
    (listed : outcome ≠ none → (o.vars = true ↔ ∃ reply, (.introspect k.id, reply) ∈ calls back))
    (closes : outcome ≠ none →
      (calls back).getLast? = some (.pool .shutdownAll, some (.pool .done))) :
    o.Ran cells (.printed text ::
      .called (.pool (.create wish refusal)) (some (.pool (.kernel k))) :: (front ++ back))
      outcome := by
  let seen : List Remark := .printed text ::
    .called (.pool (.create wish refusal)) (some (.pool (.kernel k))) :: (front ++ back)
  have hcalls : calls seen = [(.pool (.create wish refusal), some (.pool (.kernel k)))] ++
      (calls front ++ calls back) := by simp [seen]
  have hkernel : (calls seen).findSome? kernel? = some k := rfl
  have hrequest : (calls seen).filterMap request? = (calls front).filterMap request? := by
    have hback : (calls back).filterMap request? = [] :=
      List.filterMap_eq_nil_iff.mpr fun x hx => (others x hx).1
    rw [hcalls, List.filterMap_append, List.filterMap_append, hback, List.append_nil]
    rfl
  have created : Judged [(.pool (.create wish refusal), some (.pool (.kernel k)))] (some true) :=
    judged_replied (iff_of_false (by simp) (by rintro ⟨⟩))
  have whole : Judged (calls seen) (outcome.map Except.isOk) := by
    simpa [hcalls, Function.comp_def] using created.append judged
  exact {
    waits := by rw [← whole.waits, Option.map_eq_none_iff]
    inOrder := by
      rw [hrequest, hkernel]
      exact batch.inOrder
    stops h := by
      rw [hcalls, List.singleton_append]
      refine .cons (fun y _ error => by cases error) (List.pairwise_append.mpr ⟨batch.stops h, ?_, ?_⟩)
      · exact List.pairwise_of_forall_mem_list fun _ _ y hy _ => (others y hy).1
      · exact fun _ _ y hy _ => (others y hy).1
    all ended goes k' hk' := by
      obtain rfl := Option.some.inj (hkernel.symm.trans hk')
      rw [hrequest]
      exact batch.all (replied ended) (goes.imp_right fun good x hx => good x (by simp [hx]))
    told := told_cons (by simp) <| told_cons (by simp) <|
      batch.told (told_of_others fun x hx => (others x hx).1)
    listed ended k' hk' := by
      obtain rfl := Option.some.inj (hkernel.symm.trans hk')
      have hfront (reply : Option Reply) : (.introspect k.id, reply) ∉ calls front := fun hmem => by
        obtain ⟨q, sink, h⟩ := batch.executes hmem
        cases h
      simp [listed ended, hfront]
    fails := fails_iff_of_judged whole
    closes ended := by
      rw [hcalls, List.getLast?_append, List.getLast?_append, closes ended]
      rfl }

theorem ran_of_held (reached : s.Reached) (h : Held s (o.conversation cells) seen s' outcome) :
    o.Ran cells seen outcome := by
  obtain ⟨_, rfl, hstart⟩ := h.of_print
  obtain ⟨refusal, ⟨ls, s₁, reply, after, rfl, run, returned, hreply⟩ | ⟨rfl, rfl⟩⟩ := hstart.of_create
  · have reached₁ := reached.run run
    rcases Services.created_of_returned reached run returned with ⟨k, rfl⟩ | ⟨f, rfl⟩
    · obtain ⟨front, back, n, rfl, batch, hwait, hgo⟩ := batch_of_held reached₁ hreply
      cases n with
      | none =>
        -- some execution does not reply, and that is where the run stands
        obtain ⟨rfl, rfl⟩ := hwait rfl
        exact ran_of_batch batch (by simp) (by simpa using batch.judged) (by simp) (by simp) (by simp)
      | some failed =>
        obtain ⟨s₂, reached₂, hend⟩ := hgo failed rfl
        obtain ⟨others, ⟨v, judged, hv⟩, listed, closes⟩ := ending_of_held reached₂ hend
        refine ran_of_batch batch others ?_ (by simp) listed closes
        rw [hv]
        simpa using batch.judged.append judged
    · have leaving := leaving_of_held reached₁ hreply
      have failed : Judged [(.pool (.create { name := o.kernel } refusal),
          some (.pool (.failed f)))] (some false) :=
        judged_replied (iff_of_true rfl (.creation _ _ f))
      refine ran_of_others (fun x hx => ?_) ?_ fun ended => ?_
      · rcases List.mem_cons.mp hx with rfl | hx
        · exact ⟨rfl, rfl⟩
        · exact ⟨(leaving.others x hx).1, (leaving.others x hx).2.1⟩
      · rw [leaving.outcome_eq]
        simpa [Function.comp_def, Reply.failure?, Except.isOk, Except.toBool] using
          failed.append leaving.judged
      · rw [calls_printed, calls_called, ← List.singleton_append, List.getLast?_append,
          leaving.closes ended]
        rfl
  · exact ran_of_others (by simp [request?, kernel?]) (judged_waiting _) (by simp)

end RunOptions

namespace Command
open RunOptions

/-- Two cells, the first before any marker. -/
def twoCells : Text := "a\n# %%\nb".toList

def firstCell : Cell := ⟨"cell 1".toList, ['a']⟩
def secondCell : Cell := ⟨"cell 2".toList, ['b']⟩

/-- The kernel dies while the first cell is executed, and is removed. -/
def dyingResult : ExecutionResult :=
  { (ExecutionResult.start (.fresh 0) (.fresh 0) (some "cell 1") 0).push
      (.ofFailure (.channel "gone")) with executionCount := some 1 }.finish 0

/-- There is no kernel to execute the second cell on. -/
def refusedResult : ExecutionResult :=
  (ExecutionResult.start (.fresh 1) (.fresh 0) (some "cell 2") 0).fail (.kernelNotFound (.fresh 0)) 0

end Command
end NotebookKernels
