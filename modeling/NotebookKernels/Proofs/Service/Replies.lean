import NotebookKernels.Proofs.Service.Clearing
import NotebookKernels.Proofs.Service.Execution
import NotebookKernels.Proofs.Service.Listing

/- What calls reply, by the kind of the call.

   A call to create a kernel replies with the kernel or fails; one to list variables lists them or
   fails; one to shut all kernels down is done; and an execution replies with its result
   and with the output that its sink has received. Replies of any other form there are, but
   not to these calls. The error of an execution is either one in its output, or else there is no error
   in its output (`Sincere`). -/
namespace NotebookKernels

/-- The result has the status of its error, which is one in its output if any is. -/
structure ExecutionResult.Sincere (r : ExecutionResult) : Prop where
  status : r.status = .error ↔ r.error.isSome = true
  error : ∀ e, r.error = some e →
    .error e.ename e.evalue e.traceback ∈ r.outputs ∨ ∀ n v t, .error n v t ∉ r.outputs

namespace Pool

variable {p p' : Pool} {t : TaskId} {s s' : Stage} {i : Nat} {o : Outcome}

/-- A task that creates a kernel ends with the kernel, or with a failure. -/
theorem Advance.kernel_or_failed (h : Advance t p s p' (.finish o)) (hs : s.Founds i)
    (tracked : ∀ j ∈ p.tracked, p.Has j) : (∃ k, o = .kernel k) ∨ ∃ f, o = .failed f := by
  cases h with
  | up j there =>
    obtain ⟨e, he⟩ := has_iff_entry?.mp (tracked j there)
    exact .inl ⟨_, by rw [changed?, record?, he]; rfl⟩
  | abandoned j f => exact .inr ⟨f, rfl⟩
  | conclude e found unborn => exact absurd (unborn.symm.trans hs) (by simp)
  | giveUp => cases hs
  | _ => exact False.elim hs

end Pool

namespace Services

open Scene

variable {config : Config} {catalog : Catalog} {s s' s₁ : Services} {l : Label} {ls : List Label}
  {t : TaskId} {i : Nat} {reply : Reply} {st : Stage}

/-- The services are as some run leaves them. -/
def Reached (s : Services) : Prop :=
  ∃ (config : Config) (catalog : Catalog) (ls : List Label), (init config catalog).run ls = some s

namespace Reached

theorem init (config : Config) (catalog : Catalog) : (Services.init config catalog).Reached :=
  ⟨config, catalog, [], rfl⟩

theorem sound (h : s.Reached) : s.scene.Sound := by
  obtain ⟨config, catalog, ls, run⟩ := h
  exact sound_run (sound_init config catalog) run

theorem named (h : s.Reached) : s.scene.Named := by
  obtain ⟨config, catalog, ls, run⟩ := h
  exact named_run run

theorem run (h : s.Reached) (run : s.run ls = some s') : s'.Reached := by
  obtain ⟨config, catalog, ks, reached⟩ := h
  exact ⟨config, catalog, ks ++ ls, by rw [run_append, reached, Option.bind_some, run]⟩

end Reached

/-! ## Operations of the pool -/

/-- A call to create a kernel replies with the kernel, or fails. -/
theorem created_of_returned {request : KernelCreate} {refusal : Option Failure} (reached : s.Reached)
    (run : s.run (.call (.pool (.create request refusal)) :: ls) = some s')
    (returned : s'.replies.get? s.nextTask = some reply) :
    (∃ k, reply = .pool (.kernel k)) ∨ ∃ f, reply = .pool (.failed f) := by
  obtain ⟨s₁, call, run⟩ := Option.bind_eq_some_iff.mp run
  have sound₁ := sound_step reached.sound call
  have ht : s.nextTask < s₁.nextTask := nextTask_le_step reached.sound call
  rcases create_begins call with ⟨ended, -, f, failed, -⟩ | ⟨⟨ticket, was⟩, -⟩
  · have stays := (reply_run sound₁ ht ended run).trans failed
    exact .inr ⟨f, Option.some.inj (returned.symm.trans stays)⟩
  · obtain ⟨o, rfl, -, -, -, d, d', st, -, -, -, -, sound, -, founds, -, adv⟩ :=
      outcome_of_returned (J := fun _ st => st.Founds s.pool.entries.length) sound₁ ht
        (sound₁.fresh.owed _ _ was) (fun _ _ h => founding_run sound₁ ht was rfl h) run returned
    rcases adv.kernel_or_failed founds sound.there with ⟨k, rfl⟩ | ⟨f, rfl⟩
    · exact .inl ⟨k, rfl⟩
    · exact .inr ⟨f, rfl⟩

/-- A call to shut all kernels down replies that it is done. -/
theorem done_of_shutdownAll (reached : s.Reached)
    (run : s.run (.call (.pool .shutdownAll) :: ls) = some s')
    (returned : s'.replies.get? s.nextTask = some reply) : reply = .pool .done := by
  obtain ⟨s₁, call, run⟩ := Option.bind_eq_some_iff.mp run
  have sound₁ := sound_step reached.sound call
  have ht : s.nextTask < s₁.nextTask := nextTask_le_step reached.sound call
  have was := shutdownAll_begins call
  have first : Clearing .shutdownAll 0 s₁.scene (.structure .shutdownAll) :=
    ⟨named_step reached.named reached.sound call, rfl⟩
  obtain ⟨o, rfl, -, -, -, d, d', st, -, -, -, -, -, -, clearing, -, adv⟩ :=
    outcome_of_returned (J := fun d => Clearing .shutdownAll 0 d.scene) sound₁ ht
      (sound₁.fresh.owed _ _ was) (fun _ _ h => clearing_run trivial sound₁ ht was first h) run returned
  obtain ⟨-, found, rfl⟩ := adv.cleared clearing.2
  rfl

/-! ## Executions -/

/-- An execution that fails for want of a slot or of a transport has no error in its output. -/
theorem quiet_of_failed {request : ExecuteRequest} {seen : List Exchange} {es : List OutputEvent}
    {f : Failure} (went : Transcript request seen es (some f)) (n v : String) (t : List String) :
    .error n v t ∉ es := by
  cases went with
  | refused => exact List.not_mem_nil
  | rejected =>
    rw [ExecuteRequest.notice]
    cases request.submission.immediate <;> simp [OutputEvent.stdout]

/-- An execution replies with its result, and with its output in the sink. -/
theorem result_of_returned {request : ExecuteRequest} (reached : s.Reached)
    (run : s.run (.call (.execute request (.open [])) :: ls) = some s')
    (returned : s'.replies.get? s.nextTask = some reply) :
    ∃ r : ExecutionResult, reply = .result r (.open r.outputs) ∧ r.Sincere := by
  obtain ⟨r, es, f, rfl, reports, went⟩ := returned_of_run reached.sound run returned
  refine ⟨r, ?_, ?_, fun e he => ?_⟩
  · rw [reports.outputs]
    rfl
  · rw [reports.status]
    split
    · next h => simp [h]
    · next h => simpa using h
  · have error := reports.error
    rw [reports.outputs]
    rw [he] at error
    cases error with
    | failed f => exact .inr (quiet_of_failed went)
    | raised before after => exact .inl (List.mem_append_right _ (List.mem_cons_self ..))

/-- A call to list variables replies with a listing, or fails. -/
theorem listing_of_returned {c : Call} (reached : s.Reached) (lists : c.Lists)
    (run : s.run (.call c :: ls) = some s') (returned : s'.replies.get? s.nextTask = some reply) :
    reply.IsListing :=
  (inspects_of_run reached.sound lists run).2.2.reply reply returned

end Services
end NotebookKernels
