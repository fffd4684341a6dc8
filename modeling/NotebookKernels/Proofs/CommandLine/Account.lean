import NotebookKernels.Proofs.CommandLine.Dialogue

/- What is said of an execution.

   The output comes first, event by event as it is shown live, and then the error that the execution
   failed with, unless an event has shown one. `Told` says that this follows every execution of a
   dialogue that has replied. -/
namespace NotebookKernels

open Conversation (Held)
open Style

/-- What a conversation says first, if it begins by saying something. -/
def Conversation.first? : Conversation → Option Remark
  | .print text _ => some (.printed text)
  | .complain text _ => some (.complained text)
  | _ => none

/-- How output is shown, event by event. -/
def display (es : List OutputEvent) : List Remark :=
  es.filterMap fun e => (showEvent e (.done (.ok ()))).first?

/-- What is said after the output: the error, unless the output has shown one. -/
def explanation (r : ExecutionResult) : List Remark :=
  match r.error with
  | some e =>
    if r.outputs.any OutputEvent.isError then [] else [.complained (errorLine e.ename e.evalue)]
  | none => []

/-- All that is said of a result. -/
def account (r : ExecutionResult) : List Remark := display r.outputs ++ explanation r

/-- What comes after an execution tells of its result: its output, and then the error that it failed
with, if the output has not shown one. The name of an error is shown in red, and the lines that lead to
it are dimmed. -/
structure Tells (r : ExecutionResult) (after : List Remark) : Prop where
  outputs : display r.outputs <+: after
  error : r.status = .error → ∃ e, r.error = some e ∧
    (.error e.ename e.evalue e.traceback ∈ r.outputs ∧
        .complained (String.join (e.traceback.map fun line => dim ++ line ++ reset ++ "\n") ++
          (red ++ e.ename ++ reset ++ ": " ++ e.evalue ++ "\n")) ∈ display r.outputs ∨
      (∀ n v t, .error n v t ∉ r.outputs) ∧
        display r.outputs ++ [.complained (red ++ e.ename ++ reset ++ ": " ++ e.evalue ++ "\n")] <+:
          after)

/-- Every execution that has replied is followed by what there is to tell of its result. -/
def Told (seen : List Remark) : Prop :=
  ∀ q sink reply after, (.called (.execute q sink) (some reply) :: after) <:+ seen →
    ∃ r : ExecutionResult, reply = .result r (.open r.outputs) ∧ Tells r after

variable {s s' : Services} {c : Conversation} {seen : List Remark}
  {outcome : Option (Except Report Unit)} {r : ExecutionResult}

/-- An event is either printed or complained of, whatever comes after it. -/
theorem showEvent_says (e : OutputEvent) : ∃ text, (∀ c, showEvent e c = .print text c) ∨
    ∀ c, showEvent e c = .complain text c := by
  cases e with
  | stream name text =>
    cases name with
    | stdout => exact ⟨text, .inl fun _ => rfl⟩
    | stderr => exact ⟨text, .inr fun _ => rfl⟩
  | error => exact ⟨_, .inr fun _ => rfl⟩
  | executeResult | displayData => exact ⟨_, .inl fun _ => rfl⟩

theorem calls_display (es : List OutputEvent) : calls (display es) = [] := by
  induction es with
  | nil => rfl
  | cons e es ih =>
    obtain ⟨text, h | h⟩ := showEvent_says e
    all_goals
      rw [display, List.filterMap_cons, h]
      exact ih

@[simp] theorem calls_account (r : ExecutionResult) : calls (account r) = [] := by
  rw [account, calls_append, calls_display, List.nil_append, explanation]
  split
  · split <;> rfl
  · rfl

theorem display_cons (e : OutputEvent) (es : List OutputEvent) :
    display (e :: es) = display [e] ++ display es := by
  rw [display, ← List.singleton_append, List.filterMap_append]
  rfl

theorem held_showEvent {e : OutputEvent} (h : Held s (showEvent e c) seen s' outcome) :
    ∃ rest, seen = display [e] ++ rest ∧ Held s c rest s' outcome := by
  obtain ⟨text, heq | heq⟩ := showEvent_says e
  · rw [heq] at h
    obtain ⟨rest, rfl, hrest⟩ := h.of_print
    exact ⟨rest, by simp [display, heq, Conversation.first?], hrest⟩
  · rw [heq] at h
    obtain ⟨rest, rfl, hrest⟩ := h.of_complain
    exact ⟨rest, by simp [display, heq, Conversation.first?], hrest⟩

theorem held_showEvents (es : List OutputEvent) (h : Held s (showEvents es c) seen s' outcome) :
    ∃ rest, seen = display es ++ rest ∧ Held s c rest s' outcome := by
  induction es generalizing seen with
  | nil => exact ⟨seen, rfl, h⟩
  | cons e es ih =>
    obtain ⟨more, rfl, hmore⟩ := held_showEvent h
    obtain ⟨rest, rfl, hrest⟩ := ih hmore
    exact ⟨rest, by rw [display_cons e es, List.append_assoc], hrest⟩

theorem held_explain (h : Held s (RunOptions.explain r c) seen s' outcome) :
    ∃ rest, seen = explanation r ++ rest ∧ Held s c rest s' outcome := by
  unfold RunOptions.explain at h
  unfold explanation
  split at h
  · split at h
    · exact ⟨seen, by simp [*], h⟩
    · obtain ⟨rest, rfl, hrest⟩ := h.of_complain
      exact ⟨rest, by simp [*], hrest⟩
  · exact ⟨seen, by simp [*], h⟩

/-- An error is shown with its name and value at the end. -/
theorem complained_of_mem {ename evalue : String} {traceback : List String} {es : List OutputEvent}
    (h : .error ename evalue traceback ∈ es) :
    .complained (String.join (traceback.map fun line => styled dim line ++ "\n") ++
      errorLine ename evalue) ∈ display es :=
  List.mem_filterMap.mpr ⟨_, h, rfl⟩

theorem any_isError_eq_false {es : List OutputEvent} (quiet : ∀ n v t, .error n v t ∉ es) :
    es.any OutputEvent.isError = false := by
  refine List.any_eq_false.mpr fun e he => ?_
  cases e with
  | error n v t => exact absurd he (quiet n v t)
  | _ => exact Bool.false_ne_true

theorem tells_account (sincere : r.Sincere) (rest : List Remark) : Tells r (account r ++ rest) where
  outputs := by
    rw [account, List.append_assoc]
    exact List.prefix_append ..
  error h := by
    obtain ⟨e, he⟩ := Option.isSome_iff_exists.mp (sincere.status.mp h)
    refine ⟨e, he, (sincere.error e he).imp (fun hmem => ⟨hmem, complained_of_mem hmem⟩) ?_⟩
    intro quiet
    refine ⟨quiet, ?_⟩
    simp only [account, explanation, he, any_isError_eq_false quiet]
    exact List.prefix_append ..

/-! ## Dialogues -/

theorem told_cons {x : Remark} (other : ∀ q sink reply, x ≠ .called (.execute q sink) (some reply))
    (h : Told seen) : Told (x :: seen) := by
  intro q sink reply after suffix
  rcases List.suffix_cons_iff.mp suffix with here | there
  · obtain ⟨rfl, -⟩ := List.cons_eq_cons.mp here
    exact absurd rfl (other q sink reply)
  · exact h q sink reply after there

theorem told_append {front : List Remark} (quiet : calls front = []) (h : Told seen) :
    Told (front ++ seen) := by
  induction front with
  | nil => exact h
  | cons x front ih =>
    cases x with
    | called => cases quiet
    | _ => exact told_cons (by simp) (ih quiet)

theorem told_executed {q : ExecuteRequest} {sink : Sink} (tells : Tells r seen) (h : Told seen) :
    Told (.called (.execute q sink) (some (.result r (.open r.outputs))) :: seen) := by
  intro q' sink' reply after suffix
  rcases List.suffix_cons_iff.mp suffix with here | there
  · obtain ⟨hr, rfl⟩ := List.cons_eq_cons.mp here
    cases hr
    exact ⟨r, rfl, tells⟩
  · exact h q' sink' reply after there

end NotebookKernels
