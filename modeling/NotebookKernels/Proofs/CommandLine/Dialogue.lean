import NotebookKernels.CommandLine.Program
import NotebookKernels.Proofs.Service.Replies
import NotebookKernels.Proofs.Simulation.Driving

/- Conversations as the services hold them.

   A conversation is a tree of questions; what is said and asked along one of its paths is a list of
   remarks. `Conversation.Held` says which paths there are when the services answer: every call begins a
   task, and until the task replies the services take any steps at all, those that other callers, the
   workers and the clock make included. A call that does not reply is the last remark, and there is no
   outcome then. The driver of a simulation finds one of the paths (`Simulation.held_converse`). -/
namespace NotebookKernels

/-- One thing that is said or asked in a conversation. -/
inductive Remark where
  | printed (text : String)
  | complained (text : String)
  /-- A call, and what it came to if it has ended. -/
  | called (c : Call) (reply : Option Reply)
  deriving DecidableEq

namespace Remark

def stdout? : Remark → Option String
  | .printed text => some text
  | _ => none

def stderr? : Remark → Option String
  | .complained text => some text
  | _ => none

/-- A call and its reply, if the remark is one. -/
def call? : Remark → Option (Call × Option Reply)
  | .called c reply => some (c, reply)
  | _ => none

end Remark

/-- The calls among what is said and asked, in order. -/
def calls (seen : List Remark) : List (Call × Option Reply) := seen.filterMap Remark.call?

section Calls
variable (seen : List Remark)

@[simp] theorem calls_nil : calls [] = [] := rfl
@[simp] theorem calls_printed (text : String) : calls (.printed text :: seen) = calls seen := rfl
@[simp] theorem calls_called (c : Call) (reply : Option Reply) :
    calls (.called c reply :: seen) = (c, reply) :: calls seen := rfl

@[simp] theorem calls_append (seen' : List Remark) :
    calls (seen ++ seen') = calls seen ++ calls seen' := List.filterMap_append ..

variable {seen}

theorem called_of_mem {x : Call × Option Reply} (h : .called x.1 x.2 ∈ seen) : x ∈ calls seen :=
  List.mem_filterMap.mpr ⟨_, h, rfl⟩

end Calls

namespace Conversation

/-- The conversation begins with a call, and goes on with the reply. Whether a worker is launched for
a new kernel is up to the world. -/
inductive Asks : Conversation → Call → (Reply → Conversation) → Prop
  | create (request : KernelCreate) (refusal : Option Failure) (rest : Reply → Conversation) :
    Asks (.create request rest) (.pool (.create request refusal)) rest
  | ask (c : Call) (rest : Reply → Conversation) : Asks (.ask c rest) c rest

/-- Services hold a conversation: what is said and asked, where that leaves the services, and the
outcome, if every call has replied. -/
inductive Held : Services → Conversation → List Remark → Services →
    Option (Except Report Unit) → Prop
  | done (s : Services) (outcome : Except Report Unit) : Held s (.done outcome) [] s (some outcome)
  | print {s s' : Services} {c : Conversation} {seen : List Remark}
    {outcome : Option (Except Report Unit)} (text : String) (rest : Held s c seen s' outcome) :
    Held s (.print text c) (.printed text :: seen) s' outcome
  | complain {s s' : Services} {c : Conversation} {seen : List Remark}
    {outcome : Option (Except Report Unit)} (text : String) (rest : Held s c seen s' outcome) :
    Held s (.complain text c) (.complained text :: seen) s' outcome
  | elapsed {s s' : Services} {c : Nat → Conversation} {seen : List Remark}
    {outcome : Option (Except Report Unit)} (rest : Held s (c s.pool.now) seen s' outcome) :
    Held s (.elapsed c) seen s' outcome
  | replied {s s₁ s' : Services} {c : Conversation} {call : Call} {f : Reply → Conversation}
    {reply : Reply} {seen : List Remark} {outcome : Option (Except Report Unit)} (ls : List Label)
    (asks : c.Asks call f) (run : s.run (.call call :: ls) = some s₁)
    (returned : s₁.replies.get? s.nextTask = some reply) (rest : Held s₁ (f reply) seen s' outcome) :
    Held s c (.called call (some reply) :: seen) s' outcome
  | waiting {s s' : Services} {c : Conversation} {call : Call} {f : Reply → Conversation}
    (ls : List Label) (asks : c.Asks call f) (run : s.run (.call call :: ls) = some s')
    (owed : s'.replies.get? s.nextTask = none) : Held s c [.called call none] s' none

/-- A call has been made: it replies and the conversation goes on, or it is the last of what is said
and asked. -/
def Posed (s : Services) (call : Call) (f : Reply → Conversation) (seen : List Remark)
    (s' : Services) (outcome : Option (Except Report Unit)) : Prop :=
  (∃ ls s₁ reply rest, seen = .called call (some reply) :: rest ∧
    s.run (.call call :: ls) = some s₁ ∧ s₁.replies.get? s.nextTask = some reply ∧
    Held s₁ (f reply) rest s' outcome) ∨
  seen = [.called call none] ∧ outcome = none

namespace Held

variable {s s' : Services} {c : Conversation} {call : Call} {f : Reply → Conversation}
  {seen : List Remark} {outcome : Option (Except Report Unit)}

theorem of_print {text : String} (h : Held s (.print text c) seen s' outcome) :
    ∃ rest, seen = .printed text :: rest ∧ Held s c rest s' outcome := by
  cases h with
  | print _ rest => exact ⟨_, rfl, rest⟩
  | replied _ asks => cases asks
  | waiting _ asks => cases asks

theorem of_complain {text : String} (h : Held s (.complain text c) seen s' outcome) :
    ∃ rest, seen = .complained text :: rest ∧ Held s c rest s' outcome := by
  cases h with
  | complain _ rest => exact ⟨_, rfl, rest⟩
  | replied _ asks => cases asks
  | waiting _ asks => cases asks

theorem of_elapsed {c : Nat → Conversation} (h : Held s (.elapsed c) seen s' outcome) :
    Held s (c s.pool.now) seen s' outcome := by
  cases h with
  | elapsed rest => exact rest
  | replied _ asks => cases asks
  | waiting _ asks => cases asks

theorem of_done {o : Except Report Unit} (h : Held s (.done o) seen s' outcome) :
    seen = [] ∧ outcome = some o := by
  cases h with
  | done => exact ⟨rfl, rfl⟩
  | replied _ asks => cases asks
  | waiting _ asks => cases asks

theorem of_ask (h : Held s (.ask call f) seen s' outcome) : Posed s call f seen s' outcome := by
  cases h with
  | replied ls asks run returned rest =>
    cases asks
    exact .inl ⟨ls, _, _, _, rfl, run, returned, rest⟩
  | waiting _ asks =>
    cases asks
    exact .inr ⟨rfl, rfl⟩

theorem of_create {request : KernelCreate} (h : Held s (.create request f) seen s' outcome) :
    ∃ refusal, Posed s (.pool (.create request refusal)) f seen s' outcome := by
  cases h with
  | replied ls asks run returned rest =>
    cases asks
    exact ⟨_, .inl ⟨ls, _, _, _, rfl, run, returned, rest⟩⟩
  | waiting _ asks =>
    cases asks
    exact ⟨_, .inr ⟨rfl, rfl⟩⟩

end Held
end Conversation

namespace Exit

/-- What a program leaves behind when so much was said. One that waits for ever has to be ended. -/
def after (seen : List Remark) (outcome : Option (Except Report Unit)) : Exit where
  code := if outcome matches some (.ok ()) then 0 else 1
  stdout := String.join (seen.filterMap Remark.stdout?)
  stderr := String.join (seen.filterMap Remark.stderr?) ++
    match outcome with
    | some (.error r) => r.text
    | _ => ""

variable (seen : List Remark) (outcome : Option (Except Report Unit))

theorem after_printed (text : String) : after (.printed text :: seen) outcome =
    { after seen outcome with stdout := text ++ (after seen outcome).stdout } := by
  simp [after, List.filterMap_cons, Remark.stdout?, Remark.stderr?, String.join_cons]

theorem after_complained (text : String) : after (.complained text :: seen) outcome =
    { after seen outcome with stderr := text ++ (after seen outcome).stderr } := by
  simp [after, List.filterMap_cons, Remark.stdout?, Remark.stderr?, String.join_cons,
    String.append_assoc]

end Exit

namespace Simulation

variable {σ τ : Type} {w : World σ τ} {m : Simulation σ τ} {c : Conversation} {call : Call}
  {f : Reply → Conversation}

/-- The driver waits for the reply to a call that has begun, and goes on with it. -/
theorem held_await {p : TaskId × Simulation σ τ} (asks : c.Asks call f)
    (named : p.1 = m.services.nextTask) (begun : m.services.run [.call call] = some p.2.services)
    (rest : ∀ r (m : Simulation σ τ), ∃ seen s outcome,
      Conversation.Held m.services (f r) seen s outcome ∧ m.converse w (f r) = .after seen outcome) :
    ∃ seen s outcome, Conversation.Held m.services c seen s outcome ∧
      (match await w p.1 p.2 with
        | (some r, m) => m.converse w (f r)
        | (none, _) => ⟨1, "", ""⟩) = Exit.after seen outcome := by
  obtain ⟨ls, run⟩ : p.2.Follows (await w p.1 p.2).2 := follows_waitUntil w p.2 replyLimit _
  -- the beginning of the call and the wait for its reply are one run
  have run : m.services.run (.call call :: ls) = some (await w p.1 p.2).2.services := by
    rw [← List.singleton_append, Services.run_append, begun, Option.bind_some, run]
  have reply : (await w p.1 p.2).2.services.replies.get? m.services.nextTask =
      (await w p.1 p.2).1 := named ▸ rfl
  split
  · next r m' h =>
    rw [h] at run reply
    obtain ⟨seen, s, outcome, held, exit⟩ := rest r m'
    exact ⟨_, s, outcome, .replied ls asks run reply held, exit⟩
  · next m' h =>
    rw [h] at run reply
    exact ⟨_, _, none, .waiting ls asks run reply, rfl⟩

/-- A simulation holds a conversation with its services, and shows what is said in it. -/
theorem held_converse (w : World σ τ) (c : Conversation) (m : Simulation σ τ) :
    ∃ seen s outcome, Conversation.Held m.services c seen s outcome ∧
      m.converse w c = .after seen outcome := by
  induction c generalizing m with
  | done outcome =>
    refine ⟨[], _, _, .done _ outcome, ?_⟩
    cases outcome with
    | ok => rfl
    | error r => simp [converse, Exit.after]
  | print text rest ih =>
    obtain ⟨seen, s, outcome, held, exit⟩ := ih m
    refine ⟨_, s, outcome, .print text held, ?_⟩
    rw [converse, exit, Exit.after_printed]
  | complain text rest ih =>
    obtain ⟨seen, s, outcome, held, exit⟩ := ih m
    refine ⟨_, s, outcome, .complain text held, ?_⟩
    rw [converse, exit, Exit.after_complained]
  | create request rest ih =>
    obtain ⟨refusal, named, begun⟩ := create_call w m request
    obtain ⟨seen, s, outcome, held, exit⟩ :=
      held_await (.create request refusal rest) named begun ih
    exact ⟨seen, s, outcome, held, by rw [converse]; exact exit⟩
  | ask call rest ih =>
    obtain ⟨named, begun⟩ := begin_call w m call
    obtain ⟨seen, s, outcome, held, exit⟩ := held_await (.ask call rest) named begun ih
    exact ⟨seen, s, outcome, held, by rw [converse]; exact exit⟩
  | elapsed rest ih =>
    obtain ⟨seen, s, outcome, held, exit⟩ := ih _ m
    exact ⟨seen, s, outcome, .elapsed held, exit⟩

end Simulation
end NotebookKernels
