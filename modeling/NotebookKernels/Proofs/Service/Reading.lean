import NotebookKernels.Proofs.Service.Course

/- What the reader of a request yields.

   All requests to a worker share one event queue, so the reader of one polls what is meant for
   others too. `Poll.yielded` says what it makes of the outcomes of its polls, without going through
   the reader: what the messages of its request decode to, up to the first idle status of the request
   or the first failure, and the failure's own words if it was that. `stream_yields` says that the
   reader has yielded just this after every run, that nothing else in the queue makes a difference,
   and that it can meet every sequence of outcomes. A sequence without end is met by its
   beginnings, each of which has its own run.

   A stream is not the only thing that is read so. What a task makes of the events is its `Intake`; that
   it has taken in what its polls brought is proved for every intake that is faithful (`takesIn_of_run`). -/
namespace NotebookKernels

/-- What comes of one wait for the next item of an event queue. -/
inductive Poll where
  /-- The wait was too long. -/
  | nothing
  | message (m : RawMessage)
  | failure (f : Failure)
  deriving DecidableEq, Repr

namespace Poll

/-- What an item of the queue is to the one who waits. -/
def ofMail : Mail → Poll
  | .message m => .message m
  | .failure f => .failure f

/-- Is it a message of the request, or a failure? -/
def concerns (r : RequestId) : Poll → Bool
  | .nothing => false
  | .message m => m.parent = some r
  | .failure _ => true

/-- Is it an idle status of the request, or a failure? -/
def ends (r : RequestId) : Poll → Bool
  | .nothing => false
  | .message m => m.parent = some r ∧ m.decode? = some (.status .idle)
  | .failure _ => true

/-- The output event that a message of the request decodes to. -/
def event? (r : RequestId) : Poll → Option OutputEvent
  | .message m => if m.parent = some r then
      match m.decode? with
      | some (.event e) => some e
      | _ => none
    else none
  | .nothing | .failure _ => none

/-- The last error event: the kind and the text of a failure. -/
def lastWord? : Poll → Option OutputEvent
  | .failure f => some (.error f.kind f.message [])
  | .nothing | .message _ => none

/-- The events that the reader of the request yields, given what comes of its polls. -/
def yielded (r : RequestId) (ps : List Poll) : List OutputEvent :=
  (ps.takeWhile fun p => !p.ends r).filterMap (event? r) ++
    ((ps.find? (ends r)).bind lastWord?).toList

variable {r : RequestId} {p : Poll} {ps qs : List Poll}

theorem yielded_cons_of_ends (h : p.ends r = true) : yielded r (p :: ps) = p.lastWord?.toList := by
  simp [yielded, h]

theorem yielded_cons_of_going (h : p.ends r = false) :
    yielded r (p :: ps) = (p.event? r).toList ++ yielded r ps := by
  cases hp : p.event? r <;> simp [yielded, h, hp]

theorem yielded_append (h : ps.any (ends r) = false) :
    yielded r (ps ++ qs) = yielded r ps ++ yielded r qs := by
  induction ps with
  | nil => rfl
  | cons p ps ih =>
    rw [List.any_cons, Bool.or_eq_false_iff] at h
    rw [List.cons_append, yielded_cons_of_going h.1, yielded_cons_of_going h.1, ih h.2,
      List.append_assoc]

/-! ## What does not concern the request -/

theorem ends_of_not_concerns (h : p.concerns r = false) : p.ends r = false := by
  cases p with
  | nothing => rfl
  | message m =>
    have hm : m.parent ≠ some r := of_decide_eq_false h
    exact decide_eq_false fun hends => hm hends.1
  | failure f => cases h

theorem event?_of_not_concerns (h : p.concerns r = false) : p.event? r = none := by
  cases p with
  | nothing => rfl
  | message m => exact if_neg (of_decide_eq_false h)
  | failure f => cases h

/-- Empty polls and the messages of others are nothing to the reader. -/
theorem yielded_filter (r : RequestId) (ps : List Poll) :
    yielded r (ps.filter (concerns r)) = yielded r ps := by
  induction ps with
  | nil => rfl
  | cons p ps ih =>
    cases hp : p.concerns r with
    | false =>
      have hskip : (p :: ps).filter (concerns r) = ps.filter (concerns r) := by
        simp [hp]
      rw [hskip, ih, yielded_cons_of_going (ends_of_not_concerns hp), event?_of_not_concerns hp]
      rfl
    | true =>
      rw [List.filter_cons_of_pos hp]
      cases hends : p.ends r with
      | false => rw [yielded_cons_of_going hends, yielded_cons_of_going hends, ih]
      | true => rw [yielded_cons_of_ends hends, yielded_cons_of_ends hends]

theorem any_ends_filter (r : RequestId) (ps : List Poll) :
    (ps.filter (concerns r)).any (ends r) = ps.any (ends r) := by
  rw [List.any_filter]
  congr 1
  funext p
  cases hp : p.concerns r with
  | false => rw [ends_of_not_concerns hp, Bool.and_false]
  | true => rw [Bool.true_and]

end Poll

namespace Services

open Poll (yielded ends concerns)

/-- What comes of a poll of the task in a step. -/
def polls (t : TaskId) (s : Services) (l : Label) : List Poll :=
  match l, s.tasks.get? t with
  | .resume u, some (.receiving _ i _) =>
    if u = t then (s.pool.mail i).head?.toList.map .ofMail else []
  | .answer u (.failed f), some (.receiving ..) => if u = t then [.failure f] else []
  | .answer u .elapsed, some (.receiving ..) => if u = t then [.nothing] else []
  | _, _ => []

/-- The task reads the output of a request, and has yielded these events; it goes on, or it is
done. -/
def Reads (s : Services) (t : TaskId) (i : Nat) (r : RequestId) (es : List OutputEvent) :
    Bool → Prop
  | false => s.replies.get? t = none ∧
      (s.tasks.get? t = some (.receiving (.stream es) i r) ∨
        s.tasks.get? t = some (.pausing (.stream es) i r))
  | true => s.replies.get? t = some (.events es) ∧ s.tasks.get? t = none

/-- How a task takes in the output of a request: what its work is when it has seen these events, and
what it replies if they are all. -/
structure Intake where
  holds : List OutputEvent → Work → Prop
  reply : List OutputEvent → Reply

/-- The task takes in the output of a request, and has seen these events; it goes on, or it is done. -/
def TakesIn (q : Intake) (s : Services) (t : TaskId) (i : Nat) (r : RequestId)
    (es : List OutputEvent) : Bool → Prop
  | false => s.replies.get? t = none ∧ ∃ w, q.holds es w ∧
      (s.tasks.get? t = some (.receiving w i r) ∨ s.tasks.get? t = some (.pausing w i r))
  | true => s.replies.get? t = some (q.reply es) ∧ s.tasks.get? t = none

/-- Every item of the queue is taken in for what it is. -/
def Intake.Faithful (q : Intake) : Prop :=
  ∀ (s : Services) (t : TaskId) (w : Work) (i : Nat) (r : RequestId) (es : List OutputEvent)
    (m : Mail), s.replies.get? t = none → q.holds es w →
    TakesIn q (s.receive t w i r m) t i r (es ++ yielded r [.ofMail m]) ((Poll.ofMail m).ends r)

/-- The wait for an item is never cut off. -/
def Intake.Patient (q : Intake) : Prop :=
  ∀ (s : Services) (t : TaskId) (w : Work) (i : Nat) (r : RequestId) (es : List OutputEvent),
    q.holds es w → s.expire t (.receiving w i r) = none ∧ s.expire t (.pausing w i r) = none

variable {s s' s₀ s₁ : Services} {t : TaskId} {i : Nat} {r : RequestId} {l : Label}
  {ls : List Label} {ps : List Poll} {es : List OutputEvent} {ended : Bool} {q : Intake} {w : Work}

/-! ## One step -/

/-- What an item of the queue means for a reader, and what it brings. -/
theorem delivery_cases (r : RequestId) (m : Mail) :
    (m.deliveryFor r = .skip ∧ (Poll.ofMail m).ends r = false ∧ yielded r [.ofMail m] = []) ∨
    (∃ e, m.deliveryFor r = .output e ∧ (Poll.ofMail m).ends r = false ∧
      yielded r [.ofMail m] = [e]) ∨
    (m.deliveryFor r = .ended ∧ (Poll.ofMail m).ends r = true ∧ yielded r [.ofMail m] = []) ∨
    ∃ f, m.deliveryFor r = .broken (.ofFailure f) ∧ (Poll.ofMail m).ends r = true ∧
      yielded r [.ofMail m] = [.ofFailure f] := by
  cases m with
  | failure f => exact .inr (.inr (.inr ⟨f, rfl, rfl, rfl⟩))
  | message m =>
    by_cases hparent : m.parent = some r
    · cases hm : m.decode? with
      | none => simp [Mail.deliveryFor, Poll.ofMail, ends, yielded, Poll.event?, hparent, hm]
      | some k =>
        cases k with
        | event e => simp [Mail.deliveryFor, Poll.ofMail, ends, yielded, Poll.event?, hparent, hm]
        | status st =>
          cases st <;>
            simp [Mail.deliveryFor, Poll.ofMail, ends, yielded, Poll.event?, Poll.lastWord?,
              hparent, hm]
    · simp [Mail.deliveryFor, Poll.ofMail, ends, yielded, Poll.event?, hparent]

/-- An item that ends the stream brings its last word, any other what it decodes to. -/
theorem receive_stream (s : Services) (t : TaskId) (es : List OutputEvent) (i : Nat) (r : RequestId)
    (m : Mail) :
    s.receive t (.stream es) i r m =
      if (Poll.ofMail m).ends r then s.finish t (.events (es ++ yielded r [.ofMail m]))
      else s.setTask t (.receiving (.stream (es ++ yielded r [.ofMail m])) i r) := by
  rcases delivery_cases r m with ⟨hm, hends, hes⟩ | ⟨e, hm, hends, hes⟩ | ⟨hm, hends, hes⟩ |
      ⟨f, hm, hends, hes⟩ <;>
    simp [receive, hm, hends, hes, takeOutput, endStream]

/-- The steps of other tasks are no polls of this one. -/
theorem polls_eq_nil (hne : l.task? ≠ some t) : s.polls t l = [] := by
  have other : ∀ u, l.task? = some u → u ≠ t := by
    intro u hu htu
    exact hne (htu ▸ hu)
  unfold polls
  split
  · exact if_neg (other _ rfl)
  · exact if_neg (other _ rfl)
  · exact if_neg (other _ rfl)
  · rfl

theorem takesIn_of_receive (faithful : q.Faithful) (fresh : s.replies.get? t = none)
    (going : ps.any (ends r) = false) (held : q.holds (yielded r ps) w) (m : Mail) :
    TakesIn q (s.receive t w i r m) t i r (yielded r (ps ++ [Poll.ofMail m]))
      ((ps ++ [Poll.ofMail m]).any (ends r)) := by
  have hany : (ps ++ [Poll.ofMail m]).any (ends r) = (Poll.ofMail m).ends r := by
    simp [List.any_append, going]
  rw [hany, Poll.yielded_append going]
  exact faithful s t w i r _ m fresh held

/-- What the task does in a step of its own while it waits is a poll. -/
theorem takesIn_of_poll (faithful : q.Faithful) (unhurried : l ≠ .expire t ∨ q.Patient)
    (fresh : s.replies.get? t = none) (going : ps.any (ends r) = false)
    (held : q.holds (yielded r ps) w) (was : s.tasks.get? t = some (.receiving w i r))
    (hl : l.task? = some t) (step : s.step l = some s') :
    s'.TakesIn q t i r (yielded r (ps ++ s.polls t l)) ((ps ++ s.polls t l).any (ends r)) := by
  obtain ⟨a, ha, h⟩ := activity_of_step hl step
  obtain rfl := Option.some.inj (was.symm.trans ha)
  -- of all that can happen to a task, only going on and an answer mean anything to a reader
  rcases h with ⟨rfl, h⟩ | ⟨ans, rfl, h⟩ | ⟨r, rfl, h⟩ | ⟨v, rfl, h⟩ | ⟨rfl, h⟩
  · simp only [resume] at h
    split at h
    · cases h
    · next m rest hmail =>
      have hhead : (s.pool.mail i).head? = some m := congrArg List.head? hmail
      have hpolls : s.polls t (.resume t) = [.ofMail m] := by
        simp only [polls, was, if_true, hhead]
        rfl
      let d : Services := { s with pool := s.pool.modify i ({ · with mail := rest }) }
      have hd : d.replies.get? t = none := fresh
      obtain rfl := Option.some.inj h
      rw [hpolls]
      exact takesIn_of_receive faithful hd going held m
  · cases ans with
    | failed f =>
      have hpolls : s.polls t (.answer t (.failed f)) = [.ofMail (.failure f)] := by
        simp only [polls, was, if_true]
        rfl
      obtain rfl := Option.some.inj h
      rw [hpolls]
      exact takesIn_of_receive faithful fresh going held (.failure f)
    | elapsed =>
      have hpolls : s.polls t (.answer t .elapsed) = [.nothing] := by
        simp only [polls, was, if_true]
      obtain rfl := Option.some.inj h
      have hany : (ps ++ [Poll.nothing]).any (ends r) = false := by
        simp [List.any_append, going, ends]
      have hsame : yielded r (ps ++ [.nothing]) = yielded r ps := by
        rw [Poll.yielded_append going]
        exact List.append_nil _
      rw [hpolls, hany, hsame]
      exact ⟨fresh, w, held, .inr (Table.get?_set_self ..)⟩
    | ok => simp [answer] at h
  · simp [accept] at h
  · simp [take] at h
  · rcases unhurried with hne | patient
    · exact absurd rfl hne
    · exact absurd (h.symm.trans (patient s t w i r _ held).1) (by simp)

/-- After a pause, which is no poll, the task goes back to its queue. -/
theorem takesIn_of_pause (unhurried : l ≠ .expire t ∨ q.Patient) (fresh : s.replies.get? t = none)
    (going : ps.any (ends r) = false) (held : q.holds (yielded r ps) w)
    (was : s.tasks.get? t = some (.pausing w i r)) (hl : l.task? = some t)
    (step : s.step l = some s') :
    s'.TakesIn q t i r (yielded r (ps ++ s.polls t l)) ((ps ++ s.polls t l).any (ends r)) := by
  obtain ⟨a, ha, h⟩ := activity_of_step hl step
  obtain rfl := Option.some.inj (was.symm.trans ha)
  rcases h with ⟨rfl, h⟩ | ⟨ans, rfl, h⟩ | ⟨r, rfl, h⟩ | ⟨v, rfl, h⟩ | ⟨rfl, h⟩
  · simp [resume] at h
  · cases ans with
    | elapsed =>
      have hpolls : s.polls t (.answer t .elapsed) = [] := by
        simp only [polls, was]
      obtain rfl := Option.some.inj h
      rw [hpolls, List.append_nil, going]
      exact ⟨fresh, w, held, .inl (Table.get?_set_self ..)⟩
    | ok | failed => simp [answer] at h
  · simp [accept] at h
  · simp [take] at h
  · rcases unhurried with hne | patient
    · exact absurd rfl hne
    · exact absurd (h.symm.trans (patient s t w i r _ held).2) (by simp)

/-- Whatever happens in a step, the task has taken in what its polls brought. -/
theorem takesIn_of_step (faithful : q.Faithful) (unhurried : l ≠ .expire t ∨ q.Patient)
    (sound : s.scene.Sound) (ht : t < s.nextTask)
    (h : s.TakesIn q t i r (yielded r ps) (ps.any (ends r))) (step : s.step l = some s') :
    s'.TakesIn q t i r (yielded r (ps ++ s.polls t l)) ((ps ++ s.polls t l).any (ends r)) := by
  by_cases hl : l.task? = some t
  · cases going : ps.any (ends r) with
    | false =>
      rw [going] at h
      obtain ⟨fresh, w, held, was | was⟩ := h
      · exact takesIn_of_poll faithful unhurried fresh going held was hl step
      · exact takesIn_of_pause unhurried fresh going held was hl step
    | true =>
      rw [going] at h
      obtain ⟨a, ha, -⟩ := activity_of_step hl step
      exact absurd (h.2.symm.trans ha) (by simp)
  · obtain ⟨htasks, hreplies⟩ := frame_of_step sound ht hl step
    rw [polls_eq_nil hl, List.append_nil]
    cases going : ps.any (ends r) <;> simpa only [going, TakesIn, htasks, hreplies] using h

/-! ## Runs -/

/-- After every run, a task that has begun to take in a stream has taken in what its polls brought. -/
theorem takesIn_of_run (faithful : q.Faithful) (unhurried : .expire t ∉ ls ∨ q.Patient)
    (sound : s.scene.Sound) (ht : t < s.nextTask) (first : s.TakesIn q t i r [] false)
    (run : s.run ls = some s') :
    s'.TakesIn q t i r (yielded r (s.gather (polls t) ls)) ((s.gather (polls t) ls).any (ends r)) := by
  have hkeep := run_gathers (f := polls t) (P := fun l => l ≠ .expire t ∨ q.Patient)
    (I := fun ps s => s.scene.Sound ∧ t < s.nextTask ∧
      s.TakesIn q t i r (yielded r ps) (ps.any (ends r)))
    ?_ ?_ [] ⟨sound, ht, first⟩ run
  · exact hkeep.2.2
  · intro ps s l s' hl h step
    have hle := Nat.le_trans (nextTask_le_stir s l) (nextTask_le_step h.1 step)
    exact ⟨sound_step h.1 step, Nat.lt_of_lt_of_le h.2.1 hle,
      takesIn_of_step faithful hl h.1 h.2.1 h.2.2 step⟩
  · intro l hl
    exact unhurried.imp_left fun hnot heq => hnot (heq ▸ hl)

/-- The reader of a stream keeps the events and yields them. -/
def streaming : Intake := ⟨fun es w => w = .stream es, .events⟩

theorem takesIn_streaming : s.TakesIn streaming t i r es ended ↔ s.Reads t i r es ended := by
  cases ended <;> simp [TakesIn, Reads, streaming]

theorem streaming_faithful : streaming.Faithful := by
  rintro s t w i r es m fresh rfl
  rw [takesIn_streaming, receive_stream]
  cases (Poll.ofMail m).ends r with
  | false => exact ⟨fresh, .inl (Table.get?_set_self ..)⟩
  | true => exact ⟨Table.get?_set_self .., Table.get?_erase_self ..⟩

theorem streaming_patient : streaming.Patient := by
  rintro s t w i r es rfl
  exact ⟨rfl, rfl⟩

/-- After every run that begins with the call, the reader has yielded what its polls ask for. -/
theorem reads_of_run (sound : s₀.scene.Sound) (run : s₀.run (.call (.stream i r) :: ls) = some s) :
    ∀ ps, s₀.gather (polls s₀.nextTask) (.call (.stream i r) :: ls) = ps →
      s.Reads s₀.nextTask i r (yielded r ps) (ps.any (ends r)) := by
  intro ps hps
  obtain ⟨s₁, step, run⟩ := Option.bind_eq_some_iff.mp run
  rw [gather_cons step] at hps
  have first : s₁.TakesIn streaming s₀.nextTask i r [] false := by
    obtain rfl := Option.some.inj step
    exact takesIn_streaming.mpr ⟨sound.fresh.reply _ (Nat.le_refl _), .inl (Table.get?_set_self ..)⟩
  have hlt : s₀.nextTask < s₁.nextTask := nextTask_le_step sound step
  rw [← hps]
  exact takesIn_streaming.mp (takesIn_of_run streaming_faithful (.inr streaming_patient)
    (sound_step sound step) hlt first run)

/-! ## Every sequence of outcomes -/

/-- The steps that bring about one outcome of a poll, and the pause after an empty one. -/
def feed (t : TaskId) (i : Nat) : Poll → List Label
  | .nothing => [.answer t .elapsed, .answer t .elapsed]
  | .message m => [.deliver i (.message m), .resume t]
  | .failure f => [.answer t (.failed f)]

/-- The reader waits at an empty queue. -/
structure Awaits (s : Services) (t : TaskId) (i : Nat) (r : RequestId) : Prop where
  receives : ∃ w, s.tasks.get? t = some (.receiving w i r)
  has : s.pool.Has i
  empty : s.pool.mail i = []

theorem resume_receiving {m : Mail} {rest : List Mail} (h : s.pool.mail i = m :: rest) (w : Work) :
    s.resume t (.receiving w i r) =
      some ({ s with pool := s.pool.modify i ({ · with mail := rest }) }.receive t w i r m) := by
  have hmail : (s.pool.entry? i).elim [] (·.mail) = m :: rest := h
  simp only [resume, hmail]

/-- A reader goes on with its queue after an item that does not end its stream. -/
theorem receive_of_going (s : Services) (t : TaskId) (w : Work) (i : Nat) {m : Mail}
    (going : (Poll.ofMail m).ends r = false) :
    ∃ w', s.receive t w i r m = s.setTask t (.receiving w' i r) := by
  rcases delivery_cases r m with ⟨hm, -, -⟩ | ⟨e, hm, -, -⟩ | ⟨-, hends, -⟩ | ⟨f, -, hends, -⟩
  · exact ⟨w, by simp [receive, hm]⟩
  · exact ⟨s.takeOutput e w, by simp [receive, hm]⟩
  · cases going.symm.trans hends
  · cases going.symm.trans hends

/-- A reader that waits can be given any outcome, and waits again unless that ends the stream. -/
theorem feed_once (h : s.Awaits t i r) (p : Poll) :
    ∃ s', s.run (feed t i p) = some s' ∧ s.gather (polls t) (feed t i p) = [p] ∧
      (p.ends r = false → s'.Awaits t i r) := by
  obtain ⟨⟨w, was⟩, has, empty⟩ := h
  cases p with
  | nothing =>
    let d := s.setTask t (.pausing w i r)
    have hfirst : s.step (.answer t .elapsed) = some d := by
      simp [step, was, answer, d]
    have hd : d.tasks.get? t = some (.pausing w i r) := Table.get?_set_self ..
    have hlast : d.step (.answer t .elapsed) =
        some (d.setTask t (.receiving w i r)) := by
      simp [step, hd, answer]
    refine ⟨d.setTask t (.receiving w i r), ?_, ?_, ?_⟩
    · rw [feed, run_cons hfirst, run_cons hlast]
      rfl
    · rw [feed, gather_cons hfirst, gather_cons hlast]
      simp [polls, was, hd, gather]
    · intro _
      exact ⟨⟨w, Table.get?_set_self ..⟩, has, empty⟩
  | message m =>
    let d : Services :=
      { s with pool := s.pool.modify i fun e => { e with mail := e.mail ++ [.message m] } }
    let d₁ : Services := { d with pool := d.pool.modify i ({ · with mail := [] }) }
    have hfirst : s.step (.deliver i (.message m)) = some d := rfl
    have hmail : d.pool.mail i = [.message m] := by
      have hsent : d.pool.mail i = s.pool.mail i ++ [.message m] :=
        (Pool.mail_modify_mail (· ++ [.message m]) has).trans (if_pos rfl)
      rw [hsent, empty]
      rfl
    have hd : d.tasks.get? t = some (.receiving w i r) := was
    have hlast : d.step (.resume t) = some (d₁.receive t w i r (.message m)) := by
      rw [step, hd, Option.bind_some, resume_receiving hmail]
    refine ⟨d₁.receive t w i r (.message m), ?_, ?_, ?_⟩
    · rw [feed, run_cons hfirst, run_cons hlast]
      rfl
    · rw [feed, gather_cons hfirst, gather_cons hlast]
      simp [polls, hd, hmail, gather, Poll.ofMail]
    · intro going
      have hdHas : d.pool.Has i := Pool.has_modify.mpr has
      have hd₁ : d₁.pool.mail i = [] :=
        (Pool.mail_modify_mail (fun _ => []) hdHas).trans (if_pos rfl)
      obtain ⟨w', hreceive⟩ := receive_of_going d₁ t w i (m := .message m) going
      rw [hreceive]
      exact ⟨⟨w', Table.get?_set_self ..⟩, Pool.has_modify.mpr hdHas, hd₁⟩
  | failure f =>
    have hfirst : s.step (.answer t (.failed f)) =
        some (s.receive t w i r (.failure f)) := by
      simp [step, was, answer]
    refine ⟨s.receive t w i r (.failure f), ?_, ?_, ?_⟩
    · rw [feed, run_cons hfirst]
      rfl
    · rw [feed, gather_cons hfirst]
      simp [polls, was, gather]
    · intro going
      cases going

/-- A reader that waits can be given outcomes one after another until one ends the stream. -/
theorem feed_all (h : s.Awaits t i r) (going : ∀ p ∈ ps.dropLast, p.ends r = false) :
    ∃ s', s.run (ps.flatMap (feed t i)) = some s' ∧
      s.gather (polls t) (ps.flatMap (feed t i)) = ps := by
  -- on the outcomes: all but the last leave a reader that waits
  induction ps generalizing s with
  | nil => exact ⟨s, rfl, rfl⟩
  | cons p ps ih =>
    obtain ⟨s₁, hrun, hpolls, hnext⟩ := feed_once h p
    cases ps with
    | nil =>
      refine ⟨s₁, ?_, ?_⟩
      · simpa using hrun
      · simpa using hpolls
    | cons q ps =>
      have hp : p.ends r = false := going p (by simp)
      have hrest : ∀ k ∈ (q :: ps).dropLast, k.ends r = false := by
        intro k hk
        exact going k (List.mem_cons_of_mem _ hk)
      obtain ⟨s', hrun', hpolls'⟩ := ih (hnext hp) hrest
      refine ⟨s', ?_, ?_⟩
      · rw [List.flatMap_cons, run_append, hrun]
        exact hrun'
      · rw [List.flatMap_cons, gather_append hrun, hpolls, hpolls']
        rfl

/-- A stream of an entry that exists can meet every sequence of outcomes that ends nowhere before
its last one. -/
theorem polls_of_feed (has : s₀.pool.Has i) (going : ∀ p ∈ ps.dropLast, p.ends r = false) :
    ∃ ls s, s₀.run (.call (.stream i r) :: ls) = some s ∧
      s₀.gather (polls s₀.nextTask) (.call (.stream i r) :: ls) = ps := by
  let t := s₀.nextTask
  let s₁ := ({ s₀ with nextTask := t + 1 } : Services).setTask t (.receiving (.stream []) i r)
  let s₂ : Services := { s₁ with pool := s₁.pool.modify i ({ · with mail := [] }) }
  have hcall : s₀.step (.call (.stream i r)) = some s₁ := rfl
  have hrenew : s₁.step (.renew i) = some s₂ := rfl
  have awaits : s₂.Awaits t i r := by
    refine ⟨⟨.stream [], Table.get?_set_self ..⟩, Pool.has_modify.mpr has, ?_⟩
    exact (Pool.mail_modify_mail (fun _ => []) has).trans (if_pos rfl)
  obtain ⟨s, hrun, hpolls⟩ := feed_all awaits going
  refine ⟨.renew i :: ps.flatMap (feed t i), s, ?_, ?_⟩
  · rw [run_cons hcall, run_cons hrenew]
    exact hrun
  · rw [gather_cons hcall, gather_cons hrenew]
    exact hpolls

/-! ## The stream of a request -/

/-- After every run, the reader of a request has yielded what the outcomes of its polls ask for, and
is done as soon as one of them ends the stream. Any other run whose outcomes differ only in empty
polls and in messages of others yields the same. And no sequence of outcomes is left out: each one is
met by some run. -/
theorem stream_yields (config : Config) (catalog : Catalog) (before ls : List Label)
    (s₀ s : Services) (i : Nat) (r : RequestId) (ps : List Poll)
    (start : (init config catalog).run before = some s₀)
    (run : s₀.run (.call (.stream i r) :: ls) = some s)
    (polled : s₀.gather (polls s₀.nextTask) (.call (.stream i r) :: ls) = ps) :
    s.Reads s₀.nextTask i r (yielded r ps) (ps.any (ends r)) ∧
    (∀ (config' : Config) (catalog' : Catalog) (before' ls' : List Label) (d₀ d : Services)
        (j : Nat),
      (init config' catalog').run before' = some d₀ →
      d₀.run (.call (.stream j r) :: ls') = some d →
      (d₀.gather (polls d₀.nextTask) (.call (.stream j r) :: ls')).filter (concerns r) =
        ps.filter (concerns r) →
      d.Reads d₀.nextTask j r (yielded r ps) (ps.any (ends r))) ∧
    (s₀.pool.Has i → ∀ qs : List Poll, (∀ q ∈ qs.dropLast, q.ends r = false) →
      ∃ ks d, s₀.run (.call (.stream i r) :: ks) = some d ∧
        s₀.gather (polls s₀.nextTask) (.call (.stream i r) :: ks) = qs) := by
  have sound := sound_run (sound_init config catalog) start
  refine ⟨reads_of_run sound run ps polled, ?_, ?_⟩
  · intro config' catalog' before' ls' d₀ d j start' run' same
    have sound' := sound_run (sound_init config' catalog') start'
    have hreads := reads_of_run sound' run' _ rfl
    rw [← Poll.yielded_filter, same, Poll.yielded_filter, ← Poll.any_ends_filter, same,
      Poll.any_ends_filter] at hreads
    exact hreads
  · intro has qs going
    exact polls_of_feed has going

/-- A text that ends too early. -/
def cutShort : Failure := .json (some "EOF while parsing")

/-- A stream is read while the queue holds messages of somebody else, one of them an idle status. -/
def mingled : List Label :=
  [.call (.stream 0 ⟨"r"⟩),
    .deliver 0 (.message ⟨some ⟨"q"⟩, "status", .object [("execution_state", .string "idle")]⟩),
    .deliver 0 (.message ⟨some ⟨"r"⟩, "stream",
      .object [("name", .string "stdout"), ("text", .string "mine")]⟩),
    .deliver 0 (.message ⟨none, "stream",
      .object [("name", .string "stdout"), ("text", .string "theirs")]⟩),
    .resume 1, .answer 1 .elapsed, .answer 1 .elapsed, .resume 1, .resume 1,
    .answer 1 (.failed cutShort)]

/-- The same stream with nothing else in the queue. -/
def alone : List Label :=
  [.call (.stream 0 ⟨"r"⟩),
    .deliver 0 (.message ⟨some ⟨"r"⟩, "stream",
      .object [("name", .string "stdout"), ("text", .string "mine")]⟩),
    .resume 1, .answer 1 (.failed cutShort)]

/-- Both streams yield what is theirs and the failure. -/
theorem stream_yields_mingled :
    ∃ s₀ s d, (init { } [.python3]).run booting = some s₀ ∧ s₀.run mingled = some s ∧
      s₀.run alone = some d ∧
      s.replies.get? 1 =
        some (.events [.stdout "mine", .error "ProtocolError" "JSON error: EOF while parsing" []]) ∧
      d.replies.get? 1 = s.replies.get? 1 := by
  have h : ((init { } [.python3]).run booting).bind (fun s₀ => (s₀.run mingled).bind fun s =>
      (s₀.run alone).map fun d => (s₀.nextTask,
        ((s₀.gather (polls 1) alone).filter (concerns ⟨"r"⟩) =
          (s₀.gather (polls 1) mingled).filter (concerns ⟨"r"⟩) : Bool),
        ((s₀.gather (polls 1) mingled).any (ends ⟨"r"⟩),
          yielded ⟨"r"⟩ (s₀.gather (polls 1) mingled)))) =
      some (1, true, true,
        [.stdout "mine", .error "ProtocolError" "JSON error: EOF while parsing" []]) := by
    decide
  obtain ⟨s₀, start, h⟩ := Option.bind_eq_some_iff.mp h
  obtain ⟨s, run, h⟩ := Option.bind_eq_some_iff.mp h
  obtain ⟨d, run', h⟩ := Option.map_eq_some_iff.mp h
  obtain ⟨next, h⟩ := Prod.mk.inj h
  obtain ⟨same, h⟩ := Prod.mk.inj h
  obtain ⟨hends, hyields⟩ := Prod.mk.inj h
  obtain ⟨reads, agree, -⟩ := stream_yields { } [.python3] booting _ s₀ s 0 ⟨"r"⟩
    (s₀.gather (polls s₀.nextTask) mingled) start run rfl
  rw [next, hends, hyields] at reads
  have agreed : (s₀.gather (polls s₀.nextTask) alone).filter (concerns ⟨"r"⟩) =
      (s₀.gather (polls s₀.nextTask) mingled).filter (concerns ⟨"r"⟩) := by
    rw [next]
    exact of_decide_eq_true same
  have reads' := agree { } [.python3] booting _ s₀ d 0 start run' agreed
  rw [next, hends, hyields] at reads'
  exact ⟨s₀, s, d, start, run, run', reads.1, reads'.1.trans reads.1.symm⟩

end Services
end NotebookKernels
