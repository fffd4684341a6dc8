import Mathlib.Data.List.Induction
import Mathlib.Data.Nat.Init
import NotebookKernels.Process.Connection

/- A connection as one of its requests sees it.

   1. `Connection.life c r` is what the connection holds about the request `r`: whether it is in the
      reply table, how far it is, the reply that the reader has for it, and its ends.
   2. A step of the connection is a step of this life (`life_step`), and what the step is to the life is
      decided by the step and by whether the reader runs. Frames for others are seen only in that the
      reader goes on (`ConnectionStep.seenBy`), so a life is what it is without them (`life_run_seenBy`).
   3. If requests are not made twice, a life is in one of five states (`Life.Fits`): not made, waiting in
      the table, given a reply by the reader, told, and ended. In the table it is in the second only. -/
namespace NotebookKernels

/-- The frame is a reply to this request. -/
def WireMessage.RepliesTo (m : WireMessage) (r : RequestId) : Prop :=
  m.channel = .shell ∧ m.parent = some r

instance (m : WireMessage) (r : RequestId) : Decidable (m.RepliesTo r) :=
  inferInstanceAs (Decidable (_ ∧ _))

namespace OpenRequest

variable {q : OpenRequest} {a : RequestStep}

/-- A request that goes on finds its place as it was. -/
theorem place_of_goOn {q' : OpenRequest} (h : q.step a = .goOn q') :
    q'.place = q.place := by
  obtain ⟨phase, place⟩ := q
  cases a <;> cases phase <;> cases place <;> cases h <;> rfl

/-- A request returns the reply that lies there. -/
theorem place_of_finish {v : Json} (h : q.step a = .finish (.reply v)) :
    q.place = .filled v := by
  obtain ⟨phase, place⟩ := q
  cases a <;> cases phase <;> cases place <;> cases h
  rfl

end OpenRequest

/-- What a connection holds about one request. -/
structure Life where
  /-- Is it in the reply table? -/
  inTable : Bool := false
  request : Option OpenRequest := none
  /-- The reply that the reader is about to hand on to it. -/
  held : Option Json := none
  ends : List RequestEnd := []
  deriving DecidableEq

namespace Life

/-- Something is put where the request looks for its reply. -/
def put (l : Life) (p : ReplyPlace) : Life :=
  { l with request := l.request.map ({ · with place := p }) }

def act (l : Life) (a : RequestStep) : Life :=
  match l.request.map (OpenRequest.step · a) with
  | some (.goOn q) => { l with request := some q }
  | some (.finish e) =>
    { l with inTable := l.inTable && !e.leavesTable, request := none, ends := l.ends ++ [e] }
  | none => l

def handOver (l : Life) : Life :=
  match l.held with
  | some content => { l with held := none }.put (.filled content)
  | none => l

/-- A reply to the request arrives. -/
def offer (l : Life) (content : Json) : Life :=
  if l.inTable then { l with inTable := false, held := some content } else l

def close (l : Life) : Life :=
  if l.inTable then { l with inTable := false }.put .closed else l

/-- What a step of the connection is to the request `r`. -/
def next (l : Life) (r : RequestId) (stopped : Bool) : ConnectionStep → Life
  | .register s => if s = r then { l with inTable := true, request := some { } } else l
  | .act s a => if s = r then l.act a else l
  | .arrive m =>
    if stopped then l else if m.RepliesTo r then l.handOver.offer m.content else l.handOver
  | .handOver => if stopped then l else l.handOver
  | .take => l
  | .stop => if stopped then l else l.handOver.close

/-- What each of the things that can happen to the request comes to, a step comes to. -/
theorem next_of_each {P : Life → Prop} {l : Life} {r : RequestId} {s : ConnectionStep}
    (stopped : Bool) (same : P l)
    (register : s = .register r → P { l with inTable := true, request := some { } })
    (act : ∀ a, P (l.act a)) (handOver : P l.handOver)
    (offer : ∀ m, s = .arrive m → P (l.handOver.offer m.content))
    (close : P l.handOver.close) : P (l.next r stopped s) := by
  have running : ∀ (p : Prop) [Decidable p] {l' : Life}, P l' → P (if p then l else l') :=
    fun p _ _ h => by
      split
      · exact same
      · exact h
  cases s with
  | register s =>
    by_cases hs : s = r
    · simpa only [next, hs, if_true] using register (congrArg _ hs)
    · simpa only [next, hs, if_false] using same
  | act s a =>
    by_cases hs : s = r
    · simpa only [next, hs, if_true] using act a
    · simpa only [next, hs, if_false] using same
  | arrive m =>
    refine running _ ?_
    split
    · exact offer m rfl
    · exact handOver
  | handOver => exact running _ handOver
  | take => exact same
  | stop => exact running _ close

end Life

namespace Connection

/-- What the connection holds about a request. -/
def life (c : Connection) (r : RequestId) : Life where
  inTable := decide (r ∈ c.table)
  request := c.requests.get? r
  held := c.hand.bind fun given => if given.1 = r then some given.2 else none
  ends := (c.ended.filter (·.1 = r)).map (·.2)

variable {c : Connection} {r s : RequestId} {p : ReplyPlace}

theorem inTable_life : (c.life r).inTable = true ↔ r ∈ c.table := decide_eq_true_iff

theorem mem_ends_life {e : RequestEnd} : e ∈ (c.life r).ends ↔ (r, e) ∈ c.ended := by
  simp [life]

/-! ## What the functions do to a life -/

theorem get?_put (requests : Table RequestId OpenRequest) (r s : RequestId) (p : ReplyPlace) :
    (put requests s p).get? r =
      if s = r then (requests.get? r).map ({ · with place := p }) else requests.get? r := by
  unfold put
  by_cases h : s = r
  · subst h
    cases hq : requests.get? s <;> simp [hq]
  · cases requests.get? s <;> simp [h, Table.get?_set_of_ne (Ne.symm h)]

theorem get?_foldl_put (p : ReplyPlace) (l : List RequestId)
    (requests : Table RequestId OpenRequest) (r : RequestId) :
    (l.foldl (put · · p) requests).get? r =
      if r ∈ l then (requests.get? r).map ({ · with place := p }) else requests.get? r := by
  induction l generalizing requests with
  | nil => simp
  | cons s l ih =>
    -- what is put there twice is put there once
    rw [List.foldl_cons, ih, get?_put]
    by_cases h : s = r
    · subst h
      cases requests.get? s <;> simp
    · simp [h, Ne.symm h]

theorem life_act (c : Connection) (r s : RequestId) (a : RequestStep) :
    (c.act s a).life r = if s = r then (c.life r).act a else c.life r := by
  by_cases h : s = r
  · subst h
    unfold act Life.act
    cases hq : c.requests.get? s with
    | none => simp [life, hq]
    | some q =>
      cases hm : q.step a with
      | goOn q => simp [life, hq, hm]
      | finish e => cases he : e.leavesTable <;> simp [life, hq, hm, he, forget]
  · -- another request changes its own entry only, and adds to its own ends only
    rw [if_neg h]
    unfold act
    cases (c.requests.get? s).map (OpenRequest.step · a) with
    | none => rfl
    | some move =>
      cases move with
      | goOn q => simp [life, Table.get?_set_of_ne (Ne.symm h)]
      | finish e =>
        cases he : e.leavesTable <;>
          simp [life, he, forget, Table.get?_erase_of_ne (Ne.symm h), h, Ne.symm h]

theorem life_handOver (c : Connection) (r : RequestId) :
    c.handOver.life r = (c.life r).handOver := by
  unfold handOver Life.handOver
  cases hhand : c.hand with
  | none => simp [life, hhand]
  | some given =>
    by_cases h : given.1 = r
    · simp [life, hhand, h, Life.put, get?_put]
    · simp [life, hhand, h, get?_put]

theorem hand_handOver (c : Connection) : c.handOver.hand = none := by
  unfold handOver
  cases hhand : c.hand with
  | none => exact hhand
  | some given => rfl

/-- What a frame is to a request, when the reader has nothing in hand. -/
theorem life_arrive (hhand : c.hand = none) (m : WireMessage) :
    (c.arrive m).life r = if m.RepliesTo r then (c.life r).offer m.content else c.life r := by
  obtain ⟨channel, id, type, parent, content⟩ := m
  cases channel with
  | iopub =>
    rw [if_neg (by simp [WireMessage.RepliesTo])]
    rfl
  | shell =>
    cases parent with
    | none => simp [arrive, WireMessage.RepliesTo]
    | some s =>
      by_cases h : s = r
      · subst h
        by_cases hmem : s ∈ c.table <;>
          simp [arrive, WireMessage.RepliesTo, Life.offer, life, forget, hmem, hhand]
      · by_cases hmem : s ∈ c.table <;>
          simp [arrive, WireMessage.RepliesTo, life, forget, hmem, hhand, h, Ne.symm h]

theorem life_stop (c : Connection) (r : RequestId) : c.stop.life r = (c.life r).close := by
  unfold stop Life.close
  by_cases h : r ∈ c.table <;> simp [life, h, get?_foldl_put, Life.put]

/-! ## A step, and a run -/

/-- A step of the connection is a step of each life. -/
theorem life_step (c : Connection) (r : RequestId) (s : ConnectionStep) :
    (c.step s).life r = (c.life r).next r c.stopped s := by
  cases s with
  | register s =>
    by_cases h : s = r
    · simp [step, Life.next, life, h]
    · simp [step, Life.next, life, h, Ne.symm h, Table.get?_set_of_ne (Ne.symm h)]
  | act s a => exact life_act c r s a
  | arrive m =>
    cases hstopped : c.stopped with
    | true => simp [step, Life.next, hstopped]
    | false =>
      simp only [step, Life.next, hstopped, Bool.false_eq_true, if_false, life_handOver,
        life_arrive (hand_handOver c)]
  | handOver =>
    cases hstopped : c.stopped with
    | true => simp [step, Life.next, hstopped]
    | false => simp [step, Life.next, hstopped, life_handOver]
  | take => rfl
  | stop =>
    cases hstopped : c.stopped with
    | true => simp [step, Life.next, hstopped]
    | false => simp [step, Life.next, hstopped, life_handOver, life_stop]

theorem stopped_act (c : Connection) (r : RequestId) (a : RequestStep) :
    (c.act r a).stopped = c.stopped := by
  unfold act
  split
  · rfl
  · split <;> rfl
  · rfl

theorem stopped_handOver (c : Connection) : c.handOver.stopped = c.stopped := by
  unfold handOver
  split <;> rfl

theorem stopped_arrive (c : Connection) (m : WireMessage) : (c.arrive m).stopped = c.stopped := by
  unfold arrive
  split
  · rfl
  · split <;> rfl
  · rfl

theorem stopped_step (c : Connection) (s : ConnectionStep) :
    (c.step s).stopped = (c.stopped || decide (s = .stop)) := by
  cases s with
  | register r => simp [step]
  | act r a => simp [step, stopped_act]
  | arrive m =>
    cases hstopped : c.stopped <;> simp [step, hstopped, stopped_arrive, stopped_handOver]
  | handOver => cases hstopped : c.stopped <;> simp [step, hstopped, stopped_handOver]
  | take => simp [step]
  | stop => cases hstopped : c.stopped <;> simp [step, hstopped, stop]

theorem run_cons (c : Connection) (s : ConnectionStep) (steps : List ConnectionStep) :
    c.run (s :: steps) = (c.step s).run steps := rfl

theorem run_append (c : Connection) (steps more : List ConnectionStep) :
    c.run (steps ++ more) = (c.run steps).run more := List.foldl_append

theorem run_concat (c : Connection) (steps : List ConnectionStep) (s : ConnectionStep) :
    c.run (steps ++ [s]) = (c.run steps).step s := run_append c steps [s]

theorem stopped_run (c : Connection) (steps : List ConnectionStep) :
    (c.run steps).stopped = (c.stopped || decide (.stop ∈ steps)) := by
  induction steps generalizing c with
  | nil => simp [run]
  | cons s steps ih => simp [run_cons, ih, stopped_step, Bool.or_assoc, eq_comm]

end Connection

/-! ## What a request sees of the others -/

/-- The step as the request `r` sees it: a frame for somebody else is nothing but the reader going
on. -/
def ConnectionStep.seenBy (r : RequestId) : ConnectionStep → Option ConnectionStep
  | .register s => if s = r then some (.register s) else none
  | .act s a => if s = r then some (.act s a) else none
  | .arrive m => some (if m.RepliesTo r then .arrive m else .handOver)
  | .handOver => some .handOver
  | .take => none
  | .stop => some .stop

theorem ConnectionStep.stop_of_seenBy (r : RequestId) (s : ConnectionStep) :
    decide (s = .stop) = (s.seenBy r).any (· = .stop) := by
  cases s with
  | register s => by_cases h : s = r <;> simp [seenBy, h]
  | act s a => by_cases h : s = r <;> simp [seenBy, h]
  | arrive m => by_cases h : m.RepliesTo r <;> simp [seenBy, h]
  | handOver => simp [seenBy]
  | take => simp [seenBy]
  | stop => simp [seenBy]

theorem Life.next_seenBy (l : Life) (r : RequestId) (stopped : Bool) (s : ConnectionStep) :
    l.next r stopped s = (s.seenBy r).elim l (l.next r stopped) := by
  cases s with
  | register s => by_cases h : s = r <;> simp [ConnectionStep.seenBy, next, h]
  | act s a => by_cases h : s = r <;> simp [ConnectionStep.seenBy, next, h]
  | arrive m => by_cases h : m.RepliesTo r <;> simp [ConnectionStep.seenBy, next, h]
  | handOver => rfl
  | take => rfl
  | stop => rfl

/-- A life is what it is without the requests and the frames of the others. -/
theorem Connection.life_run_seenBy {c d : Connection} {r : RequestId} (hlife : c.life r = d.life r)
    (hstopped : c.stopped = d.stopped) (steps : List ConnectionStep) :
    (c.run steps).life r = (d.run (steps.filterMap (·.seenBy r))).life r := by
  induction steps generalizing c d with
  | nil => exact hlife
  | cons s steps ih =>
    -- a step that the request does not see leaves its life as it is, and does not stop the reader
    have hnext := (life_step c r s).trans (Life.next_seenBy ..)
    have hstop := (stopped_step c s).trans (congrArg _ (s.stop_of_seenBy r))
    rw [run_cons]
    cases hseen : s.seenBy r with
    | none =>
      rw [List.filterMap_cons_none hseen]
      exact ih (by rw [hnext, hseen, Option.elim_none, hlife])
        (by rw [hstop, hseen, Option.any_none, Bool.or_false, hstopped])
    | some t =>
      rw [List.filterMap_cons_some hseen, run_cons]
      exact ih (by rw [hnext, hseen, Option.elim_some, life_step, hlife, hstopped])
        (by rw [hstop, hseen, Option.any_some, stopped_step, hstopped])

/-! ## The states of a life -/

namespace Life

/-- The five states of a request that is made once. -/
inductive Fits : Life → Prop where
  /-- It is not made yet. -/
  | unmade : Fits { }
  /-- It is in the reply table. -/
  | waiting (phase : RequestPhase) : Fits ⟨true, some ⟨phase, .empty⟩, none, []⟩
  /-- The reader has its reply. -/
  | given (phase : RequestPhase) (content : Json) :
    Fits ⟨false, some ⟨phase, .empty⟩, some content, []⟩
  /-- There is a reply for it to find, or it can find that none comes. -/
  | told (phase : RequestPhase) (place : ReplyPlace) (h : place ≠ .empty) :
    Fits ⟨false, some ⟨phase, place⟩, none, []⟩
  /-- It has ended. The reader may still have a reply for it. -/
  | ended (e : RequestEnd) (held : Option Json) : Fits ⟨false, none, held, [e]⟩

variable {l : Life}

theorem Fits.waiting_of_inTable (h : l.Fits) (hin : l.inTable = true) :
    ∃ phase, l = ⟨true, some ⟨phase, .empty⟩, none, []⟩ := by
  cases h with
  | waiting phase => exact ⟨phase, rfl⟩
  | unmade => cases hin
  | given phase content => cases hin
  | told phase place _ => cases hin
  | ended e held => cases hin

theorem Fits.ended_of_mem (h : l.Fits) {e : RequestEnd} (he : e ∈ l.ends) :
    l = ⟨false, none, l.held, [e]⟩ := by
  cases h with
  | ended e' held =>
    obtain rfl := List.mem_singleton.mp he
    rfl
  | unmade => cases he
  | waiting phase => cases he
  | given phase content => cases he
  | told phase place _ => cases he

theorem Fits.handOver (h : l.Fits) : l.handOver.Fits := by
  cases h with
  | unmade => exact .unmade
  | waiting phase => exact .waiting phase
  | given phase content => exact .told phase (.filled content) (by simp)
  | told phase place h => exact .told phase place h
  | ended e held =>
    cases held with
    | none => exact .ended e none
    | some content => exact .ended e none

theorem Fits.offer (h : l.Fits) (hheld : l.held = none) (content : Json) :
    (l.offer content).Fits := by
  cases h with
  | unmade => exact .unmade
  | waiting phase => exact .given phase content
  | given phase content => cases hheld
  | told phase place h => exact .told phase place h
  | ended e held => exact .ended e held

theorem Fits.close (h : l.Fits) : l.close.Fits := by
  cases h with
  | unmade => exact .unmade
  | waiting phase => exact .told phase .closed (by simp)
  | given phase content => exact .given phase content
  | told phase place h => exact .told phase place h
  | ended e held => exact .ended e held

/-- The request has been made. -/
def Made (l : Life) : Prop := l.request ≠ none ∨ l.ends ≠ []

theorem Made.put (h : l.Made) (p : ReplyPlace) : (l.put p).Made :=
  h.imp_left fun hq => by
    rw [Life.put, Ne, Option.map_eq_none_iff]
    exact hq

theorem Made.act (h : l.Made) (a : RequestStep) : (l.act a).Made := by
  unfold Life.act
  split
  · exact .inl (by simp)
  · exact .inr (by simp)
  · exact h

theorem Made.handOver (h : l.Made) : l.handOver.Made := by
  unfold Life.handOver
  split
  · exact Made.put h _
  · exact h

theorem Made.offer (h : l.Made) (content : Json) : (l.offer content).Made := by
  unfold Life.offer
  split
  · exact h
  · exact h

theorem Made.close (h : l.Made) : l.close.Made := by
  unfold Life.close
  split
  · exact Made.put h _
  · exact h

theorem Made.next (h : l.Made) {r : RequestId} {s : ConnectionStep} (stopped : Bool) :
    (l.next r stopped s).Made :=
  next_of_each stopped h (fun _ => .inl (by simp)) h.act h.handOver
    (fun m _ => h.handOver.offer m.content) h.handOver.close

theorem held_handOver (l : Life) : l.handOver.held = none := by
  unfold handOver
  split
  · rfl
  · next h => exact h

/-- A request in progress goes on, or it ends. It is in the reply table no longer when it does, for the
ends that leave it there come of what was put where it looks. -/
theorem Fits.act (h : l.Fits) (a : RequestStep) : (l.act a).Fits := by
  cases h with
  | unmade => exact .unmade
  | ended e held => exact .ended e held
  | waiting phase =>
    cases a <;> cases phase <;>
      first
      | exact .waiting _
      | exact .ended _ _
  | given phase content =>
    cases a <;> cases phase <;>
      first
      | exact .given _ _
      | exact .ended _ _
  | told phase place h =>
    cases a <;> cases phase <;> cases place <;>
      first
      | exact absurd rfl h
      | exact .told _ _ h
      | exact .ended _ _

theorem Fits.next (h : l.Fits) {r : RequestId} {s : ConnectionStep}
    (fresh : s = .register r → l = { }) (stopped : Bool) : (l.next r stopped s).Fits := by
  refine next_of_each stopped h (fun hs => ?_) h.act h.handOver
    (fun m _ => h.handOver.offer (held_handOver l) m.content) h.handOver.close
  rw [fresh hs]
  exact .waiting .sending

theorem next_unmade {r : RequestId} {s : ConnectionStep} (h : s ≠ .register r) (stopped : Bool) :
    ({ } : Life).next r stopped s = { } :=
  next_of_each (P := (· = { })) stopped rfl (absurd · h) (fun _ => rfl) rfl (fun _ _ => rfl) rfl

end Life

namespace Connection

/-- The requests that are made, in their order. -/
def registered (steps : List ConnectionStep) : List RequestId :=
  steps.filterMap fun s => match s with
    | .register r => some r
    | _ => none

variable {steps : List ConnectionStep} {r : RequestId}

theorem mem_registered : r ∈ registered steps ↔ .register r ∈ steps := by
  unfold registered
  rw [List.mem_filterMap]
  constructor
  · rintro ⟨s, hs, h⟩
    cases s with
    | register s => exact Option.some.inj h ▸ hs
    | act s a => cases h
    | arrive m => cases h
    | handOver => cases h
    | take => cases h
    | stop => cases h
  · exact fun h => ⟨_, h, rfl⟩

theorem registered_append (steps more : List ConnectionStep) :
    registered (steps ++ more) = registered steps ++ registered more := List.filterMap_append

/-- Nothing is known of a request that has not been made. -/
theorem life_run_of_not_registered (h : r ∉ registered steps) :
    (run { } steps).life r = { } := by
  induction steps using List.reverseRecOn with
  | nil => rfl
  | append_singleton steps s ih =>
    rw [registered_append, List.mem_append, not_or] at h
    rw [run_concat, life_step, ih h.1]
    refine Life.next_unmade (fun hs => h.2 ?_) _
    rw [mem_registered, hs]
    exact List.mem_singleton_self _

theorem nodup_of_concat {s : ConnectionStep} (distinct : (registered (steps ++ [s])).Nodup) :
    (registered steps).Nodup := by
  rw [registered_append] at distinct
  exact (List.nodup_append.mp distinct).1

theorem not_registered_of_concat (distinct : (registered (steps ++ [.register r])).Nodup) :
    r ∉ registered steps := fun hr => by
  rw [registered_append] at distinct
  exact (List.nodup_append.mp distinct).2.2 r hr r (by simp [registered]) rfl

/-- If no request is made twice, each is in one of the five states. -/
theorem fits_run (distinct : (registered steps).Nodup) (r : RequestId) :
    ((run { } steps).life r).Fits := by
  induction steps using List.reverseRecOn with
  | nil => exact .unmade
  | append_singleton steps s ih =>
    rw [run_concat, life_step]
    refine (ih (nodup_of_concat distinct)).next (fun hs => ?_) _
    exact life_run_of_not_registered (not_registered_of_concat (hs ▸ distinct))

theorem run_take_succ {n : Nat} {s : ConnectionStep} (h : steps[n]? = some s) :
    run { } (steps.take (n + 1)) = (run { } (steps.take n)).step s := by
  rw [List.take_add_one, h, Option.toList_some, run_concat]

theorem nodup_registered_take (distinct : (registered steps).Nodup) (n : Nat) :
    (registered (steps.take n)).Nodup :=
  distinct.sublist ((List.take_sublist n steps).filterMap _)

/-- What holds of a life and of whether the reader has stopped, at some point of a run, and is kept by
its steps, holds later on. -/
theorem life_run_take_keeps {P : Bool → Life → Prop} (distinct : (registered steps).Nodup)
    (keeps : ∀ l s stopped, Life.Fits l → (s = .register r → l = { }) → P stopped l →
      P (stopped || decide (s = .stop)) (l.next r stopped s))
    {j k : Nat} (hjk : j ≤ k)
    (h : P (run { } (steps.take j)).stopped ((run { } (steps.take j)).life r)) :
    P (run { } (steps.take k)).stopped ((run { } (steps.take k)).life r) := by
  -- by induction on how far the run has gone beyond `j`
  induction k, hjk using Nat.le_induction with
  | base => exact h
  | succ k _ ih =>
    cases hs : steps[k]? with
    | none =>
      rwa [List.take_add_one, hs, Option.toList_none, List.append_nil]
    | some s =>
      rw [run_take_succ hs, life_step, stopped_step]
      refine keeps _ s _ (fits_run (nodup_registered_take distinct k) r) (fun e => ?_) ih
      have upTo := nodup_registered_take distinct (k + 1)
      rw [List.take_add_one, hs, Option.toList_some, e] at upTo
      exact life_run_of_not_registered (not_registered_of_concat upTo)

/-- A request that has been made is in progress, or it has ended. -/
theorem made_run (h : r ∈ registered steps) : ((run { } steps).life r).Made := by
  induction steps using List.reverseRecOn with
  | nil => cases h
  | append_singleton steps s ih =>
    rw [run_concat, life_step]
    by_cases hs : s = .register r
    · subst hs
      exact .inl (by simp [Life.next])
    · refine (ih ?_).next _
      rw [registered_append, List.mem_append] at h
      refine h.resolve_right fun hr => hs ?_
      exact (List.mem_singleton.mp (mem_registered.mp hr)).symm

end Connection
end NotebookKernels
