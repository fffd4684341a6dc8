import NotebookKernels.Proofs.Process.Lives

/- Replies go to the requests that they name, and events to whoever takes them.

   1. What a request can return as its reply is in its life from the step on at which a frame for it
      arrived that found it in the reply table (`Life.next_has`), so a reply that was returned leads back
      to such a frame (`handedOn_of_has`).
   2. A request leaves the table once (`Life.Left`), and a frame takes out only the request that it
      names; so frames and answered requests match one to one.
   3. A request whose time has run out ends so, whatever arrives (`Life.TimedOut`).
   4. Events are what was published while the reader ran, in order: some taken, the rest still there
      (`taken_append_events`).

   `Routed` puts together what follows for a run in which no request is made twice
   (`requests_routed`). -/
namespace NotebookKernels

namespace Life

variable {l : Life} {r : RequestId} {stopped : Bool} {v : Json}

/-! ## Where a reply comes from -/

/-- The life holds this reply: it is about to be handed on, or lies there, or has been returned. -/
def Has (l : Life) (v : Json) : Prop :=
  l.held = some v ∨ (∃ q, l.request = some q ∧ q.place = .filled v) ∨ .reply v ∈ l.ends

theorem not_has_unmade : ¬({ } : Life).Has v := by simp [Has]

theorem has_of_put {p : ReplyPlace} (h : (l.put p).Has v) : l.Has v ∨ p = .filled v := by
  obtain h | ⟨q, hq, hplace⟩ | h := h
  · exact .inl (.inl h)
  · obtain ⟨q, -, rfl⟩ := Option.map_eq_some_iff.mp hq
    exact .inr hplace
  · exact .inl (.inr (.inr h))

theorem has_of_handOver (h : l.handOver.Has v) : l.Has v := by
  unfold handOver at h
  split at h
  · next content hheld =>
    obtain h | h := has_of_put h
    · obtain h | h | h := h
      · cases h
      · exact .inr (.inl h)
      · exact .inr (.inr h)
    · exact .inl (hheld.trans (congrArg some (ReplyPlace.filled.inj h)))
  · exact h

theorem has_of_close (h : l.close.Has v) : l.Has v := by
  unfold close at h
  split at h
  · exact (has_of_put h).resolve_right (by simp)
  · exact h

theorem has_of_offer {content : Json} (h : (l.offer content).Has v) :
    l.Has v ∨ (l.inTable = true ∧ content = v) := by
  unfold offer at h
  split at h
  · next hin =>
    obtain h | h | h := h
    · exact .inr ⟨hin, Option.some.inj h⟩
    · exact .inl (.inr (.inl h))
    · exact .inl (.inr (.inr h))
  · exact .inl h

theorem has_of_act {a : RequestStep} (h : (l.act a).Has v) : l.Has v := by
  unfold act at h
  cases hq : l.request with
  | none =>
    rw [hq] at h
    exact h
  | some q =>
    rw [hq, Option.map_some] at h
    cases hm : q.step a with
    | goOn q' =>
      rw [hm] at h
      obtain h | ⟨p, hp, hplace⟩ | h := h
      · exact .inl h
      · obtain rfl := Option.some.inj hp
        exact .inr (.inl ⟨q, hq, (OpenRequest.place_of_goOn hm).symm.trans hplace⟩)
      · exact .inr (.inr h)
    | finish e =>
      rw [hm] at h
      obtain h | ⟨p, hp, -⟩ | h := h
      · exact .inl h
      · cases hp
      · obtain h | h := List.mem_append.mp h
        · exact .inr (.inr h)
        · obtain rfl := List.mem_singleton.mp h
          exact .inr (.inl ⟨q, hq, OpenRequest.place_of_finish hm⟩)

theorem inTable_handOver (l : Life) : l.handOver.inTable = l.inTable := by
  unfold handOver
  split <;> rfl

theorem inTable_offer (l : Life) (content : Json) : (l.offer content).inTable = false := by
  unfold offer
  split
  · rfl
  · next h => exact Bool.eq_false_iff.mpr h

/-- A reply that was not there before is that of a frame which has taken the request out of the
table. -/
theorem next_has {s : ConnectionStep} :
    (l.next r stopped s).Has v → l.Has v ∨ ∃ m, s = .arrive m ∧ m.content = v ∧
      l.inTable = true ∧ (l.next r stopped s).inTable = false := by
  refine next_of_each (P := fun l' => l'.Has v → l.Has v ∨ ∃ m, s = .arrive m ∧ m.content = v ∧
    l.inTable = true ∧ l'.inTable = false) stopped .inl (fun _ h => ?_) (fun a h => .inl (has_of_act h))
    (fun h => .inl (has_of_handOver h)) (fun m hs h => ?_)
    (fun h => .inl (has_of_handOver (has_of_close h)))
  · obtain h | ⟨q, hq, hplace⟩ | h := h
    · exact .inl (.inl h)
    · obtain rfl := Option.some.inj hq
      cases hplace
    · exact .inl (.inr (.inr h))
  · obtain h | ⟨hin, hv⟩ := has_of_offer h
    · exact .inl (has_of_handOver h)
    · exact .inr ⟨m, hs, hv, (inTable_handOver l).symm.trans hin, inTable_offer _ _⟩

/-! ## Leaving the table, and running out of time -/

/-- The request has been made, and it is in the table no longer. -/
def Left (l : Life) : Prop := l.inTable = false ∧ l.Made

/-- The time of the request has run out, or it has ended for that. -/
def TimedOut (l : Life) : Prop := (∃ q, l.request = some q ∧ q.phase = .late) ∨ l.ends = [.elapsed]

theorem Left.next (h : l.Left) {s : ConnectionStep} (fresh : s = .register r → l = { })
    (stopped : Bool) : (l.next r stopped s).Left := by
  refine ⟨?_, h.2.next stopped⟩
  refine next_of_each (P := (·.inTable = false)) stopped h.1 (fun hs => ?_) (fun a => ?_) ?_
    (fun m _ => inTable_offer ..) ?_
  · obtain rfl := fresh hs
    exact absurd h.2 (by simp [Made])
  · unfold act
    split
    · exact h.1
    · simp [h.1]
    · exact h.1
  · exact (inTable_handOver l).trans h.1
  · unfold close
    split
    · rfl
    · exact (inTable_handOver l).trans h.1

theorem TimedOut.put (h : l.TimedOut) (p : ReplyPlace) : (l.put p).TimedOut := by
  obtain ⟨q, hq, hphase⟩ | h := h
  · exact .inl ⟨{ q with place := p }, by simp [Life.put, hq], hphase⟩
  · exact .inr h

theorem TimedOut.handOver (h : l.TimedOut) : l.handOver.TimedOut := by
  unfold Life.handOver
  split
  · exact TimedOut.put h _
  · exact h

theorem TimedOut.act (h : l.TimedOut) (fits : l.Fits) (a : RequestStep) : (l.act a).TimedOut := by
  obtain ⟨q, hq, hphase⟩ | h := h
  · have hends : l.ends = [] := List.eq_nil_iff_forall_not_mem.mpr fun e he => by
      rw [fits.ended_of_mem he] at hq
      cases hq
    obtain ⟨phase, place⟩ := q
    obtain rfl : phase = .late := hphase
    unfold Life.act
    rw [hq, Option.map_some]
    cases a with
    | sent => exact .inl ⟨_, rfl, rfl⟩
    | unsent f => exact .inl ⟨_, rfl, rfl⟩
    | look => exact .inl ⟨_, rfl, rfl⟩
    | elapse => exact .inl ⟨_, rfl, by simp⟩
    | leave => exact .inr (by simp [OpenRequest.step, hends])
  · rw [fits.ended_of_mem (h ▸ List.mem_singleton_self _)]
    exact .inr rfl

theorem TimedOut.next (h : l.TimedOut) (fits : l.Fits) {s : ConnectionStep}
    (fresh : s = .register r → l = { }) (stopped : Bool) : (l.next r stopped s).TimedOut := by
  refine next_of_each stopped h (fun hs => ?_) (h.act fits) h.handOver (fun m _ => ?_) ?_
  · obtain rfl := fresh hs
    exact absurd h (by simp [TimedOut])
  · unfold offer
    split
    · exact h.handOver
    · exact h.handOver
  · unfold close
    split
    · exact TimedOut.put h.handOver _
    · exact h.handOver

end Life

namespace Connection

variable {c : Connection} {steps : List ConnectionStep} {r : RequestId} {v : Json}

/-! ## Requests and the frames that answer them -/

/-- The frame that arrives as step `n` is handed on to the request: it takes the request out of the
reply table. -/
def HandedOn (steps : List ConnectionStep) (n : Nat) (m : WireMessage) (r : RequestId) : Prop :=
  steps[n]? = some (.arrive m) ∧ r ∈ (run { } (steps.take n)).table ∧
    r ∉ (run { } (steps.take (n + 1))).table

variable {n : Nat} {m : WireMessage}

theorem HandedOn.lt_length (h : HandedOn steps n m r) : n < steps.length :=
  (List.getElem?_eq_some_iff.mp h.1).1

theorem HandedOn.append (h : HandedOn steps n m r) (more : List ConnectionStep) :
    HandedOn (steps ++ more) n m r := by
  have hn := h.lt_length
  refine ⟨(List.getElem?_append_left hn).trans h.1, ?_, ?_⟩
  · rw [List.take_append_of_le_length (Nat.le_of_lt hn)]
    exact h.2.1
  · rw [List.take_append_of_le_length hn]
    exact h.2.2

/-- A reply in the life of a request leads back to a frame that was handed on to it. -/
theorem handedOn_of_has (h : ((run { } steps).life r).Has v) :
    ∃ n m, HandedOn steps n m r ∧ m.content = v := by
  induction steps using List.reverseRecOn with
  | nil => exact absurd h Life.not_has_unmade
  | append_singleton steps s ih =>
    rw [run_concat, life_step] at h
    -- the reply was there before the last step, or that step is the frame
    obtain h | ⟨m, rfl, hv, hin, hout⟩ := Life.next_has h
    · obtain ⟨n, m, handed, hv⟩ := ih h
      exact ⟨n, m, handed.append _, hv⟩
    · refine ⟨steps.length, m, ⟨by simp, ?_, ?_⟩, hv⟩
      · rw [List.take_left, ← inTable_life]
        exact hin
      · rw [List.take_of_length_le (by simp), run_concat, ← inTable_life, life_step]
        exact Bool.eq_false_iff.mp hout

/-- A frame takes out only the request that it names. -/
theorem HandedOn.repliesTo (h : HandedOn steps n m r) : m.RepliesTo r := by
  obtain ⟨hs, hin, hout⟩ := h
  rw [run_take_succ hs, ← inTable_life, life_step] at hout
  rw [← inTable_life] at hin
  by_contra hm
  apply hout
  simp only [Life.next, hm, if_false]
  split
  · exact hin
  · exact (Life.inTable_handOver _).trans hin

theorem HandedOn.unique (h : HandedOn steps n m r) {m' : WireMessage} {s : RequestId}
    (h' : HandedOn steps n m' s) : r = s := by
  obtain rfl : m = m' := ConnectionStep.arrive.inj (Option.some.inj (h.1.symm.trans h'.1))
  exact Option.some.inj (h.repliesTo.2.symm.trans h'.repliesTo.2)

theorem registered_of_mem_table (h : r ∈ (run { } steps).table) : r ∈ registered steps := by
  by_contra hr
  rw [← inTable_life, life_run_of_not_registered hr] at h
  exact Bool.false_ne_true h

/-- The reader has the frame for the request now, which is still in progress. -/
theorem HandedOn.life_eq (distinct : (registered steps).Nodup) (h : HandedOn steps n m r) :
    (run { } (steps.take (n + 1))).stopped = false ∧
      ∃ phase, (run { } (steps.take (n + 1))).life r =
        ⟨false, some ⟨phase, .empty⟩, some m.content, []⟩ := by
  have hm := h.repliesTo
  obtain ⟨hs, hin, hout⟩ := h
  have fits := fits_run (nodup_registered_take distinct n) r
  rw [← inTable_life] at hin hout
  rw [run_take_succ hs] at hout ⊢
  rw [life_step] at hout ⊢
  rw [stopped_step]
  generalize (run { } (steps.take n)).stopped = stopped at hout ⊢
  generalize (run { } (steps.take n)).life r = l at fits hin hout ⊢
  cases stopped with
  | true => exact absurd hin hout
  | false =>
    obtain ⟨phase, rfl⟩ := fits.waiting_of_inTable hin
    exact ⟨rfl, phase, by simp [Life.next, hm, Life.handOver, Life.offer]⟩

/-- A request that was handed a frame is not in the table later. -/
theorem HandedOn.left (distinct : (registered steps).Nodup) (h : HandedOn steps n m r) {k : Nat}
    (hk : n < k) : ((run { } (steps.take k)).life r).Left := by
  obtain ⟨-, phase, hlife⟩ := h.life_eq distinct
  refine life_run_take_keeps (P := fun _ => Life.Left) distinct
    (fun l s stopped _ fresh left => left.next fresh stopped) hk ?_
  rw [hlife]
  exact ⟨rfl, .inl (by simp)⟩

/-- A frame that was handed on is what the request returns, if there is time to send it and to
look. -/
theorem HandedOn.delivered (distinct : (registered steps).Nodup) (h : HandedOn steps n m r) :
    ∃ q, (run { } (steps.take (n + 1))).requests.get? r = some q ∧ (q.phase ≠ .late →
      (r, .reply m.content) ∈ ((run { } (steps.take (n + 1))).run
        [.handOver, .act r .sent, .act r .look]).ended) := by
  obtain ⟨hstopped, phase, hlife⟩ := h.life_eq distinct
  generalize run { } (steps.take (n + 1)) = c at hstopped hlife ⊢
  refine ⟨_, congrArg Life.request hlife, fun hphase => ?_⟩
  rw [← mem_ends_life]
  simp only [run, List.foldl_cons, List.foldl_nil, life_step, stopped_step, hstopped, hlife]
  cases phase with
  | sending => simp [Life.next, Life.handOver, Life.put, Life.act, OpenRequest.step]
  | waiting => simp [Life.next, Life.handOver, Life.put, Life.act, OpenRequest.step]
  | late => exact absurd rfl hphase

theorem HandedOn.once (distinct : (registered steps).Nodup) (h : HandedOn steps n m r) {k : Nat}
    {m' : WireMessage} (h' : HandedOn steps k m' r) : n = k := by
  have apart : ∀ {i j : Nat} {a b : WireMessage}, HandedOn steps i a r → HandedOn steps j b r →
      ¬i < j := fun hi hj hlt => by
    -- handed the first, it is out of the table when the second comes
    have out := (hi.left distinct hlt).1
    rw [inTable_life.mpr hj.2.1] at out
    cases out
  exact Nat.le_antisymm (Nat.not_lt.mp (apart h' h)) (Nat.not_lt.mp (apart h h'))

/-- A request is in the table from when it was made, until a frame is handed on to it or it ends. -/
theorem pending_of_mem_table (distinct : (registered steps).Nodup) {k : Nat}
    (h : r ∈ (run { } (steps.take k)).table) :
    .register r ∈ steps.take k ∧ (∀ n < k, ∀ m, ¬HandedOn steps n m r) ∧
      ∀ e, (r, e) ∉ (run { } (steps.take k)).ended := by
  refine ⟨mem_registered.mp (registered_of_mem_table h), fun n hn m handed => ?_, fun e he => ?_⟩
  · have out := (handed.left distinct hn).1
    rw [inTable_life.mpr h] at out
    cases out
  · have fits := fits_run (nodup_registered_take distinct k) r
    obtain ⟨phase, hlife⟩ := fits.waiting_of_inTable (inTable_life.mpr h)
    rw [← mem_ends_life, hlife] at he
    cases he

/-- A request ends once. -/
theorem nodup_ended (distinct : (registered steps).Nodup) :
    ((run { } steps).ended.map (·.1)).Nodup := by
  rw [List.nodup_iff_count]
  intro r
  have hcount : ((run { } steps).ended.map (·.1)).count r =
      ((run { } steps).life r).ends.length := by
    rw [List.count_eq_countP, List.countP_map, List.countP_eq_length_filter, life, List.length_map]
    rfl
  rw [hcount]
  have fits := fits_run distinct r
  generalize (run { } steps).life r = l at fits
  cases fits with
  | ended e held => exact Nat.le_refl _
  | unmade => exact Nat.zero_le _
  | waiting phase => exact Nat.zero_le _
  | given phase content => exact Nat.zero_le _
  | told phase place _ => exact Nat.zero_le _

/-- A request whose time has run out ends so. -/
theorem elapsed_of_late (distinct : (registered steps).Nodup) {k : Nat} {q : OpenRequest}
    (hq : (run { } (steps.take k)).requests.get? r = some q) (hphase : q.phase = .late)
    {e : RequestEnd} (he : (r, e) ∈ (run { } steps).ended) : e = .elapsed := by
  -- `k` may lie beyond the end of the run
  have later : ((run { } (steps.take (max k steps.length))).life r).TimedOut :=
    life_run_take_keeps (P := fun _ => Life.TimedOut) distinct
      (fun l s stopped fits fresh h => h.next fits fresh stopped) (Nat.le_max_left ..)
      (.inl ⟨q, hq, hphase⟩)
  rw [List.take_of_length_le (Nat.le_max_right ..)] at later
  rw [(fits_run distinct r).ended_of_mem (mem_ends_life.mpr he)] at later
  obtain ⟨q, hq, -⟩ | h := later
  · cases hq
  · exact List.singleton_inj.mp h

/-! ## Frames for nobody -/

theorem handOver_of_hand (h : c.hand = none) : c.handOver = c := by
  unfold handOver
  rw [h]

theorem table_handOver (c : Connection) : c.handOver.table = c.table := by
  unfold handOver
  split <;> rfl

theorem arrive_unclaimed (hchannel : m.channel = .shell) (hparent : ∀ r ∈ m.parent, r ∉ c.table) :
    c.arrive m = c := by
  unfold arrive
  split
  · next h => cases hchannel.symm.trans h
  · next r _ hr => exact if_neg (hparent r hr)
  · rfl

/-- A reply to nobody in the table changes nothing. The reader has handed on before what it had. -/
theorem run_unclaimed (hchannel : m.channel = .shell) (hparent : ∀ r ∈ m.parent, r ∉ c.table) :
    c.run [.handOver, .arrive m] = c.run [.handOver] := by
  simp only [run, List.foldl_cons, List.foldl_nil, step]
  cases hstopped : c.stopped with
  | true => simp [hstopped]
  | false =>
    simp only [Bool.false_eq_true, if_false, stopped_handOver, hstopped,
      handOver_of_hand (hand_handOver c)]
    exact arrive_unclaimed hchannel (by rwa [table_handOver])

/-! ## Events -/

/-- The event that arrives with this step. -/
def event? : ConnectionStep → Option WireMessage
  | .arrive m => if m.channel = .iopub then some m else none
  | _ => none

/-- The events that arrive while the reader runs, in their order. -/
def published (steps : List ConnectionStep) : List WireMessage :=
  (steps.takeWhile (· ≠ .stop)).filterMap event?

/-- The events that are taken, in the order in which they are. -/
def taken (c : Connection) : List ConnectionStep → List WireMessage
  | [] => []
  | s :: steps =>
    (if s = .take then c.events.head?.toList else []) ++ (c.step s).taken steps

theorem published_cons {s : ConnectionStep} (hs : s ≠ .stop) (steps : List ConnectionStep) :
    published (s :: steps) = (event? s).toList ++ published steps := by
  unfold published
  rw [List.takeWhile_cons_of_pos (by simpa using hs), List.filterMap_cons]
  cases event? s <;> rfl

theorem events_act (c : Connection) (r : RequestId) (a : RequestStep) :
    (c.act r a).events = c.events := by
  unfold act
  split
  · rfl
  · split <;> rfl
  · rfl

theorem events_handOver (c : Connection) : c.handOver.events = c.events := by
  unfold handOver
  split <;> rfl

theorem events_arrive (c : Connection) (m : WireMessage) :
    (c.arrive m).events = c.events ++ (event? (.arrive m)).toList := by
  unfold arrive event?
  split
  · next h => simp [h]
  · next h _ => split <;> simp [forget, h]
  · next h _ => simp [h]

theorem events_step (c : Connection) (s : ConnectionStep) (hs : s ≠ .take) :
    (c.step s).events = c.events ++ if c.stopped then [] else (event? s).toList := by
  cases s with
  | register r => simp [step, event?]
  | act r a => simp [step, event?, events_act]
  | arrive m => cases hstopped : c.stopped <;> simp [step, hstopped, events_arrive, events_handOver]
  | handOver => cases hstopped : c.stopped <;> simp [step, hstopped, event?, events_handOver]
  | take => exact absurd rfl hs
  | stop => cases hstopped : c.stopped <;> simp [step, hstopped, event?, stop, events_handOver]

/-- Every event that arrived has been taken, or it is still there, and their order is kept. -/
theorem taken_append_events (c : Connection) (steps : List ConnectionStep) :
    c.taken steps ++ (c.run steps).events =
      c.events ++ if c.stopped then [] else published steps := by
  induction steps generalizing c with
  | nil => simp [taken, run, published]
  | cons s steps ih =>
    rw [taken, run_cons, List.append_assoc, ih, stopped_step]
    by_cases htake : s = .take
    · subst htake
      rw [published_cons (by simp)]
      cases hevents : c.events <;> simp [step, event?, hevents]
    · rw [if_neg htake, events_step c s htake]
      by_cases hstop : s = .stop
      · subst hstop
        cases c.stopped <;> simp [event?, published]
      · rw [published_cons hstop]
        cases c.stopped <;> simp [hstop]

/-! ## Runs -/

/-- How replies and events are routed over a run of a new connection. -/
structure Routed (steps : List ConnectionStep) : Prop where
  /-- What a request returns as its reply is the content of a frame that was handed on to it. -/
  answered : ∀ r v, (r, .reply v) ∈ (run { } steps).ended →
    ∃ n m, HandedOn steps n m r ∧ m.content = v
  /-- A frame is handed on to the request that it names, which was made before it arrived. -/
  addressed : ∀ n m r, HandedOn steps n m r → m.RepliesTo r ∧ .register r ∈ steps.take n
  /-- A frame is handed on to one request at most. -/
  oneRequest : ∀ n m m' r s, HandedOn steps n m r → HandedOn steps n m' s → r = s
  /-- A request is handed one frame at most. -/
  oneFrame : ∀ n k m m' r, HandedOn steps n m r → HandedOn steps k m' r → n = k
  /-- And it returns the content of that, if it is sent and its time does not run out. -/
  delivered : ∀ n m r, HandedOn steps n m r →
    ∃ q, (run { } (steps.take (n + 1))).requests.get? r = some q ∧ (q.phase ≠ .late →
      (r, .reply m.content) ∈ ((run { } (steps.take (n + 1))).run
        [.handOver, .act r .sent, .act r .look]).ended)
  /-- A request in the table has been made, has not been handed a frame, and has not ended. -/
  pending : ∀ k r, r ∈ (run { } (steps.take k)).table → .register r ∈ steps.take k ∧
    (∀ n < k, ∀ m, ¬HandedOn steps n m r) ∧ ∀ e, (r, e) ∉ (run { } (steps.take k)).ended
  /-- A frame whose parent is not in the table changes nothing. -/
  unclaimed : ∀ k m, m.channel = .shell → (∀ r ∈ m.parent, r ∉ (run { } (steps.take k)).table) →
    (run { } (steps.take k)).run [.handOver, .arrive m] = (run { } (steps.take k)).run [.handOver]
  /-- A request is as it is without the requests and the frames of the others. -/
  undisturbed : ∀ r, (run { } steps).life r = (run { } (steps.filterMap (·.seenBy r))).life r
  /-- A request ends once. -/
  endsOnce : ((run { } steps).ended.map (·.1)).Nodup
  /-- A request whose time has run out does not return a reply that comes after that. -/
  timedOut : ∀ k r q e, (run { } (steps.take k)).requests.get? r = some q → q.phase = .late →
    (r, e) ∈ (run { } steps).ended → e = .elapsed
  /-- The events are taken in the order of their arrival, and each once. -/
  events : taken { } steps ++ (run { } steps).events = published steps

/-- Whatever order requests, frames, timeouts and failures come in, replies reach the requests that
they name and events whoever takes them, if no two requests have one name. -/
theorem requests_routed (steps : List ConnectionStep) (distinct : (registered steps).Nodup) :
    Routed steps where
  answered := fun _ _ h => handedOn_of_has (.inr (.inr (mem_ends_life.mpr h)))
  addressed := fun _ _ _ h => ⟨h.repliesTo, mem_registered.mp (registered_of_mem_table h.2.1)⟩
  oneRequest := fun _ _ _ _ _ h h' => h.unique h'
  oneFrame := fun _ _ _ _ _ h h' => h.once distinct h'
  delivered := fun _ _ _ h => h.delivered distinct
  pending := fun _ _ h => pending_of_mem_table distinct h
  unclaimed := fun _ _ hchannel hparent => run_unclaimed hchannel hparent
  undisturbed := fun _ => life_run_seenBy rfl rfl steps
  endsOnce := nodup_ended distinct
  timedOut := fun _ _ _ _ hq hphase he => elapsed_of_late distinct hq hphase he
  events := taken_append_events { } steps

/-- Two requests: `a` is answered too late, and `b` twice. -/
theorem requests_routed_late :
    let a : RequestId := ⟨"a"⟩
    let b : RequestId := ⟨"b"⟩
    let reply (r : RequestId) (v : Json) : WireMessage := ⟨.shell, "", "execute_reply", some r, v⟩
    let event : WireMessage := ⟨.iopub, "", "stream", some a, .null⟩
    let steps : List ConnectionStep :=
      [.register a, .register b, .act a .sent, .arrive (reply b (.bool true)), .act a .elapse,
        .arrive event, .act b .sent, .arrive (reply a .null), .act a .leave, .act b .look,
        .arrive (reply b .null), .take]
    (registered steps).Nodup ∧ Routed steps ∧
      (run { } steps).ended = [(a, .elapsed), (b, .reply (.bool true))] ∧
      taken { } steps = [event] := by
  intro a b reply event steps
  have distinct : (registered steps).Nodup := by decide +kernel
  exact ⟨distinct, requests_routed steps distinct, by decide +kernel, by decide +kernel⟩

end Connection
end NotebookKernels
