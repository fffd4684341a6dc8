import NotebookKernels.Proofs.Process.Lives

/- The end of the reader, and the requests.

   When the reader stops it empties the reply table, once.

   1. A request that was made before finds something where it looks for its reply, then and from then
      on (`Life.Woken`), and so it ends by its own steps.
   2. A request that is made later enters a table that nobody empties any more. It finds nothing, and it
      ends only when it cannot be sent or its time has run out (`Life.Stranded`).

   `requests_after_stop` says so of every run, and `request_after_stop_waits` is a run in which a request
   that came too late waits. -/
namespace NotebookKernels

namespace Life

variable {l : Life} {r : RequestId} {stopped : Bool}

/-! ## Requests that were made before -/

/-- There is something where the request looks for its reply, or it has ended. -/
def Woken (l : Life) : Prop :=
  (∃ q, l.request = some q ∧ q.place ≠ .empty) ∨ ∃ e, l.ends = [e]

theorem Woken.put (h : l.Woken) {p : ReplyPlace} (hp : p ≠ .empty) : (l.put p).Woken :=
  h.imp_left fun ⟨q, hq, _⟩ => ⟨{ q with place := p }, by simp [Life.put, hq], hp⟩

theorem Woken.act (h : l.Woken) (fits : l.Fits) (a : RequestStep) : (l.act a).Woken := by
  cases fits with
  | unmade => simp [Woken] at h
  | waiting phase => simp [Woken] at h
  | given phase content => simp [Woken] at h
  | told phase place hplace =>
    cases hm : OpenRequest.step ⟨phase, place⟩ a with
    | goOn q =>
      refine .inl ⟨q, by simp [Life.act, hm], ?_⟩
      rw [OpenRequest.place_of_goOn hm]
      exact hplace
    | finish e => exact .inr ⟨e, by simp [Life.act, hm]⟩
  | ended e held => exact .inr ⟨e, rfl⟩

theorem Woken.handOver (h : l.Woken) : l.handOver.Woken := by
  unfold Life.handOver
  split
  · exact Woken.put h (by simp)
  · exact h

theorem Woken.next (h : l.Woken) (fits : l.Fits) {s : ConnectionStep}
    (fresh : s = .register r → l = { }) (stopped : Bool) : (l.next r stopped s).Woken := by
  refine next_of_each stopped h (fun hs => ?_) (h.act fits) h.handOver (fun m _ => ?_) ?_
  · obtain rfl := fresh hs
    simp [Woken] at h
  · unfold offer
    split
    · exact h.handOver
    · exact h.handOver
  · unfold close
    split
    · exact Woken.put h.handOver (by simp)
    · exact h.handOver

/-- The reader wakes whoever has been made when it stops. -/
theorem woken_of_stop (made : l.Made) (fits : l.Fits) : (l.next r false .stop).Woken := by
  cases fits with
  | unmade => simp [Made] at made
  | waiting phase => exact .inl ⟨⟨phase, .closed⟩, rfl, by simp⟩
  | given phase content => exact .inl ⟨⟨phase, .filled content⟩, rfl, by simp⟩
  | told phase place h => exact .inl ⟨⟨phase, place⟩, rfl, h⟩
  | ended e held =>
    cases held with
    | none => exact .inr ⟨e, rfl⟩
    | some content => exact .inr ⟨e, rfl⟩

theorem Woken.not_inTable (h : l.Woken) (fits : l.Fits) : ¬l.inTable = true := fun hin => by
  obtain ⟨phase, rfl⟩ := fits.waiting_of_inTable hin
  simp [Woken] at h

/-- It ends by its own steps: it is sent, it looks, and if its time has run out it leaves. -/
theorem Woken.ends (h : l.Woken) (fits : l.Fits) :
    ∃ e, e ∈ (((l.act .sent).act .look).act .leave).ends := by
  cases fits with
  | unmade => simp [Woken] at h
  | waiting phase => simp [Woken] at h
  | given phase content => simp [Woken] at h
  | told phase place hplace =>
    cases phase <;> cases place <;>
      first
      | exact absurd rfl hplace
      | exact ⟨_, List.mem_singleton_self _⟩
  | ended e held => exact ⟨e, List.mem_singleton_self _⟩

/-- If it was in the table when the reader stopped and it has time, it learns that no reply comes. -/
theorem exited_of_stop (fits : l.Fits) (hin : l.inTable = true) {q : OpenRequest}
    (hq : l.request = some q) (hphase : q.phase ≠ .late) :
    .exited ∈ (((l.next r false .stop).act .sent).act .look).ends := by
  obtain ⟨phase, rfl⟩ := fits.waiting_of_inTable hin
  obtain rfl := Option.some.inj hq
  cases phase with
  | sending => exact List.mem_singleton_self _
  | waiting => exact List.mem_singleton_self _
  | late => exact absurd rfl hphase

/-! ## Requests that are made later -/

/-- What can become of a request that is made when the reader has stopped. -/
inductive Stranded : Life → Prop where
  | unmade : Stranded { }
  | waiting (phase : RequestPhase) : Stranded ⟨true, some ⟨phase, .empty⟩, none, []⟩
  | elapsed : Stranded ⟨false, none, none, [.elapsed]⟩
  | unsent (f : Failure) : Stranded ⟨false, none, none, [.unsent f]⟩

theorem Stranded.act (h : l.Stranded) (a : RequestStep) : (l.act a).Stranded := by
  cases h with
  | unmade => exact .unmade
  | elapsed => exact .elapsed
  | unsent f => exact .unsent f
  | waiting phase =>
    cases a <;> cases phase <;>
      first
      | exact .waiting _
      | exact .elapsed
      | exact .unsent _

theorem Stranded.next (h : l.Stranded) {s : ConnectionStep} (fresh : s = .register r → l = { }) :
    (l.next r true s).Stranded := by
  cases s with
  | register s =>
    by_cases hs : s = r
    · subst hs
      obtain rfl := fresh rfl
      simpa [Life.next] using Stranded.waiting .sending
    · simpa [Life.next, hs] using h
  | act s a =>
    by_cases hs : s = r
    · simpa [Life.next, hs] using h.act a
    · simpa [Life.next, hs] using h
  | arrive m => exact h
  | handOver => exact h
  | take => exact h
  | stop => exact h

theorem Stranded.inTable_iff (h : l.Stranded) (made : l.Made) :
    l.inTable = true ↔ ∀ e, e ∉ l.ends := by
  cases h with
  | unmade => simp [Made] at made
  | waiting phase => simp
  | elapsed => simp
  | unsent f => simp

theorem Stranded.of_mem_ends (h : l.Stranded) {e : RequestEnd} (he : e ∈ l.ends) :
    e = .elapsed ∨ ∃ f, e = .unsent f := by
  cases h with
  | unmade => cases he
  | waiting phase => cases he
  | elapsed => exact .inl (List.mem_singleton.mp he)
  | unsent f => exact .inr ⟨f, List.mem_singleton.mp he⟩

/-- It looks in vain. -/
theorem Stranded.inTable_look (h : l.Stranded) (hin : l.inTable = true) :
    ((l.act .sent).act .look).inTable = true := by
  cases h with
  | waiting phase => cases phase <;> rfl
  | unmade => cases hin
  | elapsed => cases hin
  | unsent f => cases hin

end Life

namespace Connection

variable {early late : List ConnectionStep}

theorem registered_stop (early late : List ConnectionStep) :
    registered (early ++ .stop :: late) = registered early ++ registered late := by
  rw [registered_append]
  rfl

/-- What the stop gives to a life, and the later steps keep, holds at the end. -/
theorem life_run_stop_keeps {P : Bool → Life → Prop} {r : RequestId}
    (distinct : (registered (early ++ .stop :: late)).Nodup)
    (keeps : ∀ l s stopped, Life.Fits l → (s = .register r → l = { }) → P stopped l →
      P (stopped || decide (s = .stop)) (l.next r stopped s))
    (h : P true (((run { } early).life r).next r (run { } early).stopped .stop)) :
    P true ((run { } (early ++ .stop :: late)).life r) := by
  have hstop : (early ++ .stop :: late)[early.length]? = some .stop := by simp
  have atStop := run_take_succ hstop
  rw [List.take_left] at atStop
  have atEnd := life_run_take_keeps (r := r) (j := early.length + 1)
    (k := (early ++ .stop :: late).length) distinct keeps (by simp) (by
      rw [atStop, stopped_step, life_step]
      simpa using h)
  rw [List.take_length] at atEnd
  simpa [stopped_run] using atEnd

/-- A request that was made before the reader stopped is woken. -/
theorem woken_of_registered {r : RequestId} (first : .stop ∉ early)
    (distinct : (registered (early ++ .stop :: late)).Nodup) (hr : r ∈ registered early) :
    ((run { } (early ++ .stop :: late)).life r).Woken := by
  have running : (run { } early).stopped = false := by simp [stopped_run, first]
  have apart := List.nodup_append.mp (registered_stop early late ▸ distinct)
  apply life_run_stop_keeps (P := fun _ => Life.Woken) distinct
  · intro l s stopped fits fresh h
    exact h.next fits fresh stopped
  · rw [running]
    exact Life.woken_of_stop (made_run hr) (fits_run apart.1 r)

/-- A request that is made after that is stranded. -/
theorem stranded_of_registered {r : RequestId}
    (distinct : (registered (early ++ .stop :: late)).Nodup) (hr : r ∈ registered late) :
    ((run { } (early ++ .stop :: late)).life r).Stranded := by
  have apart := List.nodup_append.mp (registered_stop early late ▸ distinct)
  -- the reader stays stopped, and the request had not been made when it stopped
  have hkeep := life_run_stop_keeps (P := fun stopped l => stopped = true ∧ l.Stranded) (r := r)
    distinct (fun l s stopped _ fresh h => ?_) ?_
  · exact hkeep.2
  · obtain ⟨rfl, h⟩ := h
    exact ⟨rfl, h.next fresh⟩
  · have unmade := life_run_of_not_registered fun he => apart.2.2 r he r hr rfl
    rw [unmade, Life.next_unmade (by simp)]
    exact ⟨rfl, .unmade⟩

/-- Whatever happens before and after the reader stops: a request that was made before has left the
table and ends by its own steps, at once without a reply if it was waiting for one. One that is made
later stays in the table until it ends, and it ends only for want of time or of a way to send it; to
look for a reply does not end it. -/
theorem requests_after_stop (first : .stop ∉ early)
    (distinct : (registered (early ++ .stop :: late)).Nodup) :
    let c := run { } (early ++ .stop :: late)
    (∀ r ∈ registered early, r ∉ c.table ∧
      ∃ e, (r, e) ∈ (c.run [.act r .sent, .act r .look, .act r .leave]).ended) ∧
    (∀ r q, r ∈ (run { } early).table → (run { } early).requests.get? r = some q →
      q.phase ≠ .late →
      (r, .exited) ∈ ((run { } early).run [.stop, .act r .sent, .act r .look]).ended) ∧
    (∀ r ∈ registered late, (r ∈ c.table ↔ ∀ e, (r, e) ∉ c.ended) ∧
      (∀ e, (r, e) ∈ c.ended → e = .elapsed ∨ ∃ f, e = .unsent f) ∧
      (r ∈ c.table → r ∈ (c.run [.act r .sent, .act r .look]).table)) := by
  intro c
  have apart := List.nodup_append.mp (registered_stop early late ▸ distinct)
  refine ⟨fun r hr => ?_, fun r q hin hq hphase => ?_, fun r hr => ?_⟩
  · have fits : (c.life r).Fits := fits_run distinct r
    have woken : (c.life r).Woken := woken_of_registered first distinct hr
    refine ⟨mt inTable_life.mpr (woken.not_inTable fits), ?_⟩
    obtain ⟨e, he⟩ := woken.ends fits
    refine ⟨e, ?_⟩
    rw [← mem_ends_life]
    simpa [run, life_step, Life.next] using he
  · have running : (run { } early).stopped = false := by simp [stopped_run, first]
    have fits := fits_run apart.1 r
    generalize run { } early = d at running fits hin hq ⊢
    have exited := Life.exited_of_stop (r := r) fits (inTable_life.mpr hin) hq hphase
    rw [← mem_ends_life]
    simpa [run, life_step, Life.next, running] using exited
  · have stranded : (c.life r).Stranded := stranded_of_registered distinct hr
    have made : (c.life r).Made :=
      made_run (registered_stop early late ▸ List.mem_append_right _ hr)
    refine ⟨?_, fun e he => stranded.of_mem_ends (mem_ends_life.mpr he), fun hin => ?_⟩
    · rw [← inTable_life, stranded.inTable_iff made]
      simp only [mem_ends_life]
    · rw [← inTable_life]
      simpa [run, life_step, Life.next] using stranded.inTable_look (inTable_life.mpr hin)

/-- `a` waits for its reply when the reader stops, and learns that none comes; `b` is made then, and
waits until its time has run out. -/
theorem requests_after_stop_apart :
    let a : RequestId := ⟨"a"⟩
    let b : RequestId := ⟨"b"⟩
    let early : List ConnectionStep := [.register a, .act a .sent]
    let late : List ConnectionStep :=
      [.register b, .act a .look, .act b .sent, .act b .elapse, .act b .leave]
    let c := run { } (early ++ .stop :: late)
    .stop ∉ early ∧ (registered (early ++ .stop :: late)).Nodup ∧
      (a ∉ c.table ∧ ∃ e, (a, e) ∈ (c.run [.act a .sent, .act a .look, .act a .leave]).ended) ∧
      (b ∈ c.table ↔ ∀ e, (b, e) ∉ c.ended) ∧ c.ended = [(a, .exited), (b, .elapsed)] := by
  intro a b early late c
  have first : .stop ∉ early := by decide +kernel
  have distinct : (registered (early ++ .stop :: late)).Nodup := by decide +kernel
  obtain ⟨before, -, after⟩ := requests_after_stop first distinct
  exact ⟨first, distinct, before a (by decide +kernel), (after b (by decide +kernel)).1,
    by decide +kernel⟩

/-- A request that is made when the reader has stopped does not fail: it is in the reply table, and it
still is after it has been sent and has looked for its reply. -/
theorem request_after_stop_waits :
    let r : RequestId := ⟨"r"⟩
    let c := run { } [.stop, .register r, .act r .sent, .act r .look]
    c.stopped = true ∧ r ∈ c.table ∧ c.ended = [] := by
  decide +kernel

end Connection
end NotebookKernels
