import Mathlib.Data.List.Nodup
import Mathlib.Logic.Function.Basic
import NotebookKernels.Simulation.Host

/- The child of a worker and the connection that is attached.

   1. The two have the same number, or there is neither; no child that was asked to shut down is still
      held (`WorkerProcess.Coupled`). To make a child and to give it up keep this, and nothing else
      changes a worker, so it holds after every call (`attached_with_child`).
   2. A host takes the steps of its workers one by one, for a restart waits until the old child has gone.
      What a call makes of the worker when it begins is `Host.begun`, and a new child comes when the old
      one has gone (`Host.process_call`, `Host.process_fire`). So the workers of a host are coupled at
      all times, also in the middle of a call (`Host.coupled_of_reached`). -/
namespace NotebookKernels

namespace WorkerProcess

variable {w : WorkerProcess} {s : WorkerStep}

/-- Child and connection belong together, and the children that were asked to shut down are past. -/
structure Coupled (w : WorkerProcess) : Prop where
  together : w.attached = w.child
  made : ∀ n, w.child = some n → n < w.spawned
  past : ∀ n ∈ w.asked, n < w.spawned ∧ w.child ≠ some n
  once : w.asked.Nodup

theorem Coupled.init : Coupled { } := ⟨rfl, by simp, by simp, List.nodup_nil⟩

theorem Coupled.spawn (h : w.Coupled) (made : Except Failure Unit) : (w.spawn made).1.Coupled := by
  cases made with
  | error f => exact h
  | ok =>
    refine ⟨rfl, ?_, ?_, h.once⟩
    · rintro n ⟨⟩
      exact Nat.lt_succ_self _
    · intro n hn
      have hlt := (h.past n hn).1
      refine ⟨Nat.lt_succ_of_lt hlt, ?_⟩
      rintro ⟨⟩
      exact Nat.lt_irrefl _ hlt

theorem Coupled.stop (h : w.Coupled) : w.stop.Coupled := by
  unfold WorkerProcess.stop
  cases hchild : w.child with
  | none => exact ⟨rfl, by simp, fun n hn => ⟨(h.past n hn).1, by simp⟩, h.once⟩
  | some c =>
    -- the request goes to the child itself, which was not asked before
    have hattached : w.attached = some c := h.together.trans hchild
    rw [hattached]
    refine ⟨rfl, by simp, fun n hn => ⟨?_, by simp⟩, ?_⟩
    · rcases List.mem_append.mp hn with hn | hn
      · exact (h.past n hn).1
      · exact h.made n (by simpa [eq_comm, hchild] using hn)
    · refine List.nodup_append.mpr ⟨h.once, List.nodup_singleton c, ?_⟩
      rintro n hn m hm rfl
      exact (h.past n hn).2 (by simpa [eq_comm, hchild] using hm)

theorem Coupled.step (h : w.Coupled) (s : WorkerStep) : (w.step s).1.Coupled := by
  cases s with
  | start view made =>
    show (if w.isAlive view then (w, .ok ()) else w.spawn made).1.Coupled
    split
    · exact h
    · exact h.spawn made
  | restart made => exact h.stop.spawn made
  | shutdown => exact h.stop
  | waitReady | interrupt | isAlive => exact h

theorem Coupled.run (h : w.Coupled) (steps : List WorkerStep) : (w.run steps).Coupled := by
  induction steps generalizing w with
  | nil => exact h
  | cons s steps ih => exact ih (h.step s)

theorem stop_of_child_eq_none (h : w.Coupled) (hchild : w.child = none) : w.stop = w := by
  have hattached : w.attached = none := h.together.trans hchild
  obtain ⟨child, attached, spawned, asked⟩ := w
  obtain rfl : child = none := hchild
  obtain rfl : attached = none := hattached
  rfl

theorem stop_leaves_neither (w : WorkerProcess) : w.stop.child = none ∧ w.stop.attached = none := by
  unfold stop
  split
  · next hchild => exact ⟨hchild, rfl⟩
  · exact ⟨rfl, rfl⟩

/-- Whatever calls a worker has had, and whatever the system did about them: the connection that is
attached is the one to the child, and there is none without a child; no child is asked to shut down
twice, and one that was asked is not held any more. A restart without a new child, and a shutdown, leave
neither; a restart with a new child, and a start of a worker that is not alive, leave both. A start of a
worker that is alive and a shutdown of one without a child change nothing, nor do the other calls. -/
theorem attached_with_child (steps : List WorkerStep) :
    let w := run { } steps
    w.attached = w.child ∧
    w.asked.Nodup ∧ (∀ n ∈ w.asked, n < w.spawned ∧ w.child ≠ some n) ∧
    (∀ f, (w.step (.restart (.error f))).1.child = none ∧
      (w.step (.restart (.error f))).1.attached = none) ∧
    ((w.step .shutdown).1.child = none ∧ (w.step .shutdown).1.attached = none) ∧
    ((w.step (.restart (.ok ()))).1.child = some w.spawned ∧
      (w.step (.restart (.ok ()))).1.attached = some w.spawned) ∧
    (∀ view, w.isAlive view = false →
      (w.step (.start view (.ok ()))).1.child = some w.spawned ∧
      (w.step (.start view (.ok ()))).1.attached = some w.spawned) ∧
    (∀ view made, w.isAlive view = true → (w.step (.start view made)).1 = w) ∧
    (w.child = none → (w.step .shutdown).1 = w) ∧
    (∀ ended, (w.step (.waitReady ended)).1 = w) ∧
    (∀ view sent, (w.step (.interrupt view sent)).1 = w) ∧
    ∀ view, (w.step (.isAlive view)).1 = w := by
  intro w
  have coupled : w.Coupled := Coupled.init.run steps
  have hspawned : w.stop.spawned = w.spawned := by
    unfold stop
    split <;> rfl
  refine ⟨coupled.together, coupled.once, coupled.past, fun f => w.stop_leaves_neither,
    w.stop_leaves_neither, ?_, ?_, ?_, stop_of_child_eq_none coupled, fun _ => rfl, fun _ _ => rfl,
    fun _ => rfl⟩
  · exact ⟨congrArg some hspawned, congrArg some hspawned⟩
  · intro view hdead
    simp [step, start, hdead, spawn]
  · intro view made halive
    simp [step, start, halive]

/-- A child runs on with its output closed: it is replaced without having been asked to shut down. The
next one is, and no other is made in its place. -/
theorem attached_with_child_closing :
    let closed : ChildView := ⟨fun _ => true, fun _ => false, fun _ => false⟩
    let steps : List WorkerStep := [.start closed (.ok ()), .interrupt closed (.ok ()),
      .start closed (.ok ()), .restart (.error (.start "no more"))]
    let w := run { } steps
    w.attached = w.child ∧ w.asked.Nodup ∧ (w.step .shutdown).1 = w ∧
      w = { spawned := 2, asked := [1] } := by
  intro closed steps w
  obtain ⟨together, once, -, -, -, -, -, -, stopped, -⟩ := attached_with_child steps
  exact ⟨together, once, stopped rfl, rfl⟩

end WorkerProcess

namespace Host

variable {h h' : Host} {i j : Nat} {c : ChildId} {p : WorkerProcess}

/-! ## What leaves the workers alone -/

theorem process_of_workers (hw : h'.workers = h.workers) (i : Nat) : h'.process i = h.process i := by
  unfold process
  rw [hw]

theorem workers_modifyChild (h : Host) (c : ChildId) (f : Child → Child) :
    (h.modifyChild c f).workers = h.workers := by
  unfold modifyChild
  split <;> rfl

theorem workers_connect (h : Host) (c : ChildId) (steps : List ConnectionStep) :
    (h.connect c steps).1.workers = h.workers := by
  unfold connect
  split <;> rfl

theorem workers_exit (h : Host) (c : ChildId) : (h.exit c).1.workers = h.workers := by
  unfold exit
  split
  · exact (workers_connect ..).trans (workers_modifyChild ..)
  · rfl

theorem workers_write (h : Host) (c : ChildId) (bytes : Text.Bytes) :
    (h.write c bytes).1.workers = h.workers := by
  unfold write
  split
  · rfl
  · split
    · rfl
    · split
      · exact (workers_connect ..).trans (workers_modifyChild ..)
      · exact workers_exit ..

theorem workers_andThen {d : Doing} {f : Host → Doing} (hd : d.1.workers = h.workers)
    (hf : ∀ h', (f h').1.workers = h'.workers) : (d.andThen f).1.workers = h.workers :=
  (hf d.1).trans hd

theorem workers_halt (h : Host) (c : ChildId) (b : Burst) : (h.halt c b).1.workers = h.workers := by
  refine workers_andThen ((workers_write ..).trans (workers_modifyChild ..)) fun d => ?_
  cases b.halt with
  | done | waiting => rfl
  | exited => exact workers_exit ..
  | sleeping duration => exact workers_modifyChild ..

theorem workers_run (h : Host) (c : ChildId) (child : Child) :
    (h.run c child).1.workers = h.workers := by
  unfold run
  split
  · exact workers_halt ..
  · exact workers_halt ..
  · exact workers_exit ..
  · rfl

theorem workers_fireChild (h : Host) (c : ChildId) (child : Child) (token : HostToken) :
    (h.fireChild c child token).1.workers = h.workers := by
  cases token with
  | run => exact workers_run ..
  | wake c n =>
    simp only [fireChild]
    split
    · split
      · exact workers_halt ..
      · rfl
    · rfl
  | interrupt =>
    simp only [fireChild]
    split
    · exact workers_halt ..
    · exact workers_exit ..
  | kill => exact workers_exit ..
  | elapse | gone => rfl

theorem workers_send (h : Host) (c : ChildId) (r : WireRequest) :
    (h.send c r).1.workers = h.workers := by
  unfold send
  split
  · rfl
  · rfl
  · split
    · exact workers_modifyChild ..
    · exact workers_modifyChild ..

theorem workers_submit (h : Host) (k : Ticket) (i : Nat) (code : Code) :
    (h.submit k i code).1.workers = h.workers := by
  unfold submit
  split
  · rfl
  · dsimp only
    generalize hsend : send _ _ _ = sent
    have hsent : sent.1.workers = h.workers := hsend ▸ workers_send ..
    obtain ⟨d, refusal⟩ := sent
    cases refusal with
    | some f => exact hsent
    | none => exact hsent

theorem workers_ask (h : Host) (i : Nat) (request : ShellRequest) (q : Pending) :
    (h.ask i request q).1.workers = h.workers := by
  unfold ask
  split
  · rfl
  · dsimp only
    generalize hsend : send _ _ _ = sent
    have hsent : sent.1.workers = h.workers := hsend ▸ workers_send ..
    obtain ⟨d, refusal⟩ := sent
    cases refusal with
    | some f => exact (workers_connect ..).trans hsent
    | none =>
      refine workers_andThen ((workers_connect ..).trans hsent) fun d => ?_
      split <;> rfl

theorem workers_poll (h : Host) (i : Nat) : (h.poll i).2.workers = h.workers := by
  unfold poll
  split
  · exact workers_modifyChild ..
  · rfl

/-! ## What changes a worker -/

open Function (update)

theorem process_setProcess (h : Host) (i : Nat) (p : WorkerProcess) (hi : i < h.workers.length) :
    (h.setProcess i p).process = update h.process i p := by
  funext j
  unfold process setProcess
  rw [List.getElem?_modify]
  by_cases hj : i = j
  · subst hj
    simp [hi]
  · rw [Function.update_of_ne (Ne.symm hj)]
    simp [hj]

/-- How it goes to make a child for a worker. -/
def made (h : Host) (i : Nat) : Except Failure Unit :=
  match h.workers[i]? with
  | none => .error .notRunning
  | some w => (h.files.spawn w.program h.workingDir h.directory).map fun _ => ()

theorem process_spawn (h : Host) (k : Ticket) (i : Nat) :
    (h.spawn k i).1.process = update h.process i ((h.process i).spawn (h.made i)).1 := by
  unfold spawn made
  cases hw : h.workers[i]? with
  | none => exact (Function.update_eq_self i h.process).symm
  | some w =>
    have hprocess : h.process i = w.process := by
      unfold process
      rw [hw]
      rfl
    cases hfiles : h.files.spawn w.program h.workingDir h.directory with
    | error f =>
      simp only [hfiles]
      exact (Function.update_eq_self i h.process).symm
    | ok r =>
      obtain ⟨hi, -⟩ := List.getElem?_eq_some_iff.mp hw
      simp only [hfiles, hprocess]
      exact process_setProcess _ i _ hi

/-- What a call has made of its worker when it has begun. A restart waits until the old child has gone,
if there is one. -/
def begun (h : Host) (i : Nat) : WorkerCall → WorkerProcess
  | .start => ((h.process i).start (h.isAlive i) (h.made i)).1
  | .restart =>
    if (h.process i).child = none then ((h.process i).restart (h.made i)).1 else (h.process i).stop
  | .shutdown => (h.process i).stop
  | .waitReady | .interrupt => h.process i

/-- There is nothing to give up of a worker that is not there. -/
theorem process_setProcess_stop (h : Host) (i : Nat) :
    (h.setProcess i (h.process i).stop).process = update h.process i (h.process i).stop := by
  by_cases hi : i < h.workers.length
  · exact process_setProcess h i _ hi
  · have hnone : h.workers[i]? = none := List.getElem?_eq_none (Nat.le_of_not_lt hi)
    have hprocess : (h.process i).stop = h.process i := by
      unfold process
      rw [hnone]
      rfl
    have hworkers : (h.setProcess i (h.process i).stop).workers = h.workers :=
      List.modify_eq_self (Nat.le_of_not_lt hi)
    rw [hprocess, Function.update_eq_self]
    rw [hprocess] at hworkers
    exact funext (process_of_workers hworkers)

theorem made_setProcess (h : Host) (i : Nat) (p : WorkerProcess) (j : Nat) :
    (h.setProcess i p).made j = h.made j := by
  unfold made setProcess
  dsimp only
  rw [List.getElem?_modify]
  cases h.workers[j]? with
  | none => rfl
  | some w => by_cases hj : i = j <;> simp [hj]

theorem process_stop (h : Host) (k : Ticket) (i : Nat) (again : Bool) :
    (h.stop k i again).1.process =
      update h.process i (h.begun i (if again then .restart else .shutdown)) := by
  have hstop := process_setProcess_stop h i
  unfold stop
  dsimp only
  generalize hd : h.setProcess i (h.process i).stop = d at hstop
  have hmade : d.made i = h.made i := hd ▸ made_setProcess ..
  cases hchild : (h.process i).child with
  | none =>
    cases again with
    | false => simpa [begun] using hstop
    | true =>
      have hspawn := process_spawn d k i
      rw [hstop, hmade, Function.update_self, Function.update_idem] at hspawn
      simpa [begun, hchild, WorkerProcess.restart] using hspawn
  | some n =>
    have hbegun : h.begun i (if again then .restart else .shutdown) = (h.process i).stop := by
      cases again <;> simp [begun, hchild]
    rw [hbegun, ← hstop]
    dsimp only
    generalize hsend : d.send (i, n) _ = sent
    have hsent : sent.1.workers = d.workers := hsend ▸ workers_send ..
    exact funext (process_of_workers ((workers_modifyChild ..).trans hsent))

theorem poll_leaves (h : Host) (i : Nat) :
    (h.poll i).2.process = h.process ∧ (h.poll i).2.made i = h.made i := by
  refine ⟨funext (process_of_workers (workers_poll h i)), ?_⟩
  unfold poll
  cases (h.process i).child with
  | none => rfl
  | some n =>
    dsimp only
    unfold modifyChild
    split <;> rfl

/-- What a call makes of the workers. -/
theorem process_call (h : Host) (k : Ticket) (i : Nat) (c : WorkerCall) (limit : Span) :
    (h.call k i c limit).1.process = update h.process i (h.begun i c) := by
  have same : update h.process i (h.process i) = h.process := Function.update_eq_self i h.process
  cases c with
  | start =>
    obtain ⟨hprocess, hmade⟩ := poll_leaves h i
    have hspawn := process_spawn (h.poll i).2 k i
    rw [hprocess, hmade] at hspawn
    have halive : (h.poll i).1 = h.isAlive i := rfl
    unfold call begun WorkerProcess.start
    generalize h.poll i = polled at hprocess hspawn halive
    obtain ⟨alive, d⟩ := polled
    obtain rfl : alive = h.isAlive i := halive
    cases h.isAlive i with
    | true => exact hprocess.trans same.symm
    | false => exact hspawn
  | waitReady =>
    unfold call begun
    rw [same]
    exact funext (process_of_workers (workers_ask ..))
  | interrupt =>
    unfold call begun
    rw [same]
    dsimp only
    split <;> rfl
  | restart => exact process_stop h k i true
  | shutdown => exact process_stop h k i false

/-- What is done when a token comes back makes a new child only when the old one has gone. -/
theorem process_fire (h : Host) (token : HostToken) :
    (h.fire token).1.process = h.process ∨
      ∃ c l, token = .gone c ∧ h.leaving.get? c = some l ∧ l.again = true ∧
        (h.fire token).1.process =
          update h.process c.1 ((h.process c.1).spawn (h.made c.1)).1 := by
  have keeps {d : Doing} (hd : d.1.workers = h.workers) : d.1.process = h.process :=
    funext (process_of_workers hd)
  cases token with
  | elapse c r => exact .inl (keeps (workers_connect ..))
  | gone c =>
    cases hl : h.leaving.get? c with
    | none => exact .inl (keeps (by simp only [fire, hl]))
    | some l =>
      cases hagain : l.again with
      | false => exact .inl (keeps (by simp [fire, hl, hagain]))
      | true =>
        refine .inr ⟨c, l, rfl, hl, hagain, ?_⟩
        have hfire : h.fire (.gone c) = { h with leaving := h.leaving.erase c }.spawn l.ticket c.1 := by
          simp [fire, hl, hagain]
        rw [hfire]
        exact process_spawn ..
  | run c | wake c n | interrupt c | kill c =>
    refine .inl (keeps ?_)
    unfold fire
    dsimp only
    split
    · rfl
    · split
      · rfl
      · exact workers_fireChild ..

/-- A worker that is launched has no child yet. -/
theorem process_launch (h : Host) (spec : KernelSpec) (i : Nat) :
    (h.launch spec).1.process i = h.process i ∨ (h.launch spec).1.process i = { } := by
  unfold launch
  split
  · exact .inl rfl
  · unfold process
    dsimp only
    rcases Nat.lt_trichotomy i h.workers.length with hi | rfl | hi
    · exact .inl (by rw [List.getElem?_append_left hi])
    · exact .inr (by rw [List.getElem?_concat_length]; rfl)
    · rw [List.getElem?_eq_none (by simpa using Nat.succ_le_of_lt hi)]
      exact .inr rfl

/-! ## All times -/

/-- A host as it may be, whatever was asked of it and whatever came back to it. -/
inductive Reached : Host → Prop where
  | empty {h : Host} (hnone : h.workers = []) : Reached h
  | launch {h : Host} (hr : Reached h) (spec : KernelSpec) : Reached (h.launch spec).1
  | call {h : Host} (hr : Reached h) (k : Ticket) (i : Nat) (c : WorkerCall) (limit : Span) :
    Reached (h.call k i c limit).1
  | submit {h : Host} (hr : Reached h) (k : Ticket) (i : Nat) (code : Code) :
    Reached (h.submit k i code).1
  | query {h : Host} (hr : Reached h) (k : Ticket) (i : Nat) (request : ShellRequest) (limit : Span) :
    Reached (h.query k i request limit).1
  | fire {h : Host} (hr : Reached h) (token : HostToken) : Reached (h.fire token).1

theorem coupled_begun (hp : (h.process i).Coupled) (c : WorkerCall) : (h.begun i c).Coupled := by
  cases c with
  | start =>
    show (if h.isAlive i then (h.process i, .ok ()) else (h.process i).spawn (h.made i)).1.Coupled
    split
    · exact hp
    · exact hp.spawn _
  | restart =>
    show (if (h.process i).child = none then ((h.process i).stop.spawn (h.made i)).1
      else (h.process i).stop).Coupled
    split
    · exact hp.stop.spawn _
    · exact hp.stop
  | shutdown => exact hp.stop
  | waitReady | interrupt => exact hp

theorem coupled_update (hp : ∀ i, (h.process i).Coupled) (hc : p.Coupled) (i j : Nat) :
    (update h.process i p j).Coupled := by
  by_cases hj : j = i
  · subst hj
    rwa [Function.update_self]
  · rw [Function.update_of_ne hj]
    exact hp j

theorem coupled_of_reached (hr : Reached h) (i : Nat) : (h.process i).Coupled := by
  induction hr generalizing i with
  | empty hnone =>
    unfold process
    rw [hnone]
    exact .init
  | @launch h hr spec ih =>
    rcases process_launch h spec i with hp | hp
    · exact hp ▸ ih i
    · exact hp ▸ .init
  | @call h hr k j c limit ih =>
    rw [process_call]
    exact coupled_update ih (coupled_begun (ih j) c) j i
  | submit hr k j code ih =>
    rw [process_of_workers (workers_submit ..)]
    exact ih i
  | query hr k j request limit ih =>
    rw [query, process_of_workers (workers_ask ..)]
    exact ih i
  | @fire h hr token ih =>
    obtain hp | ⟨c, -, -, -, -, hp⟩ := process_fire h token
    · exact hp ▸ ih i
    · rw [hp]
      exact coupled_update ih ((ih c.1).spawn _) c.1 i

end Host
end NotebookKernels
