import NotebookKernels.Proofs.Pool.Views

/- What one step inside an operation of the pool can be.

   `Advance t p s p' m` says that task `t`, standing at stage `s` of an operation on pool `p`, may go on
   to pool `p'` with move `m`: by its own step, or because a call to a worker ended. There is one rule
   for every such step, with the guard under which it is taken; `advance_of_step` and
   `advance_of_answer` say that there are no others. `Opening` does the same for the first step of a
   call. Later proofs go through these rules and never open the step functions again. -/
namespace NotebookKernels

namespace Errand

/-- The entry that a create has launched and not inserted yet. -/
def newborn? : Errand → Option Nat
  | .room i _ => some i
  | _ => none

/-- What an errand comes to, once it has looked at all its entries. -/
def outcome (p : Pool) (found : List Nat) : Errand → Outcome
  | .room .. | .shutdown _ | .shutdownAll => .done
  | .pruneDead => .removed (found.map p.idOf)
  | .removeIfDead _ => .flag (!found.isEmpty)
  | .giveUp _ f => .failed f

end Errand

namespace Pool

/-- The steps of task `t` inside an operation on the pool `p`. -/
inductive Advance (t : TaskId) (p : Pool) : Stage → Pool → Move → Prop
  /-- It gets the structure lock. -/
  | enter (e : Errand) (held : p.structureLock.heldBy t = true) :
      Advance t p (.structure e) p (.wait (.sweep e (p.agenda e) []))
  /-- It passes over an entry that is alive. -/
  | spare (e : Errand) (i : Nat) (todo found : List Nat) (only : onlyDead e = true)
      (alive : p.isDead i = false) :
      Advance t p (.sweep e (i :: todo) found) p (.wait (.sweep e todo found))
  /-- It comes to an entry that is gone already. -/
  | gone (e : Errand) (i : Nat) (todo found : List Nat) (may : onlyDead e = true → p.isDead i = true)
      (absent : i ∉ p.tracked) :
      Advance t p (.sweep e (i :: todo) found) p (.wait (.sweep e todo (found ++ [i])))
  /-- It removes an entry that is starting, and leaves the worker to the task that starts it. -/
  | forget (e : Errand) (i : Nat) (todo found : List Nat)
      (may : onlyDead e = true → p.isDead i = true) (there : i ∈ p.tracked)
      (starting : p.status? i = some .starting) :
      Advance t p (.sweep e (i :: todo) found) (p.untrack i) (.wait (.sweep e todo (found ++ [i])))
  /-- It removes an entry and asks for its worker. -/
  | close (e : Errand) (i : Nat) (todo found : List Nat)
      (may : onlyDead e = true → p.isDead i = true) (there : i ∈ p.tracked)
      (settled : p.status? i ≠ some .starting) :
      Advance t p (.sweep e (i :: todo) found) ((p.untrack i).requestWorker t i)
        (.wait (.closing e i todo (found ++ [i])))
  /-- It has room, and inserts its entry. -/
  | insert (i ticket : Nat) (found : List Nat) (room : p.size < p.capacity) :
      Advance t p (.sweep (.room i ticket) [] found) (((p.insert i).releaseStructure).call i .start)
        (.wait (.starting i))
  /-- It removes the least recently active entry and asks for its worker. -/
  | evict (i ticket v : Nat) (found : List Nat) (full : p.capacity ≤ p.size)
      (victim : p.evictee? = some v) :
      Advance t p (.sweep (.room i ticket) [] found) ((p.untrack v).requestWorker t v)
        (.wait (.closing (.room i ticket) v [] found))
  /-- It finds no room. -/
  | park (i ticket : Nat) (found : List Nat) (full : p.capacity ≤ p.size)
      (victim : p.evictee? = none) :
      Advance t p (.sweep (.room i ticket) [] found) p.releaseStructure (.wait (.parked i ticket))
  /-- It is woken and asks for the structure lock again. -/
  | unpark (i ticket : Nat) (woken : ticket < p.settled) :
      Advance t p (.parked i ticket) (p.requestStructure t) (.wait (.structure (.room i p.settled)))
  /-- It is through with its errand. -/
  | conclude (e : Errand) (found : List Nat) (grown : e.newborn? = none)
      (normal : ∀ id f, e ≠ .giveUp id f) :
      Advance t p (.sweep e [] found) p.releaseStructure (.finish (e.outcome p found))
  /-- It is through with removing a kernel whose restart failed. -/
  | giveUp (id : KernelId) (f : Failure) (found : List Nat) :
      Advance t p (.sweep (.giveUp id f) [] found) p.releaseStructure.wake (.finish (.failed f))
  /-- It has the worker of an entry that it removed. -/
  | stop (e : Errand) (i : Nat) (todo found : List Nat) (held : p.holdsWorker t i = true) :
      Advance t p (.closing e i todo found) (p.call i .shutdown) (.wait (.stopping e i todo found))
  /-- That worker is down. -/
  | stopped (e : Errand) (i : Nat) (todo found : List Nat) :
      Advance t p (.stopping e i todo found) (p.releaseWorker i).wake (.wait (.sweep e todo found))
  /-- It has the worker that it wants to interrupt. -/
  | interrupt (i : Nat) (held : p.holdsWorker t i = true) :
      Advance t p (.interruptLock i) (p.call i .interrupt) (.wait (.interrupting i))
  | interrupted (i : Nat) :
      Advance t p (.interrupting i) ((p.releaseWorker i).setStatus i .idle) (.finish .done)
  | interruptFailed (i : Nat) (f : Failure) :
      Advance t p (.interrupting i) (p.releaseWorker i) (.finish (.failed f))
  /-- It has the worker that it wants to restart. -/
  | restart (i : Nat) (held : p.holdsWorker t i = true) :
      Advance t p (.restartLock i) (p.call i .restart) (.wait (.restarting i))
  | restarted (i : Nat) :
      Advance t p (.restarting i) (p.call i .waitReady) (.wait (.restartReadying i))
  /-- The restarted worker is ready. -/
  | back (i : Nat) :
      Advance t p (.restartReadying i)
        ((p.releaseWorker i).touch i ({ · with status := .idle, executionCount := 0 })).wake
        (.finish (((p.releaseWorker i).changed? i
          ({ · with status := .idle, executionCount := 0 })).elim .done .kernel))
  /-- The worker did not come back, and its kernel is to be removed. -/
  | restartFailed (s : Stage) (i : Nat) (why : String)
      (was : s = .restarting i ∨ s = .restartReadying i) :
      Advance t p s ((p.releaseWorker i).requestStructure t)
        (.wait (.structure (.giveUp (p.idOf i) (.start why))))
  /-- It has waited out a start or restart, and asks for the slot. -/
  | queue (i : Nat) (held : p.holdsWorker t i = true) :
      Advance t p (.acquireLock i) ((p.releaseWorker i).requestSlot t i) (.wait (.acquireSlot i))
  /-- It gets the slot of a kernel that is still tracked. -/
  | grant (i : Nat) (held : p.holdsSlot t i = true) (there : i ∈ p.tracked) :
      Advance t p (.acquireSlot i) (p.setStatus i .busy) (.finish (.slot i))
  /-- It gets the slot of a kernel that is gone, and gives it up. -/
  | refuse (i : Nat) (held : p.holdsSlot t i = true) (absent : i ∉ p.tracked) :
      Advance t p (.acquireSlot i) (p.releaseSlot i)
        (.finish (.failed (.kernelNotFound (p.idOf i))))
  /-- It asks for a dead worker. -/
  | reap (i : Nat) : Advance t p (.reap i) (p.requestWorker t i) (.wait (.reapLock i))
  | reapStop (i : Nat) (held : p.holdsWorker t i = true) :
      Advance t p (.reapLock i) (p.call i .shutdown) (.wait (.reaping i))
  | reaped (i : Nat) : Advance t p (.reaping i) (p.releaseWorker i) (.finish .done)
  /-- The worker of a new kernel has started. -/
  | started (i : Nat) : Advance t p (.starting i) (p.call i .waitReady) (.wait (.readying i))
  /-- The worker of a new kernel is ready. -/
  | up (i : Nat) (there : i ∈ p.tracked) :
      Advance t p (.readying i) ((p.setStatus i .idle).wake.releaseWorker i)
        (.finish ((p.changed? i ({ · with status := .idle })).elim .done .kernel))
  /-- It is ready, but its kernel was removed meanwhile. -/
  | late (i : Nat) (absent : i ∉ p.tracked) :
      Advance t p (.readying i) (p.call i .shutdown)
        (.wait (.abandoning i (.shutDownWhileStarting (p.idOf i))))
  /-- The worker of a new kernel did not come up. -/
  | abandon (s : Stage) (i : Nat) (why : String) (was : s = .starting i ∨ s = .readying i) :
      Advance t p s ((p.untrack i).call i .shutdown) (.wait (.abandoning i (.start why)))
  | abandoned (i : Nat) (f : Failure) :
      Advance t p (.abandoning i f) ((p.untrack i).wake.releaseWorker i) (.finish (.failed f))

end Pool

theorem Failure.exists_asStart (f : Failure) : ∃ why, f.asStart = .start why := by
  cases f <;> exact ⟨_, rfl⟩

namespace Pool

variable {p p' : Pool} {t : TaskId} {s : Stage} {m : Move}

theorem isTracked_iff {i : Nat} : p.isTracked i = true ↔ i ∈ p.tracked := by simp [isTracked]

theorem isStarting_iff {i : Nat} :
    (p.record? i).any (·.status = .starting) = true ↔ p.status? i = some .starting := by
  unfold record? status?
  cases p.entry? i <;> simp

theorem advance_of_sweepNext {e : Errand} {i : Nat} {todo found : List Nat}
    (h : p.sweepNext t e i todo found = (p', m)) :
    Advance t p (.sweep e (i :: todo) found) p' m := by
  unfold sweepNext at h
  split at h
  · next hspare =>
    simp only [Bool.and_eq_true, Bool.not_eq_true'] at hspare
    obtain ⟨rfl, rfl⟩ := Prod.mk.inj h
    exact .spare e i todo found hspare.1 hspare.2
  · next hmay =>
    have may : onlyDead e = true → p.isDead i = true := by
      intro ho
      simpa [ho] using hmay
    dsimp only at h
    split at h
    · next habsent =>
      obtain ⟨rfl, rfl⟩ := Prod.mk.inj h
      exact .gone e i todo found may (by simpa [isTracked] using habsent)
    · next hthere =>
      have there : i ∈ p.tracked := by simpa [isTracked] using hthere
      split at h
      · next hs =>
        obtain ⟨rfl, rfl⟩ := Prod.mk.inj h
        exact .forget e i todo found may there (isStarting_iff.mp hs)
      · next hs =>
        obtain ⟨rfl, rfl⟩ := Prod.mk.inj h
        exact .close e i todo found may there fun hc => hs (isStarting_iff.mpr hc)

theorem advance_of_conclude {e : Errand} {found : List Nat} (h : p.conclude t found e = (p', m)) :
    Advance t p (.sweep e [] found) p' m := by
  cases e with
  | room i ticket =>
    simp only [conclude] at h
    split at h
    · next hroom =>
      obtain ⟨rfl, rfl⟩ := Prod.mk.inj h
      exact .insert i ticket found hroom
    · next hfull =>
      split at h
      · next v hv =>
        obtain ⟨rfl, rfl⟩ := Prod.mk.inj h
        exact .evict i ticket v found (Nat.le_of_not_lt hfull) hv
      · next hv =>
        obtain ⟨rfl, rfl⟩ := Prod.mk.inj h
        exact .park i ticket found (Nat.le_of_not_lt hfull) hv
  | giveUp id f =>
    obtain ⟨rfl, rfl⟩ := Prod.mk.inj h
    exact .giveUp id f found
  | shutdown id =>
    obtain ⟨rfl, rfl⟩ := Prod.mk.inj h
    exact .conclude (.shutdown id) found rfl (by simp)
  | shutdownAll =>
    obtain ⟨rfl, rfl⟩ := Prod.mk.inj h
    exact .conclude .shutdownAll found rfl (by simp)
  | pruneDead =>
    obtain ⟨rfl, rfl⟩ := Prod.mk.inj h
    exact .conclude .pruneDead found rfl (by simp)
  | removeIfDead id =>
    obtain ⟨rfl, rfl⟩ := Prod.mk.inj h
    exact .conclude (.removeIfDead id) found rfl (by simp)

/-- A step that the task takes as soon as it may. -/
theorem advance_of_guarded {g : Prop} [Decidable g] {next : Pool × Move}
    (h : (if g then some next else none) = some (p', m))
    (adv : g → Advance t p s next.1 next.2) : Advance t p s p' m := by
  obtain ⟨held, h⟩ := Option.ite_none_right_eq_some.mp h
  obtain rfl := Option.some.inj h
  exact adv held

/-- A task takes no other step of its own. -/
theorem advance_of_step (h : p.step t s = some (p', m)) : Advance t p s p' m := by
  cases s with
  | «structure» e =>
    exact advance_of_guarded h (.enter e)
  | sweep e todo found =>
    cases todo with
    | nil => exact advance_of_conclude (Option.some.inj h)
    | cons i todo => exact advance_of_sweepNext (Option.some.inj h)
  | closing e i todo found =>
    exact advance_of_guarded h (.stop e i todo found)
  | parked i ticket =>
    exact advance_of_guarded h (.unpark i ticket)
  | interruptLock i =>
    exact advance_of_guarded h (.interrupt i)
  | restartLock i =>
    exact advance_of_guarded h (.restart i)
  | acquireLock i =>
    exact advance_of_guarded h (.queue i)
  | acquireSlot i =>
    obtain ⟨held, h⟩ := Option.ite_none_right_eq_some.mp h
    split at h
    · next there =>
      obtain ⟨rfl, rfl⟩ := Prod.mk.inj (Option.some.inj h)
      exact .grant i held (isTracked_iff.mp there)
    · next absent =>
      obtain ⟨rfl, rfl⟩ := Prod.mk.inj (Option.some.inj h)
      exact .refuse i held fun hc => absent (isTracked_iff.mpr hc)
  | reap i =>
    obtain ⟨rfl, rfl⟩ := Prod.mk.inj (Option.some.inj h)
    exact .reap i
  | reapLock i =>
    exact advance_of_guarded h (.reapStop i)
  | stopping | starting | readying | abandoning | interrupting | restarting | restartReadying
  | reaping => simp [step] at h

theorem advance_of_abandon {i : Nat} {f : Failure} (was : s = .starting i ∨ s = .readying i)
    (why : ∃ w, f = .start w) (h : p.abandon i f = (p', m)) : Advance t p s p' m := by
  obtain ⟨w, rfl⟩ := why
  obtain ⟨rfl, rfl⟩ := Prod.mk.inj h
  exact .abandon s i w was

theorem advance_of_failRestart {i : Nat} {f : Failure}
    (was : s = .restarting i ∨ s = .restartReadying i) (why : ∃ w, f = .start w)
    (h : p.failRestart t i f = (p', m)) : Advance t p s p' m := by
  obtain ⟨w, rfl⟩ := why
  obtain ⟨rfl, rfl⟩ := Prod.mk.inj h
  exact .restartFailed s i w was

/-- Nothing else follows when a call to a worker ends. -/
theorem advance_of_answer {a : Answer} (h : p.answer t s a = some (p', m)) :
    Advance t p s p' m := by
  cases s with
  | stopping e i todo found =>
    obtain ⟨rfl, rfl⟩ := Prod.mk.inj (Option.some.inj h)
    exact .stopped e i todo found
  | starting i =>
    cases a with
    | ok =>
      obtain ⟨rfl, rfl⟩ := Prod.mk.inj (Option.some.inj h)
      exact .started i
    | failed f => exact advance_of_abandon (.inl rfl) f.exists_asStart (Option.some.inj h)
    | elapsed => simp [answer] at h
  | readying i =>
    cases a with
    | ok =>
      simp only [answer, comeUp, Option.some.injEq] at h
      split at h
      · next there =>
        obtain ⟨rfl, rfl⟩ := Prod.mk.inj h
        exact .up i (isTracked_iff.mp there)
      · next absent =>
        obtain ⟨rfl, rfl⟩ := Prod.mk.inj h
        exact .late i fun hc => absent (isTracked_iff.mpr hc)
    | failed f => exact advance_of_abandon (.inr rfl) f.exists_asStart (Option.some.inj h)
    | elapsed => exact advance_of_abandon (.inr rfl) ⟨_, rfl⟩ (Option.some.inj h)
  | abandoning i f =>
    obtain ⟨rfl, rfl⟩ := Prod.mk.inj (Option.some.inj h)
    exact .abandoned i f
  | interrupting i =>
    cases a with
    | ok =>
      obtain ⟨rfl, rfl⟩ := Prod.mk.inj (Option.some.inj h)
      exact .interrupted i
    | failed f =>
      obtain ⟨rfl, rfl⟩ := Prod.mk.inj (Option.some.inj h)
      exact .interruptFailed i f
    | elapsed => simp [answer] at h
  | restarting i =>
    cases a with
    | ok =>
      obtain ⟨rfl, rfl⟩ := Prod.mk.inj (Option.some.inj h)
      exact .restarted i
    | failed f => exact advance_of_failRestart (.inl rfl) f.exists_asStart (Option.some.inj h)
    | elapsed => simp [answer] at h
  | restartReadying i =>
    cases a with
    | ok =>
      obtain ⟨rfl, rfl⟩ := Prod.mk.inj (Option.some.inj h)
      exact .back i
    | failed f => exact advance_of_failRestart (.inr rfl) f.exists_asStart (Option.some.inj h)
    | elapsed => exact advance_of_failRestart (.inr rfl) ⟨_, rfl⟩ (Option.some.inj h)
  | reaping i =>
    obtain ⟨rfl, rfl⟩ := Prod.mk.inj (Option.some.inj h)
    exact .reaped i
  | «structure» | sweep | closing | parked | interruptLock | restartLock | acquireLock
  | acquireSlot | reap | reapLock => simp [answer] at h

/-! ## First steps -/

/-- The first steps of the calls of task `t` on the pool `p`: the pool after it, the dead entries to
tear down, and the move. -/
inductive Opening (t : TaskId) (p : Pool) : PoolCall → Pool → List Nat → Move → Prop
  /-- It ends at once, with no slot. -/
  | finish (c : PoolCall) (o : Outcome) (plain : ∀ i, o ≠ .slot i) : Opening t p c p [] (.finish o)
  /-- It comes to dead entries, forgets them, and ends with no slot. -/
  | discard (c : PoolCall) (dead : List Nat) (o : Outcome)
      (found : ∀ i ∈ dead, i ∈ p.tracked ∧ p.isDead i = true) (plain : ∀ i, o ≠ .slot i) :
      Opening t p c (p.discard dead) dead (.finish o)
  /-- A worker was launched: its entry is there, and is to be inserted. -/
  | create (request : KernelCreate) (name : String) (inspector : Option Inspector) :
      Opening t p (.create request none)
        (((p.launch name request.notebook inspector).requestWorker t p.entries.length).requestStructure
          t) []
        (.wait (.structure (.room p.entries.length p.settled)))
  | update (id : KernelId) (status : KernelStatus) (i : Nat) (there : p.find? id = some i) :
      Opening t p (.updateStatus id status) (p.setStatus i status) [] (.finish .done)
  | interrupt (id : KernelId) (i : Nat) (there : p.find? id = some i) (alive : p.isDead i = false) :
      Opening t p (.interrupt id) (p.requestWorker t i) [] (.wait (.interruptLock i))
  | acquire (id : KernelId) (i : Nat) (there : p.find? id = some i) (alive : p.isDead i = false) :
      Opening t p (.acquire id) (p.requestWorker t i) [] (.wait (.acquireLock i))
  | restart (id : KernelId) (i : Nat) (there : p.find? id = some i) (alive : p.isDead i = false) :
      Opening t p (.restart id) ((p.setStatus i .restarting).requestWorker t i) []
        (.wait (.restartLock i))
  /-- It goes on an errand, which is neither for room nor after a restart. -/
  | errand (c : PoolCall) (e : Errand) (grown : e.newborn? = none)
      (normal : ∀ id f, e ≠ .giveUp id f) :
      Opening t p c (p.requestStructure t) [] (.wait (.structure e))

variable {c : PoolCall} {catalog : Catalog}

theorem opening_of_withLive {id : KernelId} {k : Nat → Pool × Move}
    (alive : ∀ i, p.find? id = some i → p.isDead i = false → Opening t p c (k i).1 [] (k i).2) :
    Opening t p c (p.withLive id k).pool (p.withLive id k).dead (p.withLive id k).move := by
  unfold withLive
  split
  · exact .finish c _ (by simp)
  · next i hi =>
    split
    · next hd =>
      refine .discard c [i] _ ?_ (by simp)
      intro j hj
      obtain rfl := List.mem_singleton.mp hj
      exact ⟨(find?_eq_some hi).1, hd⟩
    · next hd => exact alive i hi (by simpa using hd)

/-- A call begins in no other way. -/
theorem opening_of_start :
    Opening t p c (p.start catalog t c).pool (p.start catalog t c).dead
      (p.start catalog t c).move := by
  cases c with
  | create request refusal =>
    simp only [start]
    split
    · exact .finish _ _ (by simp)
    · exact .finish _ _ (by simp)
    · exact .create request _ _
  | get id =>
    refine opening_of_withLive fun i _ _ => .finish _ _ ?_
    cases p.record? i <;> simp
  | list =>
    refine .discard .list _ _ ?_ (by simp)
    intro i hi
    exact List.mem_filter.mp hi
  | updateStatus id status =>
    simp only [start]
    cases hi : p.find? id with
    | none => exact .finish _ _ (by simp)
    | some i => exact .update id status i hi
  | interrupt id => exact opening_of_withLive fun i hi ha => .interrupt id i hi ha
  | restart id => exact opening_of_withLive fun i hi ha => .restart id i hi ha
  | channel id => exact opening_of_withLive fun i _ _ => .finish _ _ (by simp)
  | acquire id => exact opening_of_withLive fun i hi ha => .acquire id i hi ha
  | shutdown id => exact .errand _ (.shutdown id) rfl (by simp)
  | shutdownAll => exact .errand _ .shutdownAll rfl (by simp)
  | pruneDead => exact .errand _ .pruneDead rfl (by simp)
  | removeIfDead id => exact .errand _ (.removeIfDead id) rfl (by simp)

end Pool
end NotebookKernels
