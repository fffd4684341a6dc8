import NotebookKernels.Proofs.Pool.Calls
import NotebookKernels.Proofs.Pool.Recency

/- What an operation makes of the order of the tracked kernels.

   An operation that runs alone has settled, wherever it stands, what it will make of the order if it
   succeeds and what if it fails: this is `Stage.residue`. `Advance.residue` says that a step does a part
   of it and leaves the rest, so that the whole operation does what its first stage had settled.
   `PoolCall.reorder` is the same for a call, of the identifiers of the kernels and of those that are dead
   alone; `AtRest.leads` says that a call that begins while nothing else goes on settles this. -/
namespace NotebookKernels

open Recency

namespace Errand

/-- What is left of the order when the errand has looked at these entries too. -/
def spares (p : Pool) (e : Errand) (todo order : List Nat) : List Nat :=
  order.filter fun i => !(decide (i ∈ todo) && (!Pool.onlyDead e || p.isDead i))

/-- What the operation of the errand makes of the order that is left, if it succeeds or if not. -/
def settle (capacity : Nat) (ok : Bool) (rest : List Nat) : Errand → List Nat
  | .room n _ => if ok then makeRoom capacity rest ++ [n] else makeRoom capacity rest
  | _ => rest

/-- The order after the operation of an errand that has yet to look at these entries. -/
def residue (p : Pool) (e : Errand) (todo order : List Nat) (ok : Bool) : List Nat :=
  e.settle p.capacity ok (e.spares p todo order)

end Errand

namespace Stage

/-- The order after an operation that stands here. -/
def residue (p : Pool) (order : List Nat) (ok : Bool) : Stage → List Nat
  | .structure e => e.residue p (p.agenda e) order ok
  | .sweep e todo _ | .closing e _ todo _ | .stopping e _ todo _ => e.residue p todo order ok
  | .parked n ticket => (Errand.room n ticket).residue p p.tracked order ok
  | .starting i | .readying i | .restartLock i | .restarting i | .restartReadying i =>
    if ok then refresh i order else forget i order
  | .abandoning i _ => forget i order
  | .interruptLock i | .interrupting i | .acquireLock i | .acquireSlot i =>
    if ok then refresh i order else order
  | .reap _ | .reapLock _ | .reaping _ => order

/-- The operation has failed and has only to clear up. -/
def Hopeless : Stage → Prop
  | .structure e | .sweep e _ _ | .closing e _ _ _ | .stopping e _ _ _ => ∃ id, e.GivesUp id
  | .abandoning .. => True
  | _ => False

/-- The task is to shut down, or shuts down, the worker of an entry that is gone. -/
def Buries (i : Nat) : Stage → Prop
  | .closing _ j _ _ | .stopping _ j _ _ | .reap j | .reapLock j | .reaping j => j = i
  | _ => False

end Stage

/-- Did the operation succeed? -/
def Outcome.ok : Outcome → Bool
  | .failed _ => false
  | _ => true

namespace Move

/-- May an operation that makes this move end with this success or failure? -/
def Allows (ok : Bool) : Move → Prop
  | .wait s => s.Hopeless → ok = false
  | .finish o => ok = o.ok

/-- The order after an operation that makes this move. -/
def residue (p : Pool) (order : List Nat) (ok : Bool) : Move → List Nat
  | .wait s => s.residue p order ok
  | .finish _ => order

end Move

theorem Outcome.ok_ofRecord (k : Option Kernel) : (k.elim Outcome.done .kernel).ok = true := by
  cases k <;> rfl

namespace Errand

variable {p q : Pool} {e : Errand} {i : Nat} {todo order : List Nat} {ok : Bool}

theorem spares_nil : e.spares p [] order = order := by simp [spares]

theorem spares_congr (dead : ∀ i ∈ order, q.isDead i = p.isDead i) :
    e.spares q todo order = e.spares p todo order := by
  apply List.filter_congr
  intro i hi
  rw [dead i hi]

/-- One entry less to look at, which is not there or to be spared. -/
theorem spares_cons_of_spared (h : i ∈ order → Pool.onlyDead e = true ∧ p.isDead i = false) :
    e.spares p (i :: todo) order = e.spares p todo order := by
  apply List.filter_congr
  intro j hj
  by_cases hji : j = i
  · subst hji
    simp [h hj]
  · simp [hji]

/-- One entry less to look at, which is removed. -/
theorem spares_cons_of_removed (h : Pool.onlyDead e = true → p.isDead i = true) :
    e.spares p (i :: todo) order = e.spares p todo (forget i order) := by
  have hdoomed : (!Pool.onlyDead e || p.isDead i) = true := by
    cases ho : Pool.onlyDead e with
    | false => rfl
    | true => exact h ho
  rw [spares, spares, forget, List.filter_filter]
  apply List.filter_congr
  intro j _
  by_cases hji : j = i
  · subst hji
    simp [hdoomed]
  · simp [hji]

theorem residue_congr {rest : List Nat} {todo' : List Nat} (capacity : q.capacity = p.capacity)
    (h : e.spares q todo' rest = e.spares p todo order) :
    e.residue q todo' rest ok = e.residue p todo order ok := by
  rw [residue, residue, capacity, h]

end Errand

/-- The order after an operation depends on who is tracked, under which name, and dead. -/
theorem Stage.residue_congr {p q : Pool} {order : List Nat} {ok : Bool}
    (tracked : q.tracked = p.tracked) (named : ∀ i, q.id? i = p.id? i)
    (capacity : q.capacity = p.capacity) (dead : ∀ i ∈ order, q.isDead i = p.isDead i) (s : Stage) :
    s.residue q order ok = s.residue p order ok := by
  cases s with
  | «structure» e =>
    rw [residue, residue, Pool.agenda_congr tracked named]
    exact Errand.residue_congr capacity (Errand.spares_congr dead)
  | parked =>
    rw [residue, residue, tracked]
    exact Errand.residue_congr capacity (Errand.spares_congr dead)
  | sweep | closing | stopping => exact Errand.residue_congr capacity (Errand.spares_congr dead)
  | _ => rfl

namespace Pool

variable {p p' : Pool} {t : TaskId} {s : Stage} {m : Move} {i : Nat} {order : List Nat}

/-- What a task that runs alone may rely on while it stands at a stage. -/
structure Placed (p : Pool) (s : Stage) : Prop where
  ready : Ready p s
  has : ∀ i, .worker i ∈ s.locks → p.Has i
  named : ∀ i, p.Has i → p.id? i = some (.fresh i)
  buried : ∀ i, s.Buries i → i ∉ p.tracked
  fits : p.size ≤ p.capacity
  /-- Whoever looks for room does so when nobody starts or restarts a kernel. -/
  settled : ∀ e found, s = .sweep e [] found → ∀ i ∈ p.tracked, p.inTransition i = false

theorem capacity_pos (p : Pool) : 0 < p.capacity :=
  Nat.lt_of_lt_of_le Nat.zero_lt_one (Nat.le_max_right ..)

/-- An identifier leads to its own entry, as long as that is tracked. -/
theorem find?_fresh (named : ∀ i, p.Has i → p.id? i = some (.fresh i))
    (there : ∀ i ∈ p.tracked, p.Has i) (i : Nat) :
    p.find? (.fresh i) = if i ∈ p.tracked then some i else none := by
  have unique : ∀ j ∈ p.tracked, p.id? j = some (.fresh i) → j = i := fun j hj hid =>
    KernelId.fresh_injective (Option.some.inj ((named j (there j hj)).symm.trans hid))
  split
  · next hi => exact find?_of_unique hi (named i (there i hi)) unique
  · next hi =>
    apply Option.eq_none_iff_forall_ne_some.mpr
    intro j hj
    obtain ⟨hmem, hid⟩ := find?_eq_some hj
    exact hi (unique j hmem hid ▸ hmem)

/-- Whoever comes to be buried has just been removed. -/
theorem Advance.buries (h : Advance t p s p' m) (hi : m.To (Stage.Buries i)) :
    s.Buries i ∨ i ∈ p.tracked ∧ i ∉ p'.tracked := by
  cases h with
  | close e j todo found may there =>
    obtain rfl : j = i := hi
    exact .inr ⟨there, fun hj => (mem_tracked_untrack.mp hj).2 rfl⟩
  | evict n ticket v found full victim =>
    obtain rfl : v = i := hi
    exact .inr ⟨mem_tracked_of_evictee? victim, fun hj => (mem_tracked_untrack.mp hj).2 rfl⟩
  | stop | reap | reapStop => exact .inl hi
  | _ => exact False.elim hi

theorem Opening.buries {c : PoolCall} {dead : List Nat} (h : Opening t p c p' dead m) :
    ¬m.To (Stage.Buries i) := by
  cases h <;> exact id

/-- To look for a kernel by its identifier is to look for its entry. -/
theorem spares_find? (e : Errand) (ordered : p.Ordered order)
    (named : ∀ i, p.Has i → p.id? i = some (.fresh i)) (there : ∀ i ∈ p.tracked, p.Has i)
    (id : KernelId) :
    e.spares p (p.find? id).toList order =
      order.filter fun i => !(decide (.fresh i = id) && (!onlyDead e || p.isDead i)) := by
  apply List.filter_congr
  intro j hj
  have hj' := ordered.mem_iff.mp hj
  have hfound : j ∈ (p.find? id).toList ↔ .fresh j = id := by
    rw [Option.mem_toList]
    constructor
    · intro found
      exact Option.some.inj ((named j (there j hj')).symm.trans (find?_eq_some found).2)
    · rintro rfl
      rw [find?_fresh named there, if_pos hj']
  rw [decide_eq_decide.mpr hfound]

/-- A full pool in which no kernel is in transition makes room by the first in the order. -/
theorem Ordered.evict (h : p.Ordered order) (settled : ∀ i ∈ p.tracked, p.inTransition i = false)
    (fits : p.size ≤ p.capacity) (full : p.capacity ≤ p.size) (victim : p.evictee? = some i) :
    ∃ rest, (p.untrack i).Ordered rest ∧ makeRoom p.capacity order = makeRoom p.capacity rest := by
  rw [h.evictee?_eq settled] at victim
  obtain ⟨rest, rfl⟩ := List.head?_eq_some_iff.mp victim
  have hforget : Recency.forget i (i :: rest) = rest :=
    forget_cons_self (List.nodup_cons.mp h.nodup).1
  refine ⟨rest, hforget ▸ h.untrack i, ?_⟩
  exact makeRoom_cons_of_full (h.length.trans (Nat.le_antisymm fits full))

/-- Whoever gives a kernel up will have removed it, and nothing else. -/
theorem residue_giveUp (ordered : p.Ordered order)
    (named : ∀ i, p.Has i → p.id? i = some (.fresh i)) (there : ∀ i ∈ p.tracked, p.Has i) (i : Nat)
    (f : Failure) :
    Stage.residue p order false (.structure (.giveUp (.fresh i) f)) = Recency.forget i order := by
  refine (spares_find? _ ordered named there _).trans ?_
  apply List.filter_congr
  intro j _
  by_cases hji : j = i
  · simp [hji, onlyDead]
  · simp [hji, mt KernelId.fresh_injective hji]

/-- A step does a part of what the operation will make of the order, and leaves the rest. -/
theorem Advance.residue (h : Advance t p s p' m) (placed : Placed p s) (ordered : p.Ordered order) :
    ∃ order', p'.Ordered order' ∧ ∀ ok, m.Allows ok →
      (s.Hopeless → ok = false) ∧ m.residue p' order' ok = s.residue p order ok := by
  have there := placed.ready.there
  cases h with
  | enter e held => exact ⟨order, ordered, fun ok hok => ⟨hok, rfl⟩⟩
  | spare e i todo found only alive =>
    refine ⟨order, ordered, fun ok hok => ⟨hok, Errand.residue_congr rfl ?_⟩⟩
    exact (Errand.spares_cons_of_spared fun _ => ⟨only, alive⟩).symm
  | gone e i todo found may absent =>
    refine ⟨order, ordered, fun ok hok => ⟨hok, Errand.residue_congr rfl ?_⟩⟩
    exact (Errand.spares_cons_of_spared fun hi => absurd (ordered.mem_iff.mp hi) absent).symm
  | forget e i todo found may =>
    refine ⟨_, ordered.untrack i, fun ok hok => ⟨hok, Errand.residue_congr rfl ?_⟩⟩
    exact (Errand.spares_cons_of_removed may).symm
  | close e i todo found may =>
    refine ⟨_, (ordered.untrack i).congr (.requestWorker t i),
      fun ok hok => ⟨hok, Errand.residue_congr rfl ?_⟩⟩
    rw [Errand.spares_cons_of_removed may]
    exact Errand.spares_congr fun j hj => isDead_modify_of_ne (mem_forget.mp hj).2.symm
  | insert i ticket found room =>
    -- there is room, so that the kernel that comes is all that makes a difference
    have hi : i ∉ order := mt ordered.mem_iff.mp (placed.ready.young i rfl)
    have has : p.Has i := placed.has i (by simp [Stage.locks, Errand.newborn?])
    have fits : order.length < p.capacity := ordered.length ▸ room
    refine ⟨order ++ [i], ((ordered.insert has hi).congr .releaseStructure).congr (.call i .start),
      fun ok hok => ⟨?_, ?_⟩⟩
    · rintro ⟨id, f, hf⟩
      cases hf
    · simp only [Move.residue, Stage.residue, Errand.residue, Errand.settle, Errand.spares_nil,
        makeRoom_of_lt fits, refresh_append_self hi, forget_append_self hi]
  | evict i ticket v found full victim =>
    obtain ⟨rest, ordered', kept⟩ :=
      ordered.evict (placed.settled _ found rfl) placed.fits full victim
    have capacity : ((p.untrack v).requestWorker t v).capacity = p.capacity := rfl
    refine ⟨rest, ordered'.congr (.requestWorker t v), fun ok hok => ⟨hok, ?_⟩⟩
    simp only [Move.residue, Stage.residue, Errand.residue, Errand.spares_nil, Errand.settle,
      capacity, kept]
  | park i ticket found full victim =>
    -- whoever runs alone finds somebody to evict
    rw [ordered.evictee?_eq (placed.settled _ found rfl), List.head?_eq_none_iff] at victim
    subst victim
    have empty : p.size = 0 := ordered.length.symm
    exact absurd full (Nat.not_le_of_lt (empty ▸ p.capacity_pos))
  | unpark i ticket woken =>
    refine ⟨order, ordered.congr (.requestStructure t), fun ok hok => ⟨False.elim, rfl⟩⟩
  | conclude e found grown normal =>
    refine ⟨order, ordered.congr .releaseStructure, fun ok hok => ⟨?_, ?_⟩⟩
    · rintro ⟨id, f, rfl⟩
      exact absurd rfl (normal id f)
    · cases e with
      | room => cases grown
      | _ => exact Errand.spares_nil.symm
  | giveUp id f found =>
    exact ⟨order, (ordered.congr .releaseStructure).congr .wake,
      fun ok hok => ⟨fun _ => hok, Errand.spares_nil.symm⟩⟩
  | stop e i todo found held =>
    refine ⟨order, ordered.congr (.call i .shutdown),
      fun ok hok => ⟨hok, Errand.residue_congr rfl ?_⟩⟩
    exact Errand.spares_congr fun j hj => isDead_modify fun _ => rfl
  | stopped e i todo found =>
    refine ⟨order, (ordered.congr (.releaseWorker i)).congr .wake,
      fun ok hok => ⟨hok, Errand.residue_congr rfl (Errand.spares_congr fun j hj => ?_)⟩⟩
    -- the worker is that of a kernel that is gone
    have hij : i ≠ j := by
      rintro rfl
      exact placed.buried i rfl (ordered.mem_iff.mp hj)
    exact isDead_modify_of_ne hij
  | interrupt i | restart i | restarted i | started i | reapStop i =>
    exact ⟨order, ordered.congr (.call i _), fun ok _ => ⟨False.elim, rfl⟩⟩
  | reap i => exact ⟨order, ordered.congr (.requestWorker t i), fun ok _ => ⟨False.elim, rfl⟩⟩
  | reaped i => exact ⟨order, ordered.congr (.releaseWorker i), fun ok _ => ⟨False.elim, rfl⟩⟩
  | queue i held =>
    exact ⟨order, (ordered.congr (.releaseWorker i)).congr (.requestSlot t i),
      fun ok _ => ⟨False.elim, rfl⟩⟩
  | interrupted i =>
    refine ⟨refresh i order, (ordered.congr (.releaseWorker i)).touch (by simpa using there) i _,
      fun ok hok => ⟨False.elim, ?_⟩⟩
    rw [show ok = true from hok]
    rfl
  | interruptFailed i f =>
    refine ⟨order, ordered.congr (.releaseWorker i), fun ok hok => ⟨False.elim, ?_⟩⟩
    rw [show ok = false from hok]
    rfl
  | back i =>
    refine ⟨refresh i order, ((ordered.congr (.releaseWorker i)).touch (by simpa using there) i _).congr
      .wake, fun ok hok => ⟨False.elim, ?_⟩⟩
    rw [show ok = true from hok.trans (Outcome.ok_ofRecord _)]
    rfl
  | restartFailed s i why was =>
    have has : p.Has i := by
      obtain rfl | rfl := was <;> exact placed.has i (List.mem_singleton.mpr rfl)
    have hid : p.idOf i = .fresh i :=
      Option.some.inj ((id?_eq_idOf has).symm.trans (placed.named i has))
    have ordered' := (ordered.congr (.releaseWorker i)).congr (.requestStructure t)
    have removed := residue_giveUp ordered' (by simpa using placed.named) (by simpa using there) i
      (.start why)
    rw [← hid] at removed
    refine ⟨order, ordered', fun ok hok => ?_⟩
    obtain rfl : ok = false := hok ⟨_, _, rfl⟩
    obtain rfl | rfl := was <;> exact ⟨False.elim, removed⟩
  | grant i held =>
    refine ⟨refresh i order, ordered.touch there i _, fun ok hok => ⟨False.elim, ?_⟩⟩
    rw [show ok = true from hok]
    rfl
  | refuse i held absent =>
    refine ⟨order, ordered.congr (.releaseSlot i), fun ok hok => ⟨False.elim, ?_⟩⟩
    rw [show ok = false from hok]
    rfl
  | up i =>
    refine ⟨refresh i order, ((ordered.touch there i _).congr .wake).congr (.releaseWorker i),
      fun ok hok => ⟨False.elim, ?_⟩⟩
    rw [show ok = true from hok.trans (Outcome.ok_ofRecord _)]
    rfl
  | late i absent =>
    refine ⟨order, ordered.congr (.call i .shutdown), fun ok hok => ⟨False.elim, ?_⟩⟩
    rw [hok trivial]
    rfl
  | abandon s i why was =>
    refine ⟨_, (ordered.untrack i).congr (.call i .shutdown), fun ok hok => ?_⟩
    obtain rfl : ok = false := hok trivial
    obtain rfl | rfl := was <;> exact ⟨False.elim, forget_forget⟩
  | abandoned i f =>
    exact ⟨_, ((ordered.untrack i).congr .wake).congr (.releaseWorker i),
      fun ok hok => ⟨fun _ => hok, rfl⟩⟩

/-! ## Calls -/

end Pool

/-- What a call that ends before another begins makes of the order of the tracked kernels: they are
named by their identifiers, `dead` are those whose workers do not run when it begins, `new` would be the
next one, and the call succeeds or not. -/
def PoolCall.reorder (catalog : Catalog) (capacity : Nat) (dead : List KernelId) (new : KernelId)
    (ok : Bool) (order : List KernelId) : PoolCall → List KernelId
  | .create request refusal =>
    if (catalog.find? request.name).isSome && refusal.isNone then
      let kept := makeRoom capacity (order.filter (· ∉ dead))
      if ok then kept ++ [new] else kept
    else order
  | .get id | .channel id | .removeIfDead id => if id ∈ dead then forget id order else order
  | .list | .pruneDead => order.filter (· ∉ dead)
  | .updateStatus id _ => refresh id order
  | .interrupt id | .acquire id =>
    if id ∈ dead then forget id order else if ok then refresh id order else order
  | .restart id =>
    if id ∈ dead then forget id order else if ok then refresh id order else forget id order
  | .shutdown id => forget id order
  | .shutdownAll => []

namespace Pool

variable {p q : Pool} {t : TaskId} {m : Move} {i : Nat} {order : List Nat} {target : Bool → List KernelId}

/-- The tracked kernels whose workers do not run. -/
def dead (p : Pool) : List KernelId :=
  (p.tracked.filter fun i => !(p.entry? i).any (·.alive)).map p.idOf

/-- A pool that a call may begin on while no other operation is in progress. -/
structure AtRest (p : Pool) (order : List Nat) : Prop where
  ordered : p.Ordered order
  there : ∀ i ∈ p.tracked, p.Has i
  named : ∀ i, p.Has i → p.id? i = some (.fresh i)
  free : ∀ i ∈ p.tracked, p.queue (.worker i) = []

/-- An operation that makes this move leaves the kernels of the target in this order. -/
def Leads (p : Pool) (m : Move) (target : Bool → List KernelId) : Prop :=
  ∃ order, p.Ordered order ∧ ∀ ok, m.Allows ok → (m.residue p order ok).map .fresh = target ok

theorem Leads.advance {s : Stage} (h : p.Leads (.wait s) target) (adv : Advance t p s q m)
    (placed : Placed p s) : q.Leads m target := by
  obtain ⟨order, ordered, leads⟩ := h
  obtain ⟨order', ordered', rest⟩ := adv.residue placed ordered
  refine ⟨order', ordered', fun ok hok => ?_⟩
  obtain ⟨hok', same⟩ := rest ok hok
  rw [same]
  exact leads ok hok'

/-- The one pool tracks the same kernels as the other, and nothing else differs that the order of the
kernels depends on than who is dead. -/
structure Unmoved (p q : Pool) : Prop where
  times : SameTimes p q
  status : ∀ i, q.status? i = p.status? i
  id : ∀ i, q.id? i = p.id? i
  config : q.config = p.config

theorem Leads.congr (h : p.Leads m target) (unmoved : p.Unmoved q)
    (dead : ∀ i ∈ p.tracked, q.isDead i = p.isDead i) : q.Leads m target := by
  obtain ⟨order, ordered, leads⟩ := h
  refine ⟨order, ordered.congr unmoved.times, fun ok hok => ?_⟩
  rw [← leads ok hok]
  cases m with
  | finish => rfl
  | wait s =>
    have capacity : q.capacity = p.capacity := congrArg Config.capacity unmoved.config
    have dead' : ∀ i ∈ order, q.isDead i = p.isDead i := fun i hi => dead i (ordered.mem_iff.mp hi)
    exact congrArg _ (Stage.residue_congr unmoved.times.tracked unmoved.id capacity dead' s)

namespace AtRest

theorem idOf (h : p.AtRest order) (hi : i ∈ p.tracked) : p.idOf i = .fresh i :=
  Option.some.inj ((id?_eq_idOf (h.there i hi)).symm.trans (h.named i (h.there i hi)))

theorem mem_map (h : p.AtRest order) : .fresh i ∈ order.map KernelId.fresh ↔ i ∈ p.tracked := by
  rw [← h.ordered.mem_iff, List.mem_map]
  exact ⟨fun ⟨j, hj, hji⟩ => KernelId.fresh_injective hji ▸ hj, fun hi => ⟨i, hi, rfl⟩⟩

theorem mem_dead (h : p.AtRest order) (hi : i ∈ p.tracked) : .fresh i ∈ p.dead ↔ p.isDead i = true := by
  obtain ⟨e, he⟩ := has_iff_entry?.mp (h.there i hi)
  have hfree : e.workerLock.isFree = true := by
    have hq := h.free i hi
    simp only [queue, he, Option.elim_some] at hq
    simp [Lock.isFree, hq]
  have hdead : p.isDead i = !e.alive := by simp [isDead, he, Entry.isDead, hfree]
  rw [dead, List.mem_map, hdead]
  constructor
  · rintro ⟨j, hj, hji⟩
    obtain ⟨hj, hup⟩ := List.mem_filter.mp hj
    obtain rfl := KernelId.fresh_injective ((h.idOf hj).symm.trans hji)
    simpa [he] using hup
  · intro hup
    exact ⟨i, List.mem_filter.mpr ⟨hi, by simpa [he] using hup⟩, h.idOf hi⟩

/-- Whoever is looked for is tracked, or is not in the order either. -/
theorem find?_cases (h : p.AtRest order) (id : KernelId) :
    (p.find? id = none ∧ id ∉ order.map KernelId.fresh ∧ id ∉ p.dead) ∨
      ∃ i ∈ p.tracked, id = .fresh i ∧ p.find? id = some i := by
  cases hf : p.find? id with
  | some i =>
    obtain ⟨hi, hid⟩ := find?_eq_some hf
    exact .inr ⟨i, hi, Option.some.inj (hid.symm.trans (h.named i (h.there i hi))), rfl⟩
  | none =>
    have absent : ∀ i ∈ p.tracked, id ≠ .fresh i := by
      rintro i hi rfl
      rw [find?_fresh h.named h.there, if_pos hi] at hf
      cases hf
    refine .inl ⟨rfl, fun hmem => ?_, fun hmem => ?_⟩
    · obtain ⟨i, hi, rfl⟩ := List.mem_map.mp hmem
      exact absent i (h.ordered.mem_iff.mp hi) rfl
    · obtain ⟨i, hi, rfl⟩ := List.mem_map.mp hmem
      have hi := (List.mem_filter.mp hi).1
      exact absent i hi (h.idOf hi)

theorem map_forget (i : Nat) :
    (forget i order).map KernelId.fresh = forget (.fresh i) (order.map KernelId.fresh) :=
  Recency.map_forget fun _ _ => KernelId.fresh_injective

theorem map_refresh (i : Nat) :
    (refresh i order).map KernelId.fresh = refresh (.fresh i) (order.map KernelId.fresh) :=
  Recency.map_refresh fun _ _ => KernelId.fresh_injective

/-- The dead kernels are taken out of the order with their entries. -/
theorem map_filter_dead (h : p.AtRest order) :
    (order.filter fun i => !p.isDead i).map KernelId.fresh =
      (order.map KernelId.fresh).filter (· ∉ p.dead) := by
  rw [List.filter_map]
  congr 1
  apply List.filter_congr
  intro i hi
  have hdead := h.mem_dead (h.ordered.mem_iff.mp hi)
  cases hi : p.isDead i with
  | false => simp [hdead, hi]
  | true => simp [hdead, hi]

/-- A call that looks up a kernel and goes on with the entry, if that is there and not dead. -/
theorem withLive_leads (h : p.AtRest order) (id : KernelId) (k : Nat → Pool × Move)
    (absent : id ∉ order.map KernelId.fresh → target false = order.map .fresh)
    (alive : ∀ i ∈ p.tracked, id = .fresh i → (k i).1.Leads (k i).2 target) :
    (p.withLive id k).pool.Leads (p.withLive id k).move fun ok =>
      if id ∈ p.dead then forget id (order.map .fresh) else target ok := by
  unfold withLive
  rcases h.find?_cases id with ⟨found, hid, alive'⟩ | ⟨i, hi, rfl, found⟩
  · simp only [found, if_neg alive']
    refine ⟨order, h.ordered, fun ok hok => ?_⟩
    obtain rfl : ok = false := hok
    exact (absent hid).symm
  · simp only [found]
    cases hd : p.isDead i with
    | true =>
      have hmem : KernelId.fresh i ∈ p.dead := (h.mem_dead hi).mpr hd
      simp only [if_pos hmem, if_true]
      exact ⟨_, h.ordered.untrack i, fun _ _ => map_forget i⟩
    | false =>
      have hmem : KernelId.fresh i ∉ p.dead := fun hmem => by
        rw [(h.mem_dead hi).mp hmem] at hd
        cases hd
      simp only [if_neg hmem, Bool.false_eq_true, if_false]
      exact alive i hi rfl

/-- A call that goes on an errand, but not for room. -/
theorem errand_leads (h : p.AtRest order) {e : Errand} (grown : e.newborn? = none)
    (leads : ∀ ok, (e.spares p (p.agenda e) order).map .fresh = target ok) :
    (p.requestStructure t).Leads (.wait (.structure e)) target := by
  refine ⟨order, h.ordered.congr (.requestStructure t), fun ok _ => ?_⟩
  cases e with
  | room => cases grown
  | _ => exact leads ok

/-- Whoever is looked up and may be removed is the only one of the name. -/
theorem map_spares_find? (h : p.AtRest order) (e : Errand) (id : KernelId) :
    (e.spares p (p.find? id).toList order).map KernelId.fresh =
      if onlyDead e = true ∧ id ∉ p.dead then order.map .fresh else forget id (order.map .fresh) := by
  rw [spares_find? e h.ordered h.named h.there id]
  split
  · next hspared =>
    congr 1
    apply List.filter_eq_self.mpr
    intro i hi
    have hdead := h.mem_dead (h.ordered.mem_iff.mp hi)
    by_cases hid : KernelId.fresh i = id
    · subst hid
      simpa [hspared.1, hdead] using hspared.2
    · simp [hid]
  · next hremoved =>
    rw [forget, List.filter_map]
    congr 1
    apply List.filter_congr
    intro i hi
    have hdead := h.mem_dead (h.ordered.mem_iff.mp hi)
    by_cases hid : KernelId.fresh i = id
    · subst hid
      have hgoes : (!onlyDead e || p.isDead i) = true := by
        cases ho : onlyDead e <;> simp_all
      simp [hgoes]
    · simp [hid]

/-- A worker was launched, and its kernel is to be created. -/
theorem create_leads (h : p.AtRest order) (name : String) (notebook : Option String)
    (inspector : Option Inspector) :
    (((p.launch name notebook inspector).requestWorker t p.entries.length).requestStructure t).Leads
      (.wait (.structure (.room p.entries.length p.settled))) fun ok =>
        let kept := makeRoom p.capacity ((order.map .fresh).filter (· ∉ p.dead))
        if ok then kept ++ [.fresh p.entries.length] else kept := by
  refine ⟨order, ((h.ordered.congr (.launch name notebook inspector)).congr
    (.requestWorker t _)).congr (.requestStructure t), fun ok _ => ?_⟩
  -- the new worker is not tracked yet, and the others are dead or not as they were
  have spared : Errand.spares (((p.launch name notebook inspector).requestWorker t
      p.entries.length).requestStructure t) (.room p.entries.length p.settled) p.tracked order =
      order.filter fun i => !p.isDead i := by
    apply List.filter_congr
    intro i hi
    have hi' := h.ordered.mem_iff.mp hi
    have hdead : (((p.launch name notebook inspector).requestWorker t
        p.entries.length).requestStructure t).isDead i = p.isDead i :=
      (isDead_modify_of_ne (Nat.ne_of_gt (h.there i hi'))).trans
        (isDead_launch name notebook inspector (h.there i hi'))
    simp [hi', hdead, onlyDead]
  have kept : (makeRoom p.capacity (order.filter fun i => !p.isDead i)).map KernelId.fresh =
      makeRoom p.capacity ((order.map .fresh).filter (· ∉ p.dead)) := by
    rw [map_makeRoom, h.map_filter_dead]
  refine (congrArg (fun rest => (Errand.settle p.capacity ok rest (.room p.entries.length
    p.settled)).map KernelId.fresh) spared).trans ?_
  cases ok with
  | false => exact kept
  | true =>
    show (makeRoom _ _ ++ [_]).map KernelId.fresh = _
    rw [List.map_append, kept]
    rfl

/-- A call that begins while nothing else goes on makes of the order what its kind says. -/
theorem leads (h : p.AtRest order) (catalog : Catalog) (t : TaskId) (c : PoolCall) :
    (p.start catalog t c).pool.Leads (p.start catalog t c).move fun ok =>
      c.reorder catalog p.capacity p.dead (.fresh p.entries.length) ok (order.map .fresh) := by
  cases c with
  | create request refusal =>
    simp only [start, PoolCall.reorder]
    cases hfound : catalog.find? request.name with
    | none => exact ⟨order, h.ordered, fun _ _ => rfl⟩
    | some spec =>
      cases refusal with
      | some f => exact ⟨order, h.ordered, fun _ _ => rfl⟩
      | none => exact h.create_leads _ _ _
  | get id | channel id =>
    exact h.withLive_leads id _ (fun _ => rfl) fun i hi _ => ⟨order, h.ordered, fun _ _ => rfl⟩
  | list =>
    refine ⟨_, h.ordered.discard _, fun _ _ => ?_⟩
    refine (congrArg (List.map KernelId.fresh) (List.filter_congr fun i hi => ?_)).trans
      h.map_filter_dead
    simp [h.ordered.mem_iff.mp hi]
  | updateStatus id status =>
    simp only [start, PoolCall.reorder]
    rcases h.find?_cases id with ⟨found, hid, -⟩ | ⟨i, hi, rfl, found⟩
    · rw [found, refresh_of_not_mem hid]
      exact ⟨order, h.ordered, fun _ _ => rfl⟩
    · rw [found]
      exact ⟨_, h.ordered.touch h.there i ({ · with status }), fun _ _ => map_refresh i⟩
  | interrupt id | acquire id =>
    refine h.withLive_leads id _ (fun _ => rfl) ?_
    rintro i hi rfl
    refine ⟨order, h.ordered.congr (.requestWorker t i), fun ok _ => ?_⟩
    cases ok with
    | false => rfl
    | true => exact map_refresh i
  | restart id =>
    refine h.withLive_leads id _ forget_of_not_mem ?_
    rintro i hi rfl
    refine ⟨_, (h.ordered.touch h.there i ({ · with status := .restarting })).congr
      (.requestWorker t i), fun ok _ => ?_⟩
    cases ok with
    | false => exact (congrArg _ forget_refresh).trans (map_forget i)
    | true => exact (congrArg _ refresh_refresh).trans (map_refresh i)
  | shutdown id =>
    refine h.errand_leads rfl fun _ => ?_
    exact (h.map_spares_find? (.shutdown id) id).trans (if_neg fun hc => by cases hc.1)
  | shutdownAll =>
    refine h.errand_leads rfl fun _ => ?_
    have hnone : Errand.spares p .shutdownAll (p.agenda .shutdownAll) order = [] := by
      apply List.filter_eq_nil_iff.mpr
      intro i hi
      simp [agenda, h.ordered.mem_iff.mp hi, onlyDead]
    rw [hnone]
    rfl
  | pruneDead =>
    refine h.errand_leads rfl fun _ => ?_
    refine (congrArg (List.map KernelId.fresh) (List.filter_congr fun i hi => ?_)).trans
      h.map_filter_dead
    simp [agenda, h.ordered.mem_iff.mp hi, onlyDead]
  | removeIfDead id =>
    refine h.errand_leads rfl fun _ => (h.map_spares_find? (.removeIfDead id) id).trans ?_
    by_cases hid : id ∈ p.dead <;> simp [hid, onlyDead, PoolCall.reorder]

end AtRest
end Pool
end NotebookKernels
