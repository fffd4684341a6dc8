import NotebookKernels.Proofs.Pool.Counts
import NotebookKernels.Proofs.Service.Seats

/- How executions are counted.

   `granted` notes down who is granted an entry's slot, and `counted` who ends its stream there and
   is not silent. The count of the entry's kernel goes up in just the steps of the second kind
   (`count_of_step`), if nobody restarts the kernel or counts from outside. -/
namespace NotebookKernels

open Function (update)

namespace Exchange

/-- Does the item end the stream of the request? -/
def closes (r : RequestId) : Exchange → Bool
  | .received m => (m.deliveryFor r).closes
  | .acquired _ | .refused _ | .submitted .. | .accepted _ | .rejected _ => false

end Exchange

/-- Is the work an execution that is counted at its end? -/
def Work.isLoud : Work → Bool
  | .execution x => !x.request.silent
  | _ => false

/-- Does an execution that is counted end its stream on this entry, when this passes? -/
def Activity.counts (i : Nat) (ex : List Exchange) : Activity → Bool
  | .receiving w j r => decide (j = i) && w.isLoud && ex.any (·.closes r)
  | _ => false

namespace Services

/-- The execution that is granted the slot of this entry in a step. -/
def granted (i : Nat) (s : Services) (l : Label) : List TaskId :=
  l.task?.toList.filter fun t =>
    (s.executing? t).isSome && (s.exchanges t l).contains (.acquired i)

/-- The execution that is not silent and ends its stream on this entry in a step. -/
def counted (i : Nat) (s : Services) (l : Label) : List TaskId :=
  l.task?.toList.filter fun t => (s.tasks.get? t).any (·.counts i (s.exchanges t l))

variable {s s' d : Services} {l : Label} {ls : List Label} {t u : TaskId} {i j n : Nat} {w : Work}
  {x y : Execution} {r : RequestId} {m : Mail}

/-! ## The parts of a step -/

theorem countOf_eq : s.countOf i = s.pool.count i := by
  unfold countOf Pool.record? Pool.count
  cases s.pool.entry? i <;> rfl

@[simp] theorem count_dropSlot (u : TaskId) : (s.dropSlot u).pool.count i = s.pool.count i := by
  unfold dropSlot
  split
  · rfl
  · rw [Pool.count_releaseSlot, Pool.count_touch fun k => by split <;> rfl]

theorem count_execute (x : Execution) : (s.execute t j x).pool.count i = s.pool.count i := by
  rw [execute_eq]
  split
  · exact count_dropSlot t
  · rfl

theorem count_list : (s.list t j).pool.count i = s.pool.count i := by
  unfold list
  split
  · exact count_dropSlot t
  · rfl

theorem count_move (w : Work) (m : Move) : (s.move t w m).pool.count i = s.pool.count i := by
  cases m with
  | wait => rfl
  | finish o =>
    cases o with
    | slot j =>
      cases w with
      | execution x => exact count_execute x
      | introspection => exact count_list
      | operation | listing | stream | submission => rfl
    | done | kernel | kernels | removed | flag | channel | failed => cases w <;> rfl

theorem count_startPool (c : PoolCall) : (s.startPool t w c).pool.count i = s.pool.count i := by
  let b := s.pool.start s.catalog t c
  have opening : Pool.Opening t s.pool c b.pool b.dead b.move := Pool.opening_of_start
  show ((({ s with pool := b.pool } : Services).move t w b.move).reap b.dead).pool.count i = _
  rw [pool_reap, count_move]
  exact opening.count_eq

theorem count_countUp (has : j = i → s.pool.Has i) :
    (s.countUp j).pool.count i = s.pool.count i + if j = i then 1 else 0 := by
  split
  · next hj =>
    subst hj
    obtain ⟨k, before, after⟩ := Pool.count_touch_self
      (fun k : Kernel => { k with executionCount := k.executionCount + 1 }) (has rfl)
    rw [before]
    exact after
  · next hj => exact Pool.count_touch_of_ne _ hj

theorem count_counting (x : Execution) (has : j = i → s.pool.Has i) :
    (s.counting j x).pool.count i =
      s.pool.count i + if decide (j = i) && !x.request.silent then 1 else 0 := by
  unfold counting
  split
  · next hs => simp [hs]
  · next hs =>
    rw [count_countUp has]
    simp [hs]

/-- The end of a stream counts an execution, unless it is silent. -/
theorem count_endStream (has : j = i → w.isLoud = true → s.pool.Has i) :
    (s.endStream t j w).pool.count i =
      s.pool.count i + if decide (j = i) && w.isLoud then 1 else 0 := by
  cases w with
  | execution x =>
    have counting : ((s.counting j x).dropSlot t).pool.count i =
        s.pool.count i + if decide (j = i) && !x.request.silent then 1 else 0 := by
      rw [count_dropSlot]
      by_cases hs : x.request.silent
      · simp [Services.counting, hs]
      · exact count_counting x fun hj => has hj (by simp [Work.isLoud, hs])
    rw [endStream_eq]
    split
    · rw [count_startPool]
      exact counting
    · exact counting
  | listing =>
    simp only [Work.isLoud, Bool.and_false, Bool.false_eq_true, if_false]
    exact count_dropSlot t
  | stream | operation | introspection | submission => simp [endStream, Work.isLoud, finish]

theorem isLoud_takeOutput (e : OutputEvent) (w : Work) : (s.takeOutput e w).isLoud = w.isLoud := by
  cases w <;> rfl

theorem count_receive (has : j = i → w.isLoud = true → s.pool.Has i) :
    (s.receive t w j r m).pool.count i =
      s.pool.count i + if decide (j = i) && w.isLoud && (m.deliveryFor r).closes then 1 else 0 := by
  unfold receive
  cases m.deliveryFor r with
  | skip => simp [Delivery.closes, setTask]
  | output e => simp [Delivery.closes, setTask]
  | ended => simpa [Delivery.closes] using count_endStream has
  | broken e =>
    have h := count_endStream (s := s) (t := t) (j := j) (i := i) (w := s.takeOutput e w)
      (by rwa [isLoud_takeOutput])
    rw [isLoud_takeOutput] at h
    simpa [Delivery.closes] using h

/-! ## Whole steps -/

theorem mem_counted : t ∈ s.counted i l ↔ l.task? = some t ∧
    ∃ w r, s.tasks.get? t = some (.receiving w i r) ∧ w.isLoud = true ∧
      (s.exchanges t l).any (·.closes r) = true := by
  simp only [counted, List.mem_filter, Option.mem_toList, Option.any_eq_true]
  refine and_congr_right fun _ => ⟨?_, ?_⟩
  · rintro ⟨a, ha, counts⟩
    cases a with
    | receiving w j r =>
      simp only [Activity.counts, Bool.and_eq_true, decide_eq_true_eq] at counts
      obtain ⟨⟨rfl, loud⟩, closes⟩ := counts
      exact ⟨w, r, ha, loud, closes⟩
    | pool | submitting | querying | pausing => cases counts
  · rintro ⟨w, r, ha, loud, closes⟩
    exact ⟨_, ha, by simp [Activity.counts, loud, closes]⟩

theorem mem_granted : t ∈ s.granted i l ↔ l.task? = some t ∧ (∃ id, s.executing? t = some id) ∧
    .acquired i ∈ s.exchanges t l := by
  simp [granted, Option.isSome_iff_exists]

/-- In its own step only the task itself may be granted the slot. -/
theorem granted_eq_nil (own : l.task? = some t) (h : t ∉ s.granted i l) : s.granted i l = [] := by
  refine List.eq_nil_iff_forall_not_mem.mpr fun u hu => ?_
  obtain rfl := Option.some.inj (own.symm.trans (mem_granted.mp hu).1)
  exact h hu

/-- In its own step only the task itself may be counted. -/
theorem counted_eq_nil (own : l.task? = some t) (h : t ∉ s.counted i l) : s.counted i l = [] := by
  refine List.eq_nil_iff_forall_not_mem.mpr fun u hu => ?_
  obtain rfl := Option.some.inj (own.symm.trans (mem_counted.mp hu).1)
  exact h hu

theorem counted_eq (own : l.task? = some t) : s.counted i l =
    if (s.tasks.get? t).any (·.counts i (s.exchanges t l)) then [t] else [] := by
  simp only [counted, own, Option.toList_some, List.filter_cons, List.filter_nil]

/-- What a task submits ends no stream. -/
theorem any_closes_exchanges (step : s.step l = some s') :
    (s.exchanges t l).any (·.closes r) = (s.told t l).any (·.closes r) := by
  have submitted : (submits (s.tasks.get? t) (s'.tasks.get? t)).any (·.closes r) = false := by
    unfold submits
    split <;> rfl
  rw [exchanges_of_step step, List.any_append, submitted, Bool.or_false]

/-- A call counts nothing, but for a caller who counts on the slot. -/
theorem count_of_call {c : Call} (unrecorded : ∀ slot, c = .record slot → s.held? slot ≠ some i)
    (step : s.step (.call c) = some s') : s'.pool.count i = s.pool.count i := by
  obtain rfl := Option.some.inj step
  cases c with
  | pool c => exact count_startPool c
  | record slot =>
    simp only [start]
    split
    · rfl
    · next j hj =>
      have hne : j ≠ i := fun h => unrecorded slot rfl (h ▸ hj)
      exact Pool.count_touch_of_ne _ hne
  | count slot =>
    simp only [start]
    split <;> rfl
  | release slot =>
    simp only [start]
    split
    · rfl
    · exact count_dropSlot slot
  | execute request sink => exact count_startPool _
  | introspect id => exact count_startPool _
  | result id =>
    simp only [start]
    split <;> rfl
  | submit | stream | query => rfl
  | list j => exact count_list

/-- Inside the pool nothing is counted, and only who brings the kernel back takes its count away. -/
theorem count_of_pool {st : Stage} (own : l.task? = some t)
    (was : s.tasks.get? t = some (.pool w st)) (still : ¬st.BringsBack i)
    (step : s.step l = some s') : s'.pool.count i = s.pool.count i := by
  obtain ⟨p, m, adv, rfl, -⟩ := move_of_step own was step
  rw [count_move]
  exact adv.count_eq still

theorem count_of_submitting {code : Code} (own : l.task? = some t)
    (was : s.tasks.get? t = some (.submitting w j code)) (step : s.step l = some s') :
    s'.pool.count i = s.pool.count i := by
  obtain ⟨a, ha, h⟩ := activity_of_step own step
  obtain rfl := Option.some.inj (was.symm.trans ha)
  rcases h with ⟨-, h⟩ | ⟨ans, -, h⟩ | ⟨r, -, h⟩ | ⟨v, -, h⟩ | ⟨-, h⟩
  · simp [resume] at h
  · cases ans with
    | failed f => cases w <;> obtain rfl := Option.some.inj h <;> exact count_dropSlot t
    | ok | elapsed => simp [answer] at h
  · cases w <;> obtain rfl := Option.some.inj h <;> rfl
  · simp [take] at h
  · simp [expire] at h

theorem count_of_querying {q : ShellRequest} (own : l.task? = some t)
    (was : s.tasks.get? t = some (.querying j q)) (step : s.step l = some s') :
    s'.pool.count i = s.pool.count i := by
  obtain ⟨a, ha, h⟩ := activity_of_step own step
  obtain rfl := Option.some.inj (was.symm.trans ha)
  rcases h with ⟨-, h⟩ | ⟨ans, -, h⟩ | ⟨r, -, h⟩ | ⟨v, -, h⟩ | ⟨-, h⟩
  · simp [resume] at h
  · cases ans with
    | failed f =>
      obtain rfl := Option.some.inj h
      rfl
    | ok | elapsed => simp [answer] at h
  · simp [accept] at h
  · obtain rfl := Option.some.inj h
    rfl
  · simp [expire] at h

theorem count_of_pausing (own : l.task? = some t)
    (was : s.tasks.get? t = some (.pausing w j r)) (step : s.step l = some s') :
    s'.pool.count i = s.pool.count i := by
  obtain ⟨a, ha, h⟩ := activity_of_step own step
  obtain rfl := Option.some.inj (was.symm.trans ha)
  rcases h with ⟨-, h⟩ | ⟨ans, -, h⟩ | ⟨r, -, h⟩ | ⟨v, -, h⟩ | ⟨-, h⟩
  · simp [resume] at h
  · cases ans with
    | elapsed =>
      obtain rfl := Option.some.inj h
      rfl
    | ok | failed => simp [answer] at h
  · simp [accept] at h
  · simp [take] at h
  · cases w with
    | listing =>
      obtain rfl := Option.some.inj h
      exact count_dropSlot t
    | operation | execution | introspection | stream | submission => simp [expire] at h

/-- A task that waits for an event counts, when it takes the one that ends its stream. -/
theorem count_of_receiving (own : l.task? = some t)
    (was : s.tasks.get? t = some (.receiving w j r))
    (has : j = i → w.isLoud = true → s.pool.Has i) (step : s.step l = some s') :
    s'.pool.count i = s.pool.count i +
      if (Activity.receiving w j r).counts i (s.exchanges t l) then 1 else 0 := by
  simp only [Activity.counts, any_closes_exchanges step]
  -- without an event nothing is counted
  have idle : s.told t l = [] → s'.pool.count i = s.pool.count i →
      s'.pool.count i = s.pool.count i +
        if decide (j = i) && w.isLoud && (s.told t l).any (·.closes r) then 1 else 0 := by
    intro htold same
    simp [htold, same]
  obtain ⟨a, ha, h⟩ := activity_of_step own step
  obtain rfl := Option.some.inj (was.symm.trans ha)
  rcases h with ⟨rfl, h⟩ | ⟨ans, rfl, h⟩ | ⟨q, rfl, h⟩ | ⟨v, rfl, h⟩ | ⟨rfl, h⟩
  · simp only [resume] at h
    split at h
    · cases h
    · next m rest hmail =>
      obtain rfl := Option.some.inj h
      have hhead : (s.pool.mail j).head? = some m := congrArg List.head? hmail
      have htold : s.told t (.resume t) = [.received m] := by
        simp only [told, was, if_true, hhead]
        rfl
      let d : Services := { s with pool := s.pool.modify j ({ · with mail := rest }) }
      have same : d.pool.count i = s.pool.count i := Pool.count_modify fun _ => rfl
      have counts := count_receive (s := d) (t := t) (m := m) (r := r) fun hj hw =>
        Pool.has_modify.mpr (has hj hw)
      rw [same] at counts
      simpa [htold, Exchange.closes] using counts
  · cases ans with
    | failed f =>
      obtain rfl := Option.some.inj h
      have htold : s.told t (.answer t (.failed f)) = [.received (.failure f)] := by
        simp only [told, was, if_true]
      simpa [htold, Exchange.closes] using count_receive has
    | elapsed =>
      obtain rfl := Option.some.inj h
      exact idle (by simp only [told, was]) rfl
    | ok => simp [answer] at h
  · simp [accept] at h
  · simp [take] at h
  · cases w with
    | listing =>
      obtain rfl := Option.some.inj h
      exact idle rfl (count_dropSlot t)
    | operation | execution | introspection | stream | submission => simp [expire] at h

/-- The count of a kernel that nobody brings back, and on whose slot no caller counts, goes up by
those that are counted. -/
theorem count_of_step (still : ∀ u, ¬s.scene.Stands (Stage.BringsBack i) u)
    (unrecorded : ∀ slot, l = .call (.record slot) → s.held? slot ≠ some i)
    (has : ∀ t w r, s.tasks.get? t = some (.receiving w i r) → w.isLoud = true → s.pool.Has i)
    (step : s.step l = some s') :
    s'.pool.count i = s.pool.count i + (s.counted i l).length := by
  cases own : l.task? with
  | none =>
    have nobody : s.counted i l = [] := by simp [counted, own]
    rw [nobody, List.length_nil, Nat.add_zero]
    cases l with
    | call c => exact count_of_call (fun slot hc => unrecorded slot (congrArg _ hc)) step
    | alive | deliver | renew =>
      obtain rfl := Option.some.inj step
      exact Pool.count_modify fun _ => rfl
    | pass =>
      obtain rfl := Option.some.inj step
      rfl
    | resume | answer | submitted | replied | expire => cases own
  | some t =>
    obtain ⟨a, ha, -⟩ := activity_of_step own step
    rw [counted_eq own, ha, Option.any_some]
    cases a with
    | pool w st =>
      exact count_of_pool own ha (fun back => still t ⟨st, Scene.Sound.stage_of_act ha, back⟩) step
    | submitting w j code => exact count_of_submitting own ha step
    | querying j q => exact count_of_querying own ha step
    | receiving w j r =>
      rw [count_of_receiving own ha (fun hj => hj ▸ has t w r (hj ▸ ha)) step]
      split <;> rfl
    | pausing w j r => exact count_of_pausing own ha step

/-- Who restarts another kernel does not bring this one back. -/
theorem unbrought_restart {id : KernelId} (sound : s.scene.Sound) (named : s.scene.Named)
    (other : id ≠ .fresh i) (step : s.step (.call (.pool (.restart id))) = some s')
    (h : ∀ u, ¬s.scene.Stands (Stage.BringsBack i) u) :
    ∀ u, ¬s'.scene.Stands (Stage.BringsBack i) u := by
  rintro u ⟨st, hst, back⟩
  let d : Services := { s with nextTask := s.nextTask + 1 }
  let b := s.pool.start s.catalog s.nextTask (.restart id)
  have went := wentOn d s.nextTask b.pool b.move
  obtain rfl : Services.reap _ b.dead = s' := Option.some.inj step
  obtain ⟨w, hw⟩ := stage_of_scene hst
  rcases of_tasks_reap hw with hw | ⟨j, -, hj⟩
  · have hstage := went.stage? u
    rw [Scene.Sound.stage_of_act hw] at hstage
    split at hstage
    · have opening : Pool.Opening s.nextTask s.pool (.restart id) b.pool b.dead b.move :=
        Pool.opening_of_start
      rw [Move.eq_wait hstage.symm] at opening
      obtain ⟨id', hid, found⟩ := opening.bringsBack back
      obtain rfl := PoolCall.restart.inj hid
      exact other (named.of_find? sound found)
    · exact h u ⟨st, hstage.symm, back⟩
  · obtain ⟨-, rfl⟩ := Activity.pool.inj hj
    exact back

/-- If no caller restarts the kernel of this entry, nobody brings it back. -/
theorem unbrought_step (sound : s.scene.Sound) (named : s.scene.Named)
    (unrestarted : l ≠ .call (.pool (.restart (.fresh i)))) (step : s.step l = some s')
    (h : ∀ u, ¬s.scene.Stands (Stage.BringsBack i) u) :
    ∀ u, ¬s'.scene.Stands (Stage.BringsBack i) u := by
  by_cases hl : ∃ id, l = .call (.pool (.restart id))
  · obtain ⟨id, rfl⟩ := hl
    exact unbrought_restart sound named (fun hid => unrestarted (by rw [hid])) step h
  · rintro u ⟨st, hst, back⟩
    cases deed_of_step sound.fresh step with
    | calm _ _ stages => exact h u ⟨st, stages ▸ hst, back⟩
    | stride t w st₀ p m own was adv _ _ stages =>
      rw [stages] at hst
      by_cases hut : u = t
      · subst hut
        rw [Function.update_self] at hst
        obtain rfl := Move.eq_wait hst
        exact h u ⟨st₀, Scene.Sound.stage_of_act was, adv.bringsBack back⟩
      · rw [Function.update_of_ne hut] at hst
        exact h u ⟨st, hst, back⟩
    | begin t call p q dead m n _ _ opening _ may _ _ _ _ stages =>
      rw [stages] at hst
      split at hst
      · by_cases hut : u = t
        · subst hut
          rw [Function.update_self] at hst
          obtain rfl := Move.eq_wait hst
          obtain ⟨id, rfl, -⟩ := opening.bringsBack back
          exact may.elim (fun called => hl ⟨id, called⟩) fun inner => inner
        · rw [Function.update_of_ne hut] at hst
          exact h u ⟨st, hst, back⟩
      · obtain ⟨j, -, rfl⟩ := Option.map_eq_some_iff.mp hst
        exact back

end Services
end NotebookKernels
