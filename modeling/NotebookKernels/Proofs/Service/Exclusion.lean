import NotebookKernels.Proofs.Identifier
import NotebookKernels.Proofs.Service.Execution

/- One call at a time uses a kernel's channel.

   All requests of a kernel share one event queue, and whoever reads it throws away what is not meant for
   it. So an overlap of two calls would lose output. As long as callers use no channel by themselves, only
   the task with the slot uses it, and there is one slot for each kernel. Then whatever leaves the queue
   while an execution runs is taken by that execution, in the order in which it came. -/
namespace NotebookKernels

open Function (update)

/-! ## Slots and channels -/

namespace Scene

variable {l : Label} {t u : TaskId} {c c' : Scene} {i : Nat}

/-- Only the task with the slot uses the channel of this entry. -/
def Private (i : Nat) (c : Scene) : Prop :=
  ∀ t a, c.act t = some a → a.channel? = some i → c.slot t = some i

theorem Private.congr (h : c.Private i)
    (act : ∀ u a, c'.act u = some a → a.channel? = some i → c.act u = some a)
    (slot : ∀ u a, c.act u = some a → a.channel? = some i → c'.slot u = c.slot u) :
    c'.Private i := by
  intro u a hu ha
  have hold := act u a hu ha
  exact (slot u a hold ha).trans (h u a hold ha)

/-- A move inside the pool uses no channel, and takes no slot away. -/
theorem Private.goOn (h : c.Private i) (ht : ∀ a, c.act t = some a → a.channel? = none) (w : Work)
    (p : Pool) (m : Move) : (c.goOn t w p m).Private i := by
  refine h.congr (fun u a hu ha => ?_) fun u a hu ha => ?_
  · by_cases hut : u = t
    · subst hut
      simp only [Scene.goOn, Function.update_self] at hu
      obtain ⟨s, -, rfl⟩ := Option.map_eq_some_iff.mp hu
      cases ha
    · exact (Function.update_of_ne hut _ _).symm.trans hu
  · have hut : u ≠ t := by
      rintro rfl
      exact absurd ((ht a hu).symm.trans ha) (by simp)
    simp only [Scene.goOn]
    cases m.slot? with
    | none => rfl
    | some j => exact Function.update_of_ne hut _ _

/-- A turn keeps a channel private, if no caller uses it by itself. -/
theorem Private.turn (h : c.Private i) (indirect : l.direct? ≠ some i) (turn : Turn l t c c') :
    c'.Private i := by
  cases turn with
  | rise a =>
    refine h.congr (fun u b hu _ => ?_) fun _ _ _ _ => rfl
    by_cases hut : u = t
    · rw [hut] at hu
      exact absurd ((Function.update_self ..).symm.trans hu) (by simp)
    · exact (Function.update_of_ne hut _ _).symm.trans hu
  | carry a risen outside holds =>
    intro u b hu hb
    by_cases hut : u = t
    · subst hut
      obtain rfl : a = b := by simpa [setAct] using hu
      exact (holds i hb).resolve_right indirect
    · exact h u b ((Function.update_of_ne hut _ _).symm.trans hu) hb
  | shift a b was outside still same =>
    intro u d hu hd
    by_cases hut : u = t
    · subst hut
      obtain rfl : b = d := by simpa [setAct] using hu
      exact h u a was (same.symm.trans hd)
    · exact h u d ((Function.update_of_ne hut _ _).symm.trans hu) hd
  | count | reply => exact h
  | drop u j ended =>
    refine h.congr (fun _ _ hv _ => hv) fun v a hv _ => Function.update_of_ne ?_ _ _
    rintro rfl
    exact absurd (ended.symm.trans hv) (by simp)
  | advance w s p m was =>
    refine h.goOn (fun a ha => ?_) w p m
    obtain rfl := Option.some.inj (was.symm.trans ha)
    rfl
  | begin w call p dead m may risen =>
    refine h.goOn (fun a ha => ?_) w p m
    exact absurd (risen.symm.trans ha) (by simp)
  | reap j =>
    refine h.congr (fun u a hu ha => ?_) fun _ _ _ _ => rfl
    by_cases hun : u = c.next
    · subst hun
      have hnew := (Function.update_self ..).symm.trans hu
      obtain rfl := Option.some.inj hnew
      cases ha
    · exact (Function.update_of_ne hun _ _).symm.trans hu

theorem Turn.mail_eq (turn : Turn l t c c') : c'.pool.mail i = c.pool.mail i := by
  cases turn with
  | rise | carry | shift | reply | reap => rfl
  | count => exact Pool.mail_congr (Pool.outer_touch Pool.outer_mail _)
  | drop =>
    exact Pool.mail_congr ((Pool.outer_releaseSlot Pool.outer_mail).trans
      (Pool.outer_touch Pool.outer_mail _))
  | advance _ _ _ _ _ step => exact step.mail_eq
  | begin _ _ _ _ _ _ _ _ step => exact step.mail_eq

end Scene

/-! ## Traffic -/

/-- What happens to an event queue. -/
inductive Traffic where
  /-- The worker sends an item. -/
  | queued (m : Mail)
  /-- A task takes the first item. -/
  | taken (t : TaskId) (m : Mail)
  /-- The worker is replaced, and what its queue held is lost. -/
  | replaced
  deriving DecidableEq, Repr

namespace Traffic

/-- The item that a task takes. -/
def taken? : Traffic → Option Mail
  | .taken _ m => some m
  | .queued _ | .replaced => none

/-- What has been sent to the present queue. -/
def sent (q : List Mail) : Traffic → List Mail
  | .queued m => q ++ [m]
  | .taken .. => q
  | .replaced => []

/-- What has been taken from the present queue. -/
def got (q : List Mail) : Traffic → List Mail
  | .queued _ => q
  | .taken _ m => q ++ [m]
  | .replaced => []

/-- What has been taken from the present queue was the last that has been taken. -/
theorem got_suffix (tr : List Traffic) (q : List Mail) :
    tr.foldl got q <:+ q ++ tr.filterMap taken? := by
  induction tr generalizing q with
  | nil => exact (List.append_nil q).symm ▸ List.suffix_refl q
  | cons x tr ih =>
    cases x with
    | queued => exact ih q
    | taken _ m =>
      have h := ih (q ++ [m])
      rwa [List.append_assoc] at h
    | replaced => exact (ih []).trans (List.suffix_append q _)

end Traffic

namespace Services

open Scene

variable {s s' : Services} {t u : TaskId} {l : Label} {i : Nat} {ls : List Label}

/-- What happens to an entry's event queue in a step. -/
def traffic (i : Nat) (s : Services) : Label → List Traffic
  | .resume t => match s.tasks.get? t with
    | some (.receiving _ j _) => if j = i then (s.pool.mail i).head?.toList.map (.taken t) else []
    | _ => []
  | .deliver j m => if j = i then [.queued m] else []
  | .renew j => if j = i then [.replaced] else []
  | .call _ | .answer .. | .submitted .. | .replied .. | .expire _ | .alive .. | .pass _ => []

/-- Only a task that waits for an item takes one. -/
theorem receiving_of_taken {m : Mail} (h : .taken u m ∈ s.traffic i l) :
    l = .resume u ∧ ∃ w r, s.tasks.get? u = some (.receiving w i r) := by
  cases l with
  | resume v =>
    simp only [traffic] at h
    split at h
    · next w j r hv =>
      split at h
      · next hj =>
        obtain ⟨n, -, hn⟩ := List.mem_map.mp h
        obtain ⟨rfl, rfl⟩ := Traffic.taken.inj hn
        exact ⟨rfl, w, r, hj ▸ hv⟩
      · cases h
    · cases h
  | deliver j n =>
    simp only [traffic] at h
    split at h <;> simp at h
  | renew j =>
    simp only [traffic] at h
    split at h <;> simp at h
  | call | answer | submitted | replied | expire | alive | pass => cases h

/-! ## First in, first out -/

/-- One step of an event queue. -/
theorem mail_stir (has : s.pool.Has i) {q g : List Mail} (h : q = g ++ s.pool.mail i) :
    (s.traffic i l).foldl Traffic.sent q =
      (s.traffic i l).foldl Traffic.got g ++ (s.stir l).pool.mail i := by
  -- all but three labels leave every queue alone
  have still : (s.stir l).pool.mail i = s.pool.mail i → s.traffic i l = [] →
      (s.traffic i l).foldl Traffic.sent q =
        (s.traffic i l).foldl Traffic.got g ++ (s.stir l).pool.mail i := by
    intro hmail htr
    rw [hmail, htr]
    exact h
  cases l with
  | resume t =>
    by_cases hact : ∃ w j r, s.tasks.get? t = some (.receiving w j r)
    · obtain ⟨w, j, r, hact⟩ := hact
      have hstir : (s.stir (.resume t)).pool.mail i =
          if j = i then (s.pool.mail i).tail else s.pool.mail i := by
        simp only [stir, hact]
        exact Pool.mail_modify_mail List.tail has
      by_cases hj : j = i
      · rw [if_pos hj] at hstir
        simp only [traffic, hact, if_pos hj, hstir]
        cases hm : s.pool.mail i with
        | nil => rwa [hm] at h
        | cons m ms =>
          rw [hm] at h
          simpa [Traffic.sent, Traffic.got] using h
      · rw [if_neg hj] at hstir
        exact still hstir (by simp only [traffic, hact, if_neg hj])
    · have hother : s.stir (.resume t) = s ∧ s.traffic i (.resume t) = [] := by
        constructor
        · simp only [stir]
          split
          · next w j r ha => exact absurd ⟨w, j, r, ha⟩ hact
          · rfl
        · simp only [traffic]
          split
          · next w j r ha => exact absurd ⟨w, j, r, ha⟩ hact
          · rfl
      exact still (by rw [hother.1]) hother.2
  | deliver j m =>
    have hstir : (s.stir (.deliver j m)).pool.mail i =
        if j = i then s.pool.mail i ++ [m] else s.pool.mail i :=
      Pool.mail_modify_mail (· ++ [m]) has
    by_cases hj : j = i
    · rw [if_pos hj] at hstir
      rw [hstir, traffic, if_pos hj, h]
      exact List.append_assoc ..
    · rw [if_neg hj] at hstir
      exact still hstir (by rw [traffic, if_neg hj])
  | renew j =>
    have hstir : (s.stir (.renew j)).pool.mail i = if j = i then [] else s.pool.mail i :=
      Pool.mail_modify_mail (fun _ => []) has
    by_cases hj : j = i
    · rw [if_pos hj] at hstir
      rw [hstir, traffic, if_pos hj]
      rfl
    · rw [if_neg hj] at hstir
      exact still hstir (by rw [traffic, if_neg hj])
  | alive => exact still (Pool.mail_modify fun _ => rfl) rfl
  | call | answer | submitted | replied | expire | pass => exact still rfl rfl

/-- An event queue is a queue: what has been sent to it is what has been taken from it and what is
still in it, in one order. -/
theorem mail_run (sound : s.scene.Sound) (has : s.pool.Has i) (run : s.run ls = some s') :
    (s.gather (traffic i) ls).foldl Traffic.sent (s.pool.mail i) =
      (s.gather (traffic i) ls).foldl Traffic.got [] ++ s'.pool.mail i := by
  have hkeep := run_gathers (f := traffic i) (P := fun _ => True)
    (I := fun seen d => d.scene.Sound ∧ d.pool.Has i ∧
      seen.foldl Traffic.sent (s.pool.mail i) = seen.foldl Traffic.got [] ++ d.pool.mail i)
    ?_ (fun _ _ => trivial) [] ⟨sound, has, rfl⟩ run
  · exact hkeep.2.2
  · rintro seen d l d' - ⟨sound, has, h⟩ step
    obtain ⟨sound', has', hmail⟩ := step_keeps (I := fun c => c.pool.Has i ∧
        c.pool.mail i = (d.stir l).pool.mail i) sound step
      ⟨((alike_stir d l).has i).mpr has, rfl⟩ fun c c' _ _ turn hc =>
        ⟨turn.has_mono hc.1, turn.mail_eq.trans hc.2⟩
    refine ⟨sound', has', ?_⟩
    have hmail' : d'.pool.mail i = (d.stir l).pool.mail i := hmail
    rw [List.foldl_append, List.foldl_append, hmail']
    exact mail_stir has h

/-! ## One task at a time -/

/-- No other task uses the channel of this entry. -/
def Alone (s : Services) (t : TaskId) (i : Nat) : Prop :=
  ∀ u a, s.tasks.get? u = some a → a.channel? = some i → u = t

theorem private_step (sound : s.scene.Sound) (h : s.scene.Private i)
    (indirect : l.direct? ≠ some i) (step : s.step l = some s') :
    s'.scene.Sound ∧ s'.scene.Private i := by
  have stirred : (s.stir l).scene.Private i := by
    rw [scene_stir]
    exact h
  exact step_keeps sound step stirred fun _ _ _ _ turn hc => hc.turn indirect turn

theorem private_run (sound : s.scene.Sound) (h : s.scene.Private i)
    (indirect : ∀ l ∈ ls, l.direct? ≠ some i) (run : s.run ls = some s') :
    s'.scene.Sound ∧ s'.scene.Private i :=
  run_keeps (I := fun s => s.scene.Sound ∧ s.scene.Private i) (P := fun l => l.direct? ≠ some i)
    (fun _ _ _ hl h step => private_step h.1 h.2 hl step) indirect ⟨sound, h⟩ run

theorem alone_of_private {a : Activity} (sound : s.scene.Sound) (h : s.scene.Private i)
    (ht : s.tasks.get? t = some a) (ha : a.channel? = some i) : s.Alone t i := by
  intro u b hu hb
  exact sound.slot_inj (h u b hu hb) (h t a ht ha)

end Services

/-- The item that an execution receives. -/
def Exchange.received? : Exchange → Option Mail
  | .received m => some m
  | .acquired _ | .refused _ | .submitted .. | .accepted _ | .rejected _ => none

theorem Move.received_exchanges (m : Move) : m.exchanges.filterMap Exchange.received? = [] := by
  unfold exchanges
  split <;> rfl

namespace Services

open Scene

variable {s s' : Services} {t u : TaskId} {l : Label} {i : Nat} {ls : List Label}

theorem received_submits (a b : Option Activity) :
    (submits a b).filterMap Exchange.received? = [] := by
  unfold submits
  split <;> rfl

/-- As long as a task is alone and does not receive, nothing is taken. -/
theorem taken_eq_nil (alone : s.Alone t i)
    (h : l = .resume t → ∀ w r, s.tasks.get? t ≠ some (.receiving w i r)) :
    (s.traffic i l).filterMap Traffic.taken? = [] := by
  refine List.filterMap_eq_nil_iff.mpr fun x hx => ?_
  cases x with
  | queued | replaced => rfl
  | taken u m =>
    obtain ⟨hl, w, r, hu⟩ := receiving_of_taken hx
    obtain rfl := alone u _ hu rfl
    exact absurd hu (h hl w r)

/-- As long as a task is alone, it receives just what is taken from the queue, or learns that the
transport failed. -/
theorem taken_eq_received {a : Activity} (alone : s.Alone t i) (ht : s.tasks.get? t = some a)
    (ha : a.channel? = some i) (step : s.step l = some s') :
    (s.traffic i l).filterMap Traffic.taken? =
      (s.exchanges t l).filterMap Exchange.received? ∨
    ∃ f, .received (.failure f) ∈ s.exchanges t l := by
  rw [exchanges_of_step step, List.filterMap_append, received_submits, List.append_nil]
  unfold told
  split
  · left
    split
    · rw [Move.received_exchanges]
      rfl
    · rfl
  · next hpool =>
    obtain rfl := Option.some.inj (ht.symm.trans hpool)
    cases ha
  · next u w j r hrec =>
    obtain rfl := Option.some.inj (ht.symm.trans hrec)
    obtain rfl := Option.some.inj ha
    left
    split
    · next hu =>
      subst hu
      simp only [traffic, ht, if_true]
      cases (s.pool.mail j).head? <;> rfl
    · next hu =>
      exact taken_eq_nil alone fun hl => absurd (Label.resume.inj hl) hu
  · next hpool =>
    obtain rfl := Option.some.inj (ht.symm.trans hpool)
    cases ha
  · left
    split <;> rfl
  · split
    · next f _ _ _ _ _ => exact .inr ⟨f, by simp⟩
    · exact .inl rfl
  · left
    split <;> rfl
  · next hrec _ _ _ _ =>
    -- nothing is told to the task, so it is not the one that takes
    left
    apply taken_eq_nil alone
    intro hl w r h
    exact hrec t w i r hl h

end Services

/-! ## From the submission to the end of the stream -/

namespace Phase

/-- The execution is through with its stream. -/
def Past : Phase → Prop
  | .removing _ | .ended .. => True
  | .acquiring _ | .submitting .. | .reading .. => False

theorem Past.next {φ φ' : Phase} {ex : List Exchange} (h : φ.Past) (hn : φ.Next ex φ') : φ'.Past := by
  cases hn with
  | stay => exact h
  | removed => trivial
  | refused | blank | submit | rejected | accepted | skip | output | close | fail =>
    exact False.elim h

end Phase

/-- What an execution that submits as `x` has made of the traffic since then. -/
inductive Window (x : Execution) (t : TaskId) (i : Nat) : List Traffic → Phase → Prop
  | submitting (code : Code) (tr : List Traffic) (own : ∀ u m, .taken u m ∈ tr → u = t)
      (h : tr.filterMap Traffic.taken? = []) : Window x t i tr (.submitting x i code)
  | reading (y : Execution) (r : RequestId) (tr : List Traffic)
      (own : ∀ u m, .taken u m ∈ tr → u = t)
      (h : y.result.outputs = x.result.outputs ++ eventsFor r (tr.filterMap Traffic.taken?)) :
      Window x t i tr (.reading y i r)
  | past (tr : List Traffic) (φ : Phase) (h : φ.Past) : Window x t i tr φ

namespace Window

variable {x : Execution} {t : TaskId} {i : Nat} {tr tr' : List Traffic} {φ φ' : Phase}
  {ex : List Exchange}

/-- Until its stream has ended, the execution uses the channel. -/
theorem activity {s : Services} (h : Window x t i tr φ) (live : ¬φ.Past) (hs : s.Shows t φ) :
    ∃ a, s.tasks.get? t = some a ∧ a.channel? = some i := by
  cases h with
  | submitting => exact ⟨_, hs.2, rfl⟩
  | reading =>
    obtain ⟨-, hs | hs⟩ := hs
    · exact ⟨_, hs, rfl⟩
    · exact ⟨_, hs, rfl⟩
  | past _ _ hp => exact absurd hp live

/-- An item that does not end the stream is no failure, so it has been taken from the queue. -/
theorem taken_of_going {r : RequestId} {m : Mail} (hm : (m.deliveryFor r).closes = false)
    (heard : tr.filterMap Traffic.taken? = [Exchange.received m].filterMap Exchange.received? ∨
      ∃ f, Exchange.received (.failure f) ∈ [Exchange.received m]) :
    tr.filterMap Traffic.taken? = [m] := by
  rcases heard with heard | ⟨f, hf⟩
  · exact heard
  · obtain rfl := Exchange.received.inj (List.mem_singleton.mp hf)
    cases hm

theorem next (h : Window x t i tr φ) (hn : φ.Next ex φ')
    (own' : ¬φ.Past → ∀ u m, .taken u m ∈ tr' → u = t)
    (heard : ¬φ.Past → tr'.filterMap Traffic.taken? = ex.filterMap Exchange.received? ∨
      ∃ f, .received (.failure f) ∈ ex) : Window x t i (tr ++ tr') φ' := by
  have owned : (∀ u m, .taken u m ∈ tr → u = t) → ¬φ.Past →
      ∀ u m, .taken u m ∈ tr ++ tr' → u = t := by
    intro own live u m hm
    exact (List.mem_append.mp hm).elim (own u m) (own' live u m)
  cases h with
  | past _ _ hp => exact .past _ _ (hp.next hn)
  | submitting code _ own h =>
    have own := owned own id
    have heard := heard id
    cases hn with
    | stay =>
      refine .submitting code _ own ?_
      have htr := heard.resolve_right (by simp)
      rw [List.filterMap_append, h, htr]
      rfl
    | rejected => exact .past _ _ trivial
    | accepted _ _ _ r =>
      refine .reading x r _ own ?_
      have htr := heard.resolve_right (by simp)
      rw [List.filterMap_append, h, htr]
      exact (List.append_nil _).symm
  | reading y r _ own h =>
    have own := owned own id
    have heard := heard id
    cases hn with
    | stay =>
      refine .reading y r _ own ?_
      have htr := heard.resolve_right (by simp)
      rw [List.filterMap_append, htr, h]
      simp
    | skip _ _ _ m hm =>
      refine .reading y r _ own ?_
      rw [List.filterMap_append, taken_of_going (by rw [hm]; rfl) heard, eventsFor_append,
        eventsFor_singleton, hm, h]
      exact (congrArg _ (List.append_nil _)).symm
    | output _ _ _ m e hm =>
      refine .reading (y.take e) r _ own ?_
      rw [List.filterMap_append, taken_of_going (by rw [hm]; rfl) heard, eventsFor_append,
        eventsFor_singleton, hm, ← List.append_assoc, ← h]
      rfl
    | close => exact .past _ _ trivial
    | fail => exact .past _ _ trivial

end Window

namespace Services

open Scene

variable {s s' : Services} {t : TaskId} {i : Nat} {ls : List Label} {x : Execution} {code : Code}

/-- An execution that is through with its stream stays so. -/
theorem past_run {φ : Phase} (sound : s.scene.Sound) (ht : t < s.nextTask) (h : s.Shows t φ)
    (past : φ.Past) (run : s.run ls = some s') : ∃ φ', s'.Shows t φ' ∧ φ'.Past := by
  have hkeep := shows_run (f := exchanges t) (P := fun _ => True) (K := fun _ => True)
    (J := fun _ φ => φ.Past) (fun _ _ _ _ _ _ _ => trivial)
    (fun _ _ _ _ _ _ _ _ _ _ _ hnext past => past.next hnext) (fun _ _ => trivial) sound ht trivial
    [] h past run
  exact hkeep.2

/-- What an execution has made of the traffic, from its submission on. -/
theorem window_run (sound : s.scene.Sound) (hp : s.scene.Private i)
    (hx : s.tasks.get? t = some (.submitting (.execution x) i code))
    (indirect : ∀ l ∈ ls, l.direct? ≠ some i) (run : s.run ls = some s') :
    t < s'.nextTask ∧ ∃ φ, s'.Shows t φ ∧ Window x t i (s.gather (traffic i) ls) φ := by
  have start : Window x t i [] (.submitting x i code) :=
    .submitting code [] (fun _ _ h => absurd h List.not_mem_nil) rfl
  have shows_ : s.Shows t (.submitting x i code) := ⟨sound.fresh.owed t _ hx, hx⟩
  refine shows_run (f := traffic i) (P := fun l => l.direct? ≠ some i)
    (K := fun s => s.scene.Private i) (J := Window x t i) ?_ ?_ indirect sound
    (sound.fresh.lt_of_act hx) hp [] shows_ start run
  · intro s l s' hl sound hp step
    exact (private_step sound hp hl step).2
  · intro seen d l d' φ φ' hl sound hp hφ step hn window
    refine window.next hn ?_ ?_
    · intro live u m hm
      obtain ⟨a, ha, hai⟩ := window.activity live hφ
      obtain ⟨-, w, r, hu⟩ := receiving_of_taken hm
      exact alone_of_private sound hp ha hai u _ hu rfl
    · intro live
      obtain ⟨a, ha, hai⟩ := window.activity live hφ
      exact taken_eq_received (alone_of_private sound hp ha hai) ha hai step

/-- The task has the channel of this entry to itself in these steps, and takes all that it brings. -/
structure Undisturbed (t : TaskId) (i : Nat) (s : Services) (ls : List Label) (s' : Services) :
    Prop where
  /-- It uses the channel all the time, and nobody else ever does. -/
  alone : ∀ before after d, ls = before ++ after → s.run before = some d →
    (∃ a, d.tasks.get? t = some a ∧ a.channel? = some i) ∧ d.Alone t i
  /-- Whatever is taken from the event queue, it takes. -/
  own : ∀ u m, .taken u m ∈ s.gather (traffic i) ls → u = t
  /-- Last it has taken all that was sent to the present queue and is not in it any more. -/
  kept : ∃ ms, ms <:+ (s.gather (traffic i) ls).filterMap Traffic.taken? ∧
    (s.gather (traffic i) ls).foldl Traffic.sent (s.pool.mail i) = ms ++ s'.pool.mail i

/-- An execution that still reads its stream has been undisturbed since it submitted. -/
theorem undisturbed_run {y : Execution} {j : Nat} {r : RequestId} (sound : s.scene.Sound)
    (hp : s.scene.Private i) (hx : s.tasks.get? t = some (.submitting (.execution x) i code))
    (indirect : ∀ l ∈ ls, l.direct? ≠ some i) (run : s.run ls = some s')
    (hy : s'.tasks.get? t = some (.receiving (.execution y) j r)) :
    j = i ∧ Undisturbed t i s ls s' ∧
      y.result.outputs =
        x.result.outputs ++ eventsFor r ((s.gather (traffic i) ls).filterMap Traffic.taken?) := by
  have notPast : ∀ {φ}, s'.Shows t φ → ¬φ.Past := by
    intro φ hφ past
    cases φ with
    | removing =>
      obtain ⟨-, stage, hst, -⟩ := hφ
      exact absurd (hst.symm.trans hy) (by simp)
    | ended => exact absurd (hφ.2.symm.trans hy) (by simp)
    | acquiring | submitting | reading => exact past
  obtain ⟨-, φ, hφ, window⟩ := window_run sound hp hx indirect run
  have alone : ∀ before after d, ls = before ++ after → s.run before = some d →
      (∃ a, d.tasks.get? t = some a ∧ a.channel? = some i) ∧ d.Alone t i := by
    rintro before after d rfl hbefore
    have hind : ∀ l ∈ before, l.direct? ≠ some i := fun l hl =>
      indirect l (List.mem_append_left after hl)
    obtain ⟨sound', hp'⟩ := private_run sound hp hind hbefore
    obtain ⟨ht, ψ, hψ, window'⟩ := window_run sound hp hx hind hbefore
    rw [run_append, hbefore] at run
    -- a stream that had ended by then would not be read now
    have live : ¬ψ.Past := by
      intro past
      obtain ⟨φ', hφ', past'⟩ := past_run sound' ht hψ past run
      exact notPast hφ' past'
    obtain ⟨a, ha, hai⟩ := window'.activity live hψ
    exact ⟨⟨a, ha, hai⟩, alone_of_private sound' hp' ha hai⟩
  cases window with
  | past _ _ past => exact absurd past (notPast hφ)
  -- the request is known by now
  | submitting => exact absurd (hφ.2.symm.trans hy) (by simp)
  | reading z q _ own outputs =>
    obtain ⟨-, hz | hz⟩ := hφ
    · obtain ⟨hw, rfl, rfl⟩ := Activity.receiving.inj (Option.some.inj (hz.symm.trans hy))
      obtain rfl := Work.execution.inj hw
      have has := sound.has_of_slot (hp t _ hx rfl)
      refine ⟨rfl, ⟨alone, own, _, ?_, mail_run sound has run⟩, outputs⟩
      exact Traffic.got_suffix _ []
    · exact absurd (hz.symm.trans hy) (by simp)

/-- Whatever the callers, the workers and the order of the steps: a kernel has one slot at a time.
And as long as no caller uses a channel by itself, one task at a time uses it. An execution that has
submitted and still reads its stream has been undisturbed, and its output is what it has taken. So
when it comes to the item that ends the stream, it has received all that was queued before it. -/
theorem channel_exclusive (config : Config) (catalog : Catalog) (ls : List Label) (s : Services)
    (run : (init config catalog).run ls = some s) :
    (∀ t u i j, s.slots.get? t = some i → s.slots.get? u = some j →
      s.pool.idOf i = s.pool.idOf j → t = u) ∧
    ∀ i, (∀ l ∈ ls, l.direct? ≠ some i) →
      (∀ t u a b, s.tasks.get? t = some a → s.tasks.get? u = some b →
        a.channel? = some i → b.channel? = some i → t = u) ∧
      ∀ t x code during s' y j r, s.tasks.get? t = some (.submitting (.execution x) i code) →
        (∀ l ∈ during, l.direct? ≠ some i) → s.run during = some s' →
        s'.tasks.get? t = some (.receiving (.execution y) j r) →
        j = i ∧ Undisturbed t i s during s' ∧
          y.result.outputs = x.result.outputs ++
            eventsFor r ((s.gather (traffic i) during).filterMap Traffic.taken?) := by
  have sound := sound_run (sound_init config catalog) run
  refine ⟨?_, fun i indirect => ?_⟩
  · intro t u i j ht hu hid
    have named := named_run run
    have hi := sound.has_of_slot ht
    have hj := sound.has_of_slot hu
    have hij : KernelId.fresh i = KernelId.fresh j := by
      have ei := (Pool.id?_eq_idOf hi).symm.trans (named i hi)
      have ej := (Pool.id?_eq_idOf hj).symm.trans (named j hj)
      exact (Option.some.inj ei).symm.trans (hid.trans (Option.some.inj ej))
    obtain rfl := KernelId.fresh_injective hij
    exact sound.slot_inj ht hu
  · have hinit : (init config catalog).scene.Private i := fun _ _ h => by cases h
    obtain ⟨-, hp⟩ := private_run (sound_init config catalog) hinit indirect run
    refine ⟨?_, ?_⟩
    · intro t u a b ht hu ha hb
      exact (alone_of_private sound hp hu hb) t a ht ha
    · intro t x code during s' y j r hx hind hrun hy
      exact undisturbed_run sound hp hx hind hrun hy

/-- While code prints, somebody else asks for the variables of the kernel. -/
def crowding : List Label :=
  [.call (.introspect (.fresh 0)), .resume 2, .submitted 1 ⟨"r"⟩,
    .deliver 0 (.message ⟨some ⟨"r"⟩, "stream",
      .object [("name", .string "stdout"), ("text", .string "hi")]⟩),
    .deliver 0 (.message ⟨some ⟨"r"⟩, "status", .object [("execution_state", .string "idle")]⟩),
    .resume 1]

/-- What the code printed is in its output when it comes to the end of its stream. -/
theorem channel_exclusive_crowding :
    ∃ s s' y, (init { } [.python3]).run (booting ++ printing.take 3) = some s ∧
      s.run crowding = some s' ∧ s'.tasks.get? 1 = some (.receiving (.execution y) 0 ⟨"r"⟩) ∧
      y.result.outputs = [.stdout "hi"] ∧ Undisturbed 1 0 s crowding s' := by
  have h : ((init { } [.python3]).run (booting ++ printing.take 3)).bind (fun s =>
      (s.run crowding).map fun s' => (s.tasks.get? 1, s'.tasks.get? 1)) =
      some (some (.submitting (.execution printer) 0 printer.request.toSubmit),
        some (.receiving (.execution (printer.take (.stdout "hi"))) 0 ⟨"r"⟩)) := by
    decide
  obtain ⟨s, run, h⟩ := Option.bind_eq_some_iff.mp h
  obtain ⟨s', hrun, h⟩ := Option.map_eq_some_iff.mp h
  obtain ⟨hx, hy⟩ := Prod.mk.inj h
  have indirect : (∀ l ∈ booting ++ printing.take 3, l.direct? ≠ some 0) ∧
      ∀ l ∈ crowding, l.direct? ≠ some 0 := by
    decide
  obtain ⟨-, windows⟩ := (channel_exclusive { } [.python3] _ s run).2 0 indirect.1
  obtain ⟨-, undisturbed, -⟩ := windows 1 _ _ crowding s' _ 0 ⟨"r"⟩ hx indirect.2 hrun hy
  exact ⟨s, s', _, run, hrun, hy, rfl, undisturbed⟩

end Services

end NotebookKernels
