import NotebookKernels.Proofs.Service.Counting

/- Who held a slot, and who was counted.

   `held` are the executions that were granted an entry's slot and `counted` those that were counted,
   both in order. A step makes one of the lists longer or neither (`tally_of_step`): while an
   execution has the slot, no other is granted it or counted. So those who were counted were
   counted in the order of the slot, and the count of the kernel is the length of the second list
   (`tallied_run`). -/
namespace NotebookKernels

namespace Phase.Next

variable {φ φ' : Phase} {ex : List Exchange} {i : Nat} {x : Execution} {r : RequestId}

/-- Who is granted a slot has looked for one and does so no longer. -/
theorem of_acquired (h : φ.Next ex φ') (acquired : .acquired i ∈ ex) :
    (∃ x, φ = .acquiring x) ∧ ∀ y, φ' ≠ .acquiring y := by
  cases h with
  | blank x | submit x => exact ⟨⟨x, rfl⟩, by simp⟩
  | stay | refused | rejected | accepted | skip | output | close | fail | removed =>
    simp at acquired

/-- Who has a channel had it before, or is granted the slot. -/
theorem of_channel? (h : φ.Next ex φ') (on : φ'.channel? = some i) :
    φ.channel? = some i ∨ .acquired i ∈ ex := by
  cases h with
  | stay | accepted | skip | output => exact .inl on
  | submit x j =>
    obtain rfl := Option.some.inj on
    exact .inr (List.mem_cons_self ..)
  | refused | blank | rejected | close | fail | removed => cases on

/-- Who looks for a slot has looked for it before. -/
theorem of_acquiring (h : φ.Next ex (.acquiring x)) : φ = .acquiring x := by
  cases h
  rfl

/-- Who reads the item that ends its stream has no channel any more. -/
theorem of_closes (h : Phase.Next (.reading x i r) ex φ') (closes : ex.any (·.closes r) = true) :
    φ'.channel? = none := by
  cases h with
  | stay => simp at closes
  | skip _ _ _ m hm => simp [Exchange.closes, hm, Delivery.closes] at closes
  | output _ _ _ m e hm => simp [Exchange.closes, hm, Delivery.closes] at closes
  | close | fail => rfl

end Phase.Next

namespace Services

variable {config : Config} {catalog : Catalog} {ls : List Label} {s s' d : Services} {l : Label}
  {t u : TaskId} {i : Nat} {φ φ' : Phase} {held counted : List TaskId}

/-! ## One step -/

/-- What a step is to those who use the slot of an entry. -/
inductive Tally (i : Nat) (s : Services) (l : Label) (s' : Services) : Prop
  /-- Nobody is granted the slot, and nobody is counted. -/
  | aside (ungranted : s.granted i l = []) (uncounted : s.counted i l = [])
      (stays : ∀ u φ', s'.phase? u = some φ' → φ'.channel? = some i →
        ∃ φ, s.phase? u = some φ ∧ φ.channel? = some i)
  /-- An execution is granted the slot, and no other uses the channel. -/
  | enters (t : TaskId) (begun : t < s.nextTask) (was : ∃ x, s.phase? t = some (.acquiring x))
      (granted : s.granted i l = [t]) (uncounted : s.counted i l = [])
      (through : ∀ y, s'.phase? t ≠ some (.acquiring y))
      (alone : ∀ u φ', s'.phase? u = some φ' → φ'.channel? = some i → u = t)
  /-- An execution is counted, and no other uses the channel. -/
  | leaves (t : TaskId) (was : ∃ x r, s.phase? t = some (.reading x i r))
      (ungranted : s.granted i l = []) (counted : s.counted i l = [t])
      (empty : ∀ u φ', s'.phase? u = some φ' → φ'.channel? ≠ some i)

theorem filter_toList {α : Type} (o : Option α) (p : α → Bool) :
    o.toList.filter p = [] ∨ ∃ a, o.toList.filter p = [a] := by
  cases o with
  | none => exact .inl rfl
  | some a =>
    by_cases h : p a = true
    · exact .inr ⟨a, by simp [h]⟩
    · exact .inl (by simp [h])

/-- Whoever is granted the slot is the first in its queue. -/
theorem shows_of_granted (run : (init config catalog).run ls = some s)
    (step : s.step l = some s') (h : t ∈ s.granted i l) :
    t < s.nextTask ∧ (s.pool.queue (.slot i)).head? = some t ∧
      ∃ x φ', s.Shows t (.acquiring x) ∧ s'.Shows t φ' ∧ ∀ y, φ' ≠ .acquiring y := by
  have sound := sound_run (sound_init config catalog) run
  obtain ⟨own, ⟨id, executing⟩, acquired⟩ := mem_granted.mp h
  obtain ⟨before, request, sink, during, s₀, rfl, reached, rfl⟩ := begun_of_executing run executing
  have executes := executes_of_begun reached (run_of_begun reached run)
  obtain ⟨φ, shown⟩ := executes.shown
  obtain ⟨φ', shown', next⟩ := next_of_step sound executes.begun shown step
  obtain ⟨⟨x, rfl⟩, through⟩ := next.of_acquired acquired
  have head := (execute_of_acquired own shown step acquired).2.1
  exact ⟨executes.begun, head, x, φ', shown, shown', through⟩

/-- Whoever is counted reads on the channel, and does so no longer. -/
theorem shows_of_counted (run : (init config catalog).run ls = some s)
    (step : s.step l = some s') (h : t ∈ s.counted i l) :
    ∃ x r φ', s.Shows t (.reading x i r) ∧ x.request.silent = false ∧ s'.Shows t φ' ∧
      φ'.channel? = none := by
  have sound := sound_run (sound_init config catalog) run
  obtain ⟨own, w, r, was, loud, closes⟩ := mem_counted.mp h
  cases w with
  | execution x =>
    have reading : s.phase? t = some (.reading x i r) := phase?_of_tasks was
    obtain ⟨request, executes, shown⟩ := executes_of_run run reading rfl
    obtain ⟨φ', shown', next⟩ := next_of_step sound executes.begun shown step
    exact ⟨x, r, φ', shown, by simpa [Work.isLoud] using loud, shown', next.of_closes closes⟩
  | operation | introspection | listing | stream | submission => cases loud

/-- Who uses the channel after a step has used it before, or is granted the slot in the step. -/
theorem channel?_of_step (run : (init config catalog).run ls = some s)
    (step : s.step l = some s') (h : s'.phase? u = some φ') (on : φ'.channel? = some i) :
    (∃ φ, s.phase? u = some φ ∧ φ.channel? = some i) ∨ u ∈ s.granted i l := by
  have sound := sound_run (sound_init config catalog) run
  rcases phase?_of_step run step h (isEnded_of_channel? on) with ⟨hu, φ, shown, next⟩ | ⟨-, x, rfl⟩
  · rcases next.of_channel? on with on | acquired
    · exact .inl ⟨φ, phase?_of_shows shown, on⟩
    · obtain ⟨⟨x, rfl⟩, -⟩ := next.of_acquired acquired
      have own := own_of_exchanges sound hu step (List.ne_nil_of_mem acquired)
      exact .inr (mem_granted.mpr
        ⟨own, executing?_of_phase? (phase?_of_shows shown) rfl, acquired⟩)
  · cases on

theorem tally_of_step (run : (init config catalog).run ls = some s) (step : s.step l = some s') :
    Tally i s l s' := by
  have sound := sound_run (sound_init config catalog) run
  -- whoever uses the channel is the first in the queue of the slot
  have first : ∀ {u φ}, s.phase? u = some φ → φ.channel? = some i →
      (s.pool.queue (.slot i)).head? = some u := fun h on =>
    sound.head_of_slot (slot_of_channel? run h on)
  have grants : s.granted i l = [] ∨ ∃ t, s.granted i l = [t] := filter_toList ..
  have counts : s.counted i l = [] ∨ ∃ t, s.counted i l = [t] := filter_toList ..
  have ungranted : ∀ {t}, s.counted i l = [t] → s.granted i l = [] := by
    intro t counted
    obtain ⟨x, r, φ', shown, -⟩ := shows_of_counted run step (counted ▸ List.mem_singleton_self t)
    refine List.eq_nil_iff_forall_not_mem.mpr fun u hu => ?_
    obtain ⟨-, head, y, ψ, shown', -⟩ := shows_of_granted run step hu
    have reading := phase?_of_shows shown
    obtain rfl := Option.some.inj ((first reading rfl).symm.trans head)
    cases reading.symm.trans (phase?_of_shows shown')
  rcases counts with uncounted | ⟨t, counted⟩
  · rcases grants with idle | ⟨t, granted⟩
    · refine .aside idle uncounted fun u φ' h on => ?_
      exact (channel?_of_step run step h on).resolve_right fun hu => by simp [idle] at hu
    · obtain ⟨begun, head, x, φ', shown, shown', through⟩ :=
        shows_of_granted run step (granted ▸ List.mem_singleton_self t)
      refine .enters t begun ⟨x, phase?_of_shows shown⟩ granted uncounted ?_ ?_
      · intro y hy
        exact through y (eq_of_shows shown' hy)
      · intro u ψ h on
        rcases channel?_of_step run step h on with ⟨φ, h, on⟩ | hu
        · exact Option.some.inj ((first h on).symm.trans head)
        · exact List.mem_singleton.mp (granted ▸ hu)
  · obtain ⟨x, r, φ', shown, -, shown', off⟩ :=
      shows_of_counted run step (counted ▸ List.mem_singleton_self t)
    have reading := phase?_of_shows shown
    refine .leaves t ⟨x, r, reading⟩ (ungranted counted) counted fun u ψ h on => ?_
    rcases channel?_of_step run step h on with ⟨φ, hφ, on'⟩ | hu
    · obtain rfl := Option.some.inj ((first hφ on').symm.trans (first reading rfl))
      obtain rfl := eq_of_shows shown' h
      exact absurd (off.symm.trans on) (by simp)
    · simp [ungranted counted] at hu

/-! ## Runs -/

/-- The account of an entry's slot. -/
structure Tallied (i : Nat) (held counted : List TaskId) (s : Services) : Prop where
  count : s.pool.count i = counted.length
  order : counted.Sublist held
  single : held.Nodup
  past : ∀ t ∈ held, t < s.nextTask ∧ ∀ x, s.phase? t ≠ some (.acquiring x)
  /-- Who uses the channel came last, and only those before it are counted. -/
  seat : ∀ t φ, s.phase? t = some φ → φ.channel? = some i →
    ∃ earlier, held = earlier ++ [t] ∧ counted.Sublist earlier

namespace Tallied

theorem init : Tallied i [] [] (init config catalog) where
  count := rfl
  order := List.Sublist.refl _
  single := List.nodup_nil
  past _ h := by cases h
  seat _ _ h := by cases h

/-- Who has been granted the slot looks for no slot any more. -/
theorem past_step (h : Tallied i held counted s)
    (run : (Services.init config catalog).run ls = some s) (step : s.step l = some s') :
    ∀ t ∈ held, t < s'.nextTask ∧ ∀ x, s'.phase? t ≠ some (.acquiring x) := by
  have sound := sound_run (sound_init config catalog) run
  have hle := Nat.le_trans (nextTask_le_stir s l) (nextTask_le_step sound step)
  intro t ht
  obtain ⟨begun, through⟩ := h.past t ht
  refine ⟨Nat.lt_of_lt_of_le begun hle, fun x hx => ?_⟩
  rcases phase?_of_step run step hx rfl with ⟨-, φ, shown, next⟩ | ⟨rfl, -⟩
  · obtain rfl := next.of_acquiring
    exact through x (phase?_of_shows shown)
  · exact Nat.lt_irrefl _ begun

theorem step (h : Tallied i held counted s) (run : (Services.init config catalog).run ls = some s)
    (step : s.step l = some s')
    (count : s'.pool.count i = s.pool.count i + (s.counted i l).length) :
    Tallied i (held ++ s.granted i l) (counted ++ s.counted i l) s' := by
  have sound := sound_run (sound_init config catalog) run
  have hle := Nat.le_trans (nextTask_le_stir s l) (nextTask_le_step sound step)
  have past := h.past_step run step
  have count' : s'.pool.count i = (counted ++ s.counted i l).length := by
    rw [count, h.count, List.length_append]
  cases tally_of_step (i := i) run step with
  | aside ungranted uncounted stays =>
    rw [ungranted, uncounted, List.append_nil, List.append_nil]
    rw [uncounted, List.append_nil] at count'
    refine ⟨count', h.order, h.single, past, fun t φ' ht on => ?_⟩
    obtain ⟨φ, hφ, on⟩ := stays t φ' ht on
    exact h.seat t φ hφ on
  | enters t begun was granted uncounted through alone =>
    rw [granted, uncounted, List.append_nil]
    rw [uncounted, List.append_nil] at count'
    obtain ⟨x, was⟩ := was
    have new : t ∉ held := fun ht => (h.past t ht).2 x was
    refine ⟨count', h.order.trans (List.sublist_append_left ..), ?_, fun u hu => ?_,
      fun u φ' hu on => ?_⟩
    · exact List.nodup_append.mpr ⟨h.single, List.nodup_singleton t, fun a ha b hb hab =>
        new (List.mem_singleton.mp hb ▸ hab ▸ ha)⟩
    · rcases List.mem_append.mp hu with hu | hu
      · exact past u hu
      · obtain rfl := List.mem_singleton.mp hu
        exact ⟨Nat.lt_of_lt_of_le begun hle, through⟩
    · obtain rfl := alone u φ' hu on
      exact ⟨held, rfl, h.order⟩
  | leaves t was ungranted isCounted empty =>
    rw [isCounted] at count'
    rw [ungranted, isCounted, List.append_nil]
    obtain ⟨x, r, was⟩ := was
    obtain ⟨earlier, rfl, before⟩ := h.seat t _ was rfl
    refine ⟨count', List.Sublist.append before (List.Sublist.refl _), h.single, past, ?_⟩
    exact fun u φ' hu on => absurd on (empty u φ' hu)

end Tallied

/-- In a run nobody restarts the kernel of this entry, and no caller counts on its slot. -/
structure Untouched (i : Nat) (s : Services) (ls : List Label) : Prop where
  unrestarted : .call (.pool (.restart (.fresh i))) ∉ ls
  unrecorded : ∀ before slot during d, ls = before ++ .call (.record slot) :: during →
    s.run before = some d → d.held? slot ≠ some i

namespace Untouched

theorem of_append {ks : List Label} (h : Untouched i s (ls ++ ks)) : Untouched i s ls where
  unrestarted hl := h.unrestarted (List.mem_append_left _ hl)
  unrecorded before slot during d hls run := by
    refine h.unrecorded before slot (during ++ ks) d ?_ run
    rw [hls, List.append_assoc, List.cons_append]

theorem last (h : Untouched i s (ls ++ [l])) (run : s.run ls = some d) :
    l ≠ .call (.pool (.restart (.fresh i))) ∧
      ∀ slot, l = .call (.record slot) → d.held? slot ≠ some i := by
  refine ⟨?_, ?_⟩
  · rintro rfl
    exact h.unrestarted (List.mem_append_right _ (List.mem_singleton_self _))
  · rintro slot rfl
    exact h.unrecorded ls slot [] d rfl run

end Untouched

theorem has_of_receiving {w : Work} {r : RequestId} (run : (init config catalog).run ls = some s)
    (was : s.tasks.get? t = some (.receiving w i r)) (loud : w.isLoud = true) : s.pool.Has i := by
  have sound := sound_run (sound_init config catalog) run
  cases w with
  | execution x =>
    have reading : s.phase? t = some (.reading x i r) := phase?_of_tasks was
    exact sound.has_of_slot (slot_of_channel? run reading rfl)
  | operation | introspection | listing | stream | submission => cases loud

theorem tallied_run (untouched : Untouched i (init config catalog) ls)
    (run : (init config catalog).run ls = some s) :
    Tallied i ((init config catalog).gather (granted i) ls)
      ((init config catalog).gather (Services.counted i) ls) s := by
  have hkeep := run_induction (I := fun ks d => Untouched i (init config catalog) ks →
    (∀ u, ¬d.scene.Stands (Stage.BringsBack i) u) ∧
      Tallied i ((init config catalog).gather (granted i) ks)
        ((init config catalog).gather (Services.counted i) ks) d) ?_ ?_ run untouched
  · exact hkeep.2
  · refine fun _ => ⟨?_, .init⟩
    rintro u ⟨st, hst, -⟩
    cases hst
  · intro before l d d' reached step ih untouched
    obtain ⟨still, tallied⟩ := ih untouched.of_append
    obtain ⟨unrestarted, unrecorded⟩ := untouched.last reached
    have sound := sound_run (sound_init config catalog) reached
    have count := count_of_step still unrecorded
      (fun t w r was loud => has_of_receiving reached was loud) step
    rw [gather_append_singleton reached, gather_append_singleton reached]
    exact ⟨unbrought_step sound (named_run reached) unrestarted step still,
      tallied.step reached step count⟩

end Services
end NotebookKernels
