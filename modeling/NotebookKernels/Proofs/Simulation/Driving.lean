import NotebookKernels.Simulation.Run
import NotebookKernels.Proofs.Service.History

/- The driver of a simulation only lets the services take steps.

   Whatever the world does, and in whatever order the driver takes up its jobs, the services go through
   a run of their own. So what every run keeps holds in every simulation. -/
namespace NotebookKernels.Simulation

variable {σ τ : Type} {w : World σ τ} {m m' m₁ : Simulation σ τ} {t : TaskId}

/-- The services of the second simulation are where a run leads those of the first. -/
def Follows (m m' : Simulation σ τ) : Prop := ∃ ls, m.services.run ls = some m'.services

namespace Follows

theorem of_eq (h : m'.services = m.services) : m.Follows m' := ⟨[], congrArg some h.symm⟩

/-- Only the services of the first simulation matter. -/
theorem of_services (h : m₁.Follows m') (same : m₁.services = m.services) : m.Follows m' := by
  obtain ⟨ls, run⟩ := h
  exact ⟨ls, same ▸ run⟩

theorem refl (m : Simulation σ τ) : m.Follows m := of_eq rfl

theorem trans (h : m.Follows m₁) (h' : m₁.Follows m') : m.Follows m' := by
  obtain ⟨ls, run⟩ := h
  obtain ⟨ks, run'⟩ := h'
  exact ⟨ls ++ ks, by rw [Services.run_append, run, Option.bind_some, run']⟩

end Follows

/-! ## One step -/

theorem follows_step? {l : Label} (h : m.step? w l = some m') : m.Follows m' := by
  obtain ⟨services, step, rfl⟩ := Option.map_eq_some_iff.mp h
  exact ⟨[l], (Services.run_cons step).trans rfl⟩

theorem follows_step (w : World σ τ) (m : Simulation σ τ) (l : Label) : m.Follows (m.step w l) := by
  unfold step
  cases h : m.step? w l with
  | none => exact .refl m
  | some m' => exact follows_step? h

theorem follows_turn {l : Label} (h : m.turn w t l = some m') : m.Follows m' :=
  (follows_step? h).of_services rfl

theorem follows_serve (w : World σ τ) (m : Simulation σ τ) (k : Ticket) (l : Label) :
    m.Follows (m.serve w k l) := by
  unfold serve
  split
  · split
    · next m' h =>
      split
      · exact follows_turn h
      · exact (follows_turn h).trans (.of_eq rfl)
    · exact .refl m
  · exact .refl m

theorem follows_answer (w : World σ τ) (m : Simulation σ τ) (k : Ticket) (a : Answer) :
    m.Follows (m.answer w k a) := by
  unfold answer
  split
  · exact follows_serve w m k _
  · exact .of_eq rfl

/-! ## What the world does -/

theorem follows_effect (w : World σ τ) (m : Simulation σ τ) (e : Effect τ) :
    m.Follows (m.effect w e) := by
  cases e with
  | answer k a => exact follows_answer w m k a
  | submitted k r => exact follows_serve w m k _
  | replied k v => exact follows_serve w m k _
  | alive i b => exact follows_step w m _
  | deliver i mail => exact follows_step w m _
  | renew i => exact follows_step w m _
  | after delay token => exact .of_eq rfl
  | soon token => exact .of_eq rfl

theorem follows_effects (w : World σ τ) (effects : List (Effect τ)) (m : Simulation σ τ) :
    m.Follows (effects.foldl (effect w) m) := by
  induction effects generalizing m with
  | nil => exact .refl m
  | cons e effects ih => exact (follows_effect w m e).trans (ih _)

theorem follows_act (w : World σ τ) (m : Simulation σ τ) (r : σ × List (Effect τ)) :
    m.Follows (m.act w r) :=
  (follows_effects w r.2 _).of_services rfl

/-! ## Tasks and jobs -/

theorem follows_limitWait (w : World σ τ) (m : Simulation σ τ) (k : Ticket) (limit : Span) :
    m.Follows (m.limitWait w k limit) := by
  unfold limitWait
  split
  · exact follows_answer w m k _
  · exact .of_eq rfl

theorem follows_beginWait (w : World σ τ) (m : Simulation σ τ) (t : TaskId) (a : Activity) :
    m.Follows (m.beginWait w t a) := by
  -- before anything happens it is noted down that the wait has begun
  let begun : Simulation σ τ := { m with progress := m.progress.set t ⟨(m.ticket t).turn, true⟩ }
  suffices h : begun.Follows (m.beginWait w t a) from h.of_services rfl
  cases a with
  | pool work stage =>
    simp only [beginWait]
    split
    · exact .refl _
    · split
      · exact (follows_act w _ _).trans (follows_limitWait w _ _ _)
      · exact follows_act w _ _
  | submitting work i code => exact follows_act w _ _
  | querying i request => exact follows_act w _ _
  | receiving work i r =>
    simp only [beginWait]
    split
    · exact follows_answer w _ _ _
    · split
      · split
        · exact .of_eq rfl
        · exact (follows_serve w _ _ _).of_services rfl
      · exact .of_eq rfl
  | pausing work i r => exact .of_eq rfl

theorem follows_advance? (h : m.advance? w t = some m') : m.Follows m' := by
  unfold advance? at h
  split at h
  · next turn =>
    obtain rfl := Option.some.inj h
    exact follows_turn turn
  · cases h
  · split at h
    · split at h
      · obtain ⟨f, -, rfl⟩ := Option.map_eq_some_iff.mp h
        exact follows_answer w m _ _
      · cases h
    · obtain rfl := Option.some.inj h
      exact follows_beginWait w m t _

theorem follows_runTask (w : World σ τ) (t : TaskId) (fuel : Nat) (m : Simulation σ τ) :
    m.Follows (runTask w t fuel m) := by
  induction fuel generalizing m with
  | zero => exact .refl m
  | succ fuel ih =>
    unfold runTask
    split
    · next h => exact (follows_advance? h).trans (ih _)
    · exact .of_eq rfl

theorem follows_runJob (w : World σ τ) (m : Simulation σ τ) (j : Job τ) :
    m.Follows (m.runJob w j) := by
  cases j with
  | task t => exact follows_runTask w t patience m
  | token token => exact follows_act w m _
  | answer k a => exact follows_answer w m k a
  | deadline t =>
    simp only [runJob]
    split
    · exact follows_serve w m _ _
    · exact .refl m

/-! ## Waiting -/

theorem follows_settleFor (w : World σ τ) (fuel : Nat) (m : Simulation σ τ) :
    m.Follows (settleFor w fuel m) := by
  induction fuel generalizing m with
  | zero => exact .refl m
  | succ fuel ih =>
    unfold settleFor
    split
    · exact .refl m
    · exact ((follows_runJob w _ _).trans (ih _)).of_services rfl

theorem follows_tick? {latest : Nat} (h : m.tick? w latest = some m') : m.Follows m' := by
  unfold tick? at h
  split at h
  · cases h
  · split at h
    · obtain rfl := Option.some.inj h
      exact ((follows_step w _ _).trans <|
        (follows_runJob w _ _).trans (follows_settleFor w patience _)).of_services rfl
    · cases h

theorem follows_waitFor (w : World σ τ) (done : Simulation σ τ → Bool) (latest fuel : Nat)
    (m : Simulation σ τ) : m.Follows (waitFor w done latest fuel m) := by
  induction fuel generalizing m with
  | zero => exact .refl m
  | succ fuel ih =>
    unfold waitFor
    split
    · exact .refl m
    · split
      · next h => exact (follows_tick? h).trans (ih _)
      · exact .refl m

theorem follows_waitUntil (w : World σ τ) (m : Simulation σ τ) (limit : Nat)
    (done : Simulation σ τ → Bool) : m.Follows (m.waitUntil w limit done) :=
  (follows_settleFor w patience m).trans (follows_waitFor w done _ patience _)

/-! ## Calls -/

/-- A call begins as the next task. -/
theorem begin_call (w : World σ τ) (m : Simulation σ τ) (c : Call) :
    (m.begin w c).1 = m.services.nextTask ∧
      m.services.run [.call c] = some (m.begin w c).2.services := ⟨rfl, rfl⟩

/-- The creation of a kernel begins as a call, whether its worker is launched or not. -/
theorem create_call (w : World σ τ) (m : Simulation σ τ) (request : KernelCreate) :
    ∃ refusal, (m.create w request).1 = m.services.nextTask ∧
      m.services.run [.call (.pool (.create request refusal))] =
        some (m.create w request).2.services := by
  unfold create
  split
  · exact ⟨none, begin_call w m _⟩
  · exact ⟨_, begin_call w { m with world := _ } _⟩

end NotebookKernels.Simulation
