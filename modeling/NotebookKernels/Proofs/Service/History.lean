import NotebookKernels.Proofs.Service.Sound

/- What a run shows, and what it leaves alone.

   `Services.gather` collects what an observer notes down at the steps of a run, in order;
   `Services.strides` are what the tasks do inside the pool. `frame_of_step` is the frame condition of a
   step: a task that the step is not made for keeps its activity and its reply. -/
namespace NotebookKernels

open Function (update)

/-- One step of a task inside an operation of the pool: where it stood, and its move. -/
structure Stride where
  task : TaskId
  stage : Stage
  move : Move
  deriving DecidableEq, Repr

namespace Services

/-- What a task does inside the pool in a step. -/
def strides (s : Services) : Label → List Stride
  | .resume t => match s.tasks.get? t with
    | some (.pool _ stage) => (s.pool.step t stage).toList.map fun r => ⟨t, stage, r.2⟩
    | _ => []
  | .answer t a => match s.tasks.get? t with
    | some (.pool _ stage) => (s.pool.answer t stage a).toList.map fun r => ⟨t, stage, r.2⟩
    | _ => []
  | _ => []

open Scene

variable {α : Type} {f : Services → Label → List α} {s s' s₁ : Services} {l : Label}
  {ls : List Label} {t : TaskId}

/-! ## Histories -/

theorem run_cons (step : s.step l = some s₁) : s.run (l :: ls) = s₁.run ls := by
  rw [run, step, Option.bind_some]

theorem run_concat (reached : s.run ls = some s₁) (step : s₁.step l = some s') :
    s.run (ls ++ [l]) = some s' := by
  rw [run_append, reached, Option.bind_some, run_cons step, run]

/-- What is seen at the steps of a run, in order. -/
def gather (f : Services → Label → List α) (s : Services) : List Label → List α
  | [] => []
  | l :: ls => f s l ++ (s.step l).elim [] (gather f · ls)

theorem gather_cons (step : s.step l = some s₁) :
    s.gather f (l :: ls) = f s l ++ s₁.gather f ls := by
  simp only [gather, step, Option.elim_some]

theorem gather_append_singleton (reached : s.run ls = some s₁) (l : Label) :
    s.gather f (ls ++ [l]) = s.gather f ls ++ f s₁ l := by
  induction ls generalizing s with
  | nil =>
    obtain rfl := Option.some.inj reached
    cases h : s.step l <;> simp [gather, h]
  | cons k ls ih =>
    obtain ⟨s₂, hs₂, hrun⟩ := Option.bind_eq_some_iff.mp reached
    rw [List.cons_append, gather_cons hs₂, ih hrun, gather_cons hs₂, List.append_assoc]

theorem gather_append (reached : s.run ls = some s') (ks : List Label) :
    s.gather f (ls ++ ks) = s.gather f ls ++ s'.gather f ks := by
  induction ls generalizing s with
  | nil =>
    obtain rfl := Option.some.inj reached
    rfl
  | cons l ls ih =>
    obtain ⟨s₁, step, run⟩ := Option.bind_eq_some_iff.mp reached
    rw [List.cons_append, gather_cons step, gather_cons step, ih run, List.append_assoc]

/-- What is seen in a run is seen at one of its steps. -/
theorem mem_gather {x : α} (h : x ∈ s.gather f ls) :
    ∃ before l during d, ls = before ++ l :: during ∧ s.run before = some d ∧ x ∈ f d l := by
  induction ls generalizing s with
  | nil => cases h
  | cons l ls ih =>
    rcases List.mem_append.mp h with h | h
    · exact ⟨[], l, ls, s, rfl, rfl, h⟩
    · cases step : s.step l with
      | none => simp [step] at h
      | some s₁ =>
        rw [step, Option.elim_some] at h
        obtain ⟨before, k, during, d, rfl, reached, hx⟩ := ih h
        exact ⟨l :: before, k, during, d, rfl, (run_cons step).trans reached, hx⟩

/-- What every step keeps of a state and the history before it, a run keeps. -/
theorem run_gathers {I : List α → Services → Prop} {P : Label → Prop}
    (step : ∀ seen s l s', P l → I seen s → s.step l = some s' → I (seen ++ f s l) s')
    (permitted : ∀ l ∈ ls, P l) (seen : List α) (h : I seen s) (run : s.run ls = some s') :
    I (seen ++ s.gather f ls) s' := by
  induction ls generalizing s seen with
  | nil =>
    obtain rfl := Option.some.inj run
    rwa [gather, List.append_nil]
  | cons l ls ih =>
    obtain ⟨s₁, hs₁, hrun⟩ := Option.bind_eq_some_iff.mp run
    have hl := permitted l (List.mem_cons_self ..)
    rw [gather_cons hs₁, ← List.append_assoc]
    exact ih (fun k hk => permitted k (List.mem_cons_of_mem _ hk)) _ (step seen s l s₁ hl h hs₁) hrun

/-- What does not hold at first and holds at last begins to hold in some step. -/
theorem run_reaches {Q : Services → Prop} (first : ¬Q s) (last : Q s') (run : s.run ls = some s') :
    ∃ before l during d d₁, ls = before ++ l :: during ∧ s.run before = some d ∧
      d.step l = some d₁ ∧ d₁.run during = some s' ∧ ¬Q d ∧ Q d₁ := by
  induction ls generalizing s with
  | nil =>
    obtain rfl := Option.some.inj run
    exact absurd last first
  | cons l ls ih =>
    obtain ⟨s₁, hs₁, hrun⟩ := Option.bind_eq_some_iff.mp run
    by_cases hQ : Q s₁
    · exact ⟨[], l, ls, s, s₁, rfl, rfl, hs₁, hrun, first, hQ⟩
    · obtain ⟨before, k, during, d, d₁, rfl, hbefore, hrest⟩ := ih hQ hrun
      refine ⟨l :: before, k, during, d, d₁, rfl, ?_, hrest⟩
      rw [run_cons hs₁]
      exact hbefore

/-! ## Frames -/

/-- A turn leaves the other tasks that have begun alone. -/
theorem frame_of_turn {c c' : Scene} {u : TaskId} (hne : u ≠ t) (hlt : u < c.next)
    (turn : Turn l t c c') : c'.act u = c.act u ∧ c'.reply u = c.reply u := by
  cases turn with
  | rise | carry | shift | advance | begin => exact ⟨Function.update_of_ne hne _ _, rfl⟩
  | count | drop => exact ⟨rfl, rfl⟩
  | reply => exact ⟨rfl, Function.update_of_ne hne _ _⟩
  | reap => exact ⟨Function.update_of_ne (Nat.ne_of_lt hlt) _ _, rfl⟩

/-- A step is made for no other task that has begun than the one that takes it. -/
theorem actor_ne (ht : t < s.nextTask) (hne : l.task? ≠ some t) : t ≠ s.actor l := by
  unfold actor
  cases h : l.task? with
  | none => exact Nat.ne_of_lt ht
  | some u => exact fun htu => hne (h.trans (congrArg some htu.symm))

/-- A step leaves the tasks that it is not made for alone. -/
theorem frame_of_step (sound : s.scene.Sound) (ht : t < s.nextTask) (hne : l.task? ≠ some t)
    (step : s.step l = some s') :
    s'.tasks.get? t = s.tasks.get? t ∧ s'.replies.get? t = s.replies.get? t := by
  have stirred : (s.stir l).scene.act t = s.scene.act t ∧
      (s.stir l).scene.reply t = s.scene.reply t := by
    rw [scene_stir]
    exact ⟨rfl, rfl⟩
  rcases actor_lt sound.fresh step with hlt | rfl
  · have hactor := actor_ne ht hne
    have hkeep := (turns_of_step sound.fresh step).keeps (I := fun c => t < c.next ∧
      c.act t = s.scene.act t ∧ c.reply t = s.scene.reply t) (sound_stir sound l) hlt
      ⟨Nat.lt_of_lt_of_le ht (nextTask_le_stir s l), stirred⟩ fun d d' _ _ turn hd => by
        have hframe := frame_of_turn hactor hd.1 turn
        exact ⟨Nat.lt_of_lt_of_le hd.1 turn.next_le, hframe.1.trans hd.2.1,
          hframe.2.trans hd.2.2⟩
    exact hkeep.2.2.2
  · exact stirred

theorem nextTask_le_step (sound : s.scene.Sound) (step : s.step l = some s') :
    (s.stir l).nextTask ≤ s'.nextTask := by
  have hkeep := step_keeps (I := fun c => (s.stir l).nextTask ≤ c.next) sound step (Nat.le_refl _)
    fun c c' _ _ turn hc => Nat.le_trans hc turn.next_le
  exact hkeep.2

/-- A kernel is created. -/
def booting : List Label :=
  [.call (.pool (.create { } none)), .resume 0, .resume 0, .answer 0 .ok, .answer 0 .ok,
    .alive 0 true]

end Services
end NotebookKernels
