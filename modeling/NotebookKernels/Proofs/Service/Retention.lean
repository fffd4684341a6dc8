import NotebookKernels.Proofs.Service.Results

/- How long a result is kept.

   A result comes in when its execution begins, and once more when the execution ends, if it was pushed
   out in between; otherwise the end finds it in its old place. From then on it is kept until as many
   others have come in as the history allows: the identifiers that are kept are always the last ones
   that came in (`keys_run`). -/
namespace NotebookKernels

namespace Table

variable {β : Type} {n : Nat}

/-- To keep the newest again after more have come is to keep the newest of all. -/
theorem rtake_append (xs ys : List β) : (xs.rtake n ++ ys).rtake n = (xs ++ ys).rtake n := by
  simp only [List.rtake, List.length_append, List.length_drop, List.drop_append, List.drop_drop]
  congr 2 <;> omega

/-- What fewer than `n` have followed is among the newest `n`. -/
theorem mem_rtake (xs : List β) (x : β) {ys : List β} (h : ys.length < n) :
    x ∈ (xs ++ x :: ys).rtake n := by
  have hle : (xs ++ x :: ys).length - n ≤ xs.length := by
    rw [List.length_append, List.length_cons]
    omega
  rw [List.rtake, List.drop_append_of_le_length hle]
  exact List.mem_append_right _ (List.mem_cons_self ..)

end Table

namespace Services

/-- The executions whose results come in in a step. -/
def entering (s : Services) (l : Label) : List ExecutionId :=
  (s.step l).elim [] fun s' => s'.results.keys.filter (· ∉ s.results.keys)

variable {config : Config} {catalog : Catalog} {s s' : Services} {l : Label} {ls : List Label}
  {id : ExecutionId} {n : Nat} {seen : List (TaskId × ExecutionResult)}

theorem entering_of_step (step : s.step l = some s') :
    s.entering l = s'.results.keys.filter (· ∉ s.results.keys) := by
  rw [entering, step, Option.elim_some]

/-- A key that was not there is all that comes in. -/
theorem entering_of_keys (room : 0 < n) (step : s.step l = some s') (absent : id ∉ s.results.keys)
    (keys : s'.results.keys = (s.results.keys ++ [id]).rtake n) : s.entering l = [id] := by
  have old : ∀ k ∈ s.results.keys.rtake n.pred, k ∈ s.results.keys :=
    fun k hk => List.mem_of_mem_drop hk
  rw [entering_of_step step, keys, ← Nat.succ_pred_eq_of_pos room, List.rtake_concat_succ,
    List.filter_append]
  simpa [absent] using old

theorem entering_of_same (step : s.step l = some s') (keys : s'.results.keys = s.results.keys) :
    s.entering l = [] := by
  rw [entering_of_step step, keys]
  exact List.filter_eq_nil_iff.mpr fun k hk => by simpa using hk

namespace OnFile

/-- What may come in in a step is what an execution begins with, or the result of one that ends. -/
theorem keys_cases (h : OnFile config seen s) (step : s.step l = some s') :
    (s'.results.keys = s.results.keys ∧ s.begun l = []) ∨
      ∃ id, id ∉ s.results.keys ∧ s'.results.keys = (s.results.keys ++ [id]).rtake config.history ∧
        ((∃ t p, s.begun l = [(t, p)] ∧ p.id = id) ∨
          s.begun l = [] ∧ ∃ t p, (t, p) ∈ seen ∧ p.id = id ∧ s.replies.get? t = none ∧
            s'.replies.get? t ≠ none) := by
  obtain ⟨c, opens, posts⟩ := h.posts step
  obtain ⟨d, hresults, -, settles⟩ := posts.settles
  have bounded := posts.filed.bounded
  cases opens with
  | idle hbegun =>
    cases settles with
    | on _ same _ => exact .inl ⟨congrArg Table.keys (same.trans hresults), hbegun⟩
    | ends _ r k own _ replied _ kept =>
      rw [hresults] at kept
      have keys := congrArg Table.keys kept
      rw [Table.keys_keep bounded] at keys
      split at keys
      · exact .inl ⟨keys, hbegun⟩
      · next absent =>
        obtain ⟨p, hp, hid⟩ := h.filed.known _ _ own
        refine .inr ⟨r.id, absent, keys, .inr ⟨hbegun, s.actor l, p, hp, hid, ?_, ?_⟩⟩
        · obtain ⟨a, ha, -⟩ := Option.bind_eq_some_iff.mp own
          exact h.sound.fresh.owed _ a ha
        · rw [replied]
          simp
  | enter p hbegun own =>
    let begun := s.results.keep config.history p.id p
    have absent : p.id ∉ s.results.keys := own ▸ h.filed.absent
    have old : s.results.Bounded config.history := h.filed.bounded
    have hbegins : d.results = begun := hresults
    have entered : begun.keys = (s.results.keys ++ [p.id]).rtake config.history := by
      rw [Table.keys_keep old, if_neg absent]
    refine .inr ⟨p.id, absent, ?_, .inl ⟨_, p, hbegun, rfl⟩⟩
    cases settles with
    | on _ same _ => rw [same, hbegins, entered]
    | ends _ r k own _ _ _ kept =>
      -- it has ended at once, and its result takes the place of what it began with
      have hid : p.id = r.id := by simpa [Ledger.enter] using own
      have there : r.id ∈ begun.keys :=
        hid ▸ Table.mem_keys_of_get? (Table.get?_keep_self old (room config))
      rw [kept, hbegins, Table.keys_keep (old.keep p.id p), if_pos there, entered]

/-- What comes in is what an execution begins with, and the result of an execution that ends and that
had been pushed out. -/
theorem mem_entering_iff (h : OnFile config seen s) (step : s.step l = some s') :
    id ∈ s.entering l ↔ (∃ t p, (t, p) ∈ s.begun l ∧ p.id = id) ∨
      ∃ t p, (t, p) ∈ seen ∧ p.id = id ∧ s.replies.get? t = none ∧ s'.replies.get? t ≠ none ∧
        s.results.get? id = none := by
  have absent : id ∉ s.results.keys ↔ s.results.get? id = none := by
    refine ⟨Table.get?_eq_none, fun hnone hmem => ?_⟩
    obtain ⟨⟨_, r⟩, hr, rfl⟩ := List.mem_map.mp hmem
    have hget := Table.get?_of_mem h.filed.bounded.single hr
    exact absurd (hget.symm.trans hnone) (by simp)
  constructor
  · intro hin
    rcases h.keys_cases step with ⟨same, -⟩ | ⟨id', habsent, keys, comes⟩
    · rw [entering_of_same step same] at hin
      cases hin
    · rw [entering_of_keys (room config) step habsent keys, List.mem_singleton] at hin
      subst hin
      rcases comes with ⟨t, p, hbegun, hid⟩ | ⟨-, t, p, hp, hid, owed, replied⟩
      · exact .inl ⟨t, p, hbegun ▸ List.mem_singleton_self _, hid⟩
      · exact .inr ⟨t, p, hp, hid, owed, replied, absent.mp habsent⟩
  · rintro (⟨t, p, hp, rfl⟩ | ⟨t, p, hp, rfl, owed, replied, hnone⟩)
    · rcases h.keys_cases step with ⟨-, none⟩ | ⟨id', habsent, keys, ⟨t', p', one, rfl⟩ | ⟨none, -⟩⟩
      · rw [none] at hp
        cases hp
      · rw [one, List.mem_singleton] at hp
        rw [entering_of_keys (room config) step habsent keys, (Prod.mk.inj hp).2]
        exact List.mem_singleton_self _
      · rw [none] at hp
        cases hp
    · obtain ⟨c, opens, posts⟩ := h.posts step
      obtain ⟨reply, hreply⟩ := Option.ne_none_iff_exists'.mp replied
      obtain ⟨r, k, -, hr⟩ := posts.returned (room config) (List.mem_append_left _ hp)
        ((congrFun opens.reply t).trans owed) hreply
      rw [entering_of_step step]
      exact List.mem_filter.mpr ⟨Table.mem_keys_of_get? hr, by simpa using absent.mpr hnone⟩

/-- The keys after a step are the last that have come in. -/
theorem keys_step (h : OnFile config seen s) (step : s.step l = some s') :
    s'.results.keys = (s.results.keys ++ s.entering l).rtake config.history := by
  rcases h.keys_cases step with ⟨same, -⟩ | ⟨id, absent, keys, -⟩
  · have hle : s.results.keys.length ≤ config.history :=
      (Table.length_keys _).le.trans h.filed.bounded.length
    rw [entering_of_same step same, List.append_nil, Table.rtake_of_le hle, same]
  · rw [entering_of_keys (room config) step absent keys, keys]

/-- What is kept after a run are the last that have come in. -/
theorem keys_run (h : OnFile config seen s) (run : s.run ls = some s') :
    s'.results.keys = (s.results.keys ++ s.gather entering ls).rtake config.history := by
  induction ls generalizing s seen with
  | nil =>
    obtain rfl := Option.some.inj run
    have hle : s.results.keys.length ≤ config.history :=
      (Table.length_keys _).le.trans h.filed.bounded.length
    rw [gather, List.append_nil, Table.rtake_of_le hle]
  | cons l ls ih =>
    obtain ⟨s₁, step, hrun⟩ := Option.bind_eq_some_iff.mp run
    rw [ih (h.step step) hrun, h.keys_step step, gather_cons step, Table.rtake_append,
      List.append_assoc]

/-- What came in is kept as long as fewer than the history allows have come in after it. -/
theorem mem_keys (h : OnFile config seen s) (step : s.step l = some s') (hid : id ∈ s.entering l)
    {d : Services} (run : s'.run ls = some d)
    (few : (s'.gather entering ls).length < config.history) : id ∈ d.results.keys := by
  rcases h.keys_cases step with ⟨same, -⟩ | ⟨id', absent, keys, -⟩
  · rw [entering_of_same step same] at hid
    cases hid
  · rw [entering_of_keys (room config) step absent keys, List.mem_singleton] at hid
    subst hid
    rw [(h.step step).keys_run run, keys, Table.rtake_append, List.append_assoc]
    exact Table.mem_rtake _ _ few

end OnFile

/-- A result that an execution has returned can be looked up as long as fewer others than the history
allows have come in after it came in itself. What comes in in a step is what an execution begins with,
or the result of an execution that ends and that had been pushed out. -/
theorem result_retained (config : Config) (catalog : Catalog) (before during : List Label) (l : Label)
    (d d' s : Services) (start : (init config catalog).run before = some d)
    (step : d.step l = some d') (run : d'.run during = some s) :
    (∀ id, id ∈ d.entering l ↔ (∃ t p, (t, p) ∈ d.begun l ∧ p.id = id) ∨
      ∃ t p, (t, p) ∈ (init config catalog).gather begun before ∧ p.id = id ∧
        d.replies.get? t = none ∧ d'.replies.get? t ≠ none ∧
        d.lookup id = some (.pool (.failed (.executionNotFound id)))) ∧
    ∀ t p r k, (t, p) ∈ (init config catalog).gather begun (before ++ l :: during) →
      p.id ∈ d.entering l → (d'.gather entering during).length < max config.executionHistory 1 →
      s.replies.get? t = some (.result r k) → s.lookup r.id = some (.result r .absent) := by
  have h := OnFile.run start
  constructor
  · intro id
    have lost : d.lookup id = some (.pool (.failed (.executionNotFound id))) ↔
        d.results.get? id = none := by
      rw [lookup_eq]
      cases d.results.get? id <;> simp
    simp only [lost]
    exact h.mem_entering_iff step
  · intro t p r k hp comes few replied
    have whole : (init config catalog).run (before ++ l :: during) = some s := by
      rw [run_append, start, Option.bind_some, run_cons step, run]
    have hs := OnFile.run whole
    obtain ⟨⟨_, r'⟩, hr, rfl⟩ := List.mem_map.mp (h.mem_keys step comes run few)
    have kept := Table.get?_of_mem hs.filed.bounded.single hr
    obtain ⟨e, he, hid, stored⟩ := hs.filed.kept _ r' kept
    obtain rfl := hs.filed.unique he hp hid
    rcases stored with ⟨owed, -⟩ | ⟨k', replied'⟩
    · exact absurd (owed.symm.trans replied) (by simp)
    · obtain ⟨rfl, rfl⟩ := Reply.result.inj (Option.some.inj (replied.symm.trans replied'))
      rcases hs.filed.course _ he with ⟨-, owed⟩ | ⟨-, r', k', hr', own, -⟩
      · exact absurd (owed.symm.trans replied) (by simp)
      · obtain ⟨rfl, rfl⟩ := Reply.result.inj (Option.some.inj (replied.symm.trans hr'))
        have found : s.results.get? r.id = some r := own ▸ kept
        rw [lookup_eq, found, Option.elim_some]

/-- There is room for two results: the first execution is kept while another begins and fails. -/
theorem result_retained_overlapping :
    ∃ d d' s r k, (init { executionHistory := 2 } [.python3]).run booting = some d ∧
      d.step (idly (.fresh 0)) = some d' ∧
      d'.run [idly ⟨"k"⟩, .resume 1, .resume 1] = some s ∧ s.replies.get? 1 = some (.result r k) ∧
      s.lookup r.id = some (.result r .absent) := by
  let p : ExecutionResult := .start (.fresh 0) (.fresh 0) none 0
  have h : ((init { executionHistory := 2 } [.python3]).run booting).bind (fun d =>
      (d.step (idly (.fresh 0))).bind fun d' => (d'.run [idly ⟨"k"⟩, .resume 1, .resume 1]).bind
        fun s => (s.replies.get? 1).map fun reply => (d.entering (idly (.fresh 0)),
          (d'.gather entering [idly ⟨"k"⟩, .resume 1, .resume 1]).length, reply)) =
      some ([p.id], 1, .result ({ p with executionCount := some 0 }.finish 0) .absent) := by
    decide
  have begins : (1, p) ∈ (init { executionHistory := 2 } [.python3]).gather begun
      (booting ++ idly (.fresh 0) :: [idly ⟨"k"⟩, .resume 1, .resume 1]) := by decide
  obtain ⟨d, start, h⟩ := Option.bind_eq_some_iff.mp h
  obtain ⟨d', step, h⟩ := Option.bind_eq_some_iff.mp h
  obtain ⟨s, run, h⟩ := Option.bind_eq_some_iff.mp h
  obtain ⟨reply, replied, h⟩ := Option.map_eq_some_iff.mp h
  obtain ⟨comes, h⟩ := Prod.mk.inj h
  obtain ⟨one, rfl⟩ := Prod.mk.inj h
  have retained := result_retained { executionHistory := 2 } [.python3] booting
    [idly ⟨"k"⟩, .resume 1, .resume 1] (idly (.fresh 0)) d d' s start step run
  have few : (d'.gather entering [idly ⟨"k"⟩, .resume 1, .resume 1]).length < 2 := by
    rw [one]
    decide
  exact ⟨d, d', s, _, _, start, step, run, replied,
    retained.2 1 p _ _ begins (comes ▸ List.mem_singleton_self _) few replied⟩

/-- What counts is when a result came in, and not when it was returned. With room for two, an execution
that ends in its old place goes as soon as one more begins, and then a single result is kept that is
finished. -/
theorem result_pushed_out :
    ∃ s s' r k, (init { executionHistory := 2 } [.python3]).run
        (booting ++ [idly (.fresh 0), idly ⟨"k"⟩, .resume 1, .resume 1]) = some s ∧
      s.replies.get? 1 = some (.result r k) ∧ s.run [idly (.fresh 0)] = some s' ∧
      (s.gather begun [idly (.fresh 0)]).length = 1 ∧
      s'.lookup r.id = some (.pool (.failed (.executionNotFound r.id))) ∧
      (s'.results.filter (·.2.isFinished)).length = 1 := by
  have h : ((init { executionHistory := 2 } [.python3]).run
      (booting ++ [idly (.fresh 0), idly ⟨"k"⟩, .resume 1, .resume 1])).bind (fun s =>
        (s.run [idly (.fresh 0)]).map fun s' => (s.replies.get? 1,
          (s.gather begun [idly (.fresh 0)]).length, s'.lookup (.fresh 0),
          (s'.results.filter (·.2.isFinished)).length)) =
      some (some (.result ({ ExecutionResult.start (.fresh 0) (.fresh 0) none 0 with
        executionCount := some 0 }.finish 0) .absent), 1,
        some (.pool (.failed (.executionNotFound (.fresh 0)))), 1) := by
    decide
  obtain ⟨s, start, h⟩ := Option.bind_eq_some_iff.mp h
  obtain ⟨s', run, h⟩ := Option.map_eq_some_iff.mp h
  simp only [Prod.mk.injEq] at h
  obtain ⟨replied, one, lost, left⟩ := h
  exact ⟨s, s', _, _, start, replied, run, one, lost, left⟩

end Services
end NotebookKernels
