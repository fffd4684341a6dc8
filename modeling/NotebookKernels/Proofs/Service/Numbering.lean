import NotebookKernels.Proofs.Service.Tallies

/- The numbers of the executions on a kernel.

   An execution that gives up its slot reads off the kernel's count, and has been counted before,
   unless it is silent or had nothing to submit. `Reported` says what its result holds then, in terms of
   the executions that held the slot and of those that were counted; `Account` follows one execution
   from its call on. `executions_numbered` puts this together for all executions on a kernel. -/
namespace NotebookKernels

namespace Exchange

/-- Is the execution over without a stream to read? -/
def fails : Exchange → Bool
  | .refused _ | .rejected _ => true
  | .acquired _ | .submitted .. | .accepted _ | .received _ => false

end Exchange

/-- What an execution reports: whether it failed before it had a stream to read, and its count. -/
inductive Reported (request : ExecuteRequest) (held counted : List TaskId) (t : TaskId) :
    Bool → Option Nat → Prop
  /-- There was no slot for it or its code could not be submitted: it reports and counts nothing. -/
  | failed (uncounted : t ∉ counted) : Reported request held counted t true none
  /-- It is silent, or nothing was left to submit: it reports how many were counted of those that
  held the slot before it. -/
  | aside (earlier later : List TaskId)
      (quiet : request.silent = true ∨ request.submission.code.allBlank = true)
      (turn : held = earlier ++ t :: later) (uncounted : t ∉ counted) :
      Reported request held counted t false (some (earlier.countP (· ∈ counted)))
  /-- It is counted, and reports its number. -/
  | counted (k : Nat) (loud : request.silent = false)
      (left : request.submission.code.allBlank = false) (turn : counted[k]? = some t) :
      Reported request held counted t false (some (k + 1))

namespace Services

variable {s s' d : Services} {ls : List Label} {l : Label} {t : TaskId} {i : Nat} {φ' : Phase}

/-- The step of the run that brings the execution to its end leaves the kernel with this count. -/
def ReadOff (i : Nat) (t : TaskId) (s : Services) (ls : List Label) (n : Nat) : Prop :=
  ∃ before l during d d', ls = before ++ l :: during ∧ s.run before = some d ∧
    d.step l = some d' ∧ (∃ φ, d.phase? t = some φ ∧ φ.isOver = false) ∧
    (∃ φ, d'.phase? t = some φ ∧ φ.isOver = true) ∧ d'.countOf i = n

theorem ReadOff.append {n : Nat} (h : ReadOff i t s ls n) (ks : List Label) :
    ReadOff i t s (ls ++ ks) n := by
  obtain ⟨before, l, during, d, d', rfl, rest⟩ := h
  exact ⟨before, l, during ++ ks, d, d', by rw [List.append_assoc, List.cons_append], rest⟩

/-! ## What an execution reports -/

theorem executionCount_noticed (x : Execution) :
    x.noticed.result.executionCount = x.result.executionCount := by
  rw [noticed_eq]
  split <;> rfl

/-- An execution with nothing left to submit reports the count. -/
theorem reports_of_blank {x : Execution} (own : l.task? = some t) (h : s.Shows t (.acquiring x))
    (step : s.step l = some s') (acquired : .acquired i ∈ s.exchanges t l)
    (blank : x.request.submission.code.allBlank = true) (h' : s'.phase? t = some φ') :
    φ'.result.executionCount = some (s'.pool.count i) := by
  obtain ⟨-, -, p, rfl⟩ := execute_of_acquired own h step acquired
  let d : Services := { s with pool := p, slots := s.slots.set t i }
  have same : (d.execute t i x).pool.count i = d.countOf i := by rw [count_execute, countOf_eq]
  rw [same]
  rw [execute_eq, if_pos blank] at h'
  obtain rfl := eq_of_shows (shows_conclude ..) h'
  rfl

/-- An execution at the end of its stream reports the count. -/
theorem reports_endStream (t : TaskId) (i : Nat) (x : Execution) :
    ∃ φ, (s.endStream t i (.execution x)).phase? t = some φ ∧
      φ.result.executionCount = some ((s.endStream t i (.execution x)).pool.count i) := by
  let d : Services := (s.counting i x).dropSlot t
  have same : d.pool.count i = (s.counting i x).countOf i := by rw [count_dropSlot, countOf_eq]
  rw [endStream_eq]
  split
  · let y : Execution := x.counted ((s.counting i x).countOf i)
    have was : (d.startPool t (.execution y) (.removeIfDead x.request.kernel)).tasks.get? t =
        some (.pool (.execution y) (.structure (.removeIfDead x.request.kernel))) :=
      Table.get?_set_self ..
    refine ⟨.removing y, phase?_of_tasks was, ?_⟩
    rw [count_startPool, same]
    rfl
  · refine ⟨_, phase?_of_shows (shows_conclude ..), ?_⟩
    show _ = some (d.pool.count i)
    rw [same]
    rfl

theorem reports_receive {m : Mail} {r : RequestId} (x : Execution)
    (closes : (m.deliveryFor r).closes = true) :
    ∃ φ, (s.receive t (.execution x) i r m).phase? t = some φ ∧
      φ.result.executionCount = some ((s.receive t (.execution x) i r m).pool.count i) := by
  unfold receive
  cases h : m.deliveryFor r with
  | ended => exact reports_endStream t i x
  | broken e => exact reports_endStream t i (x.take e)
  | skip | output e =>
    rw [h] at closes
    cases closes

/-- Who takes the item that ends its stream waited for it. -/
theorem receiving_of_closes {x : Execution} {r : RequestId} (own : l.task? = some t)
    (h : s.Shows t (.reading x i r)) (step : s.step l = some s')
    (closes : (s.exchanges t l).any (·.closes r) = true) :
    s.tasks.get? t = some (.receiving (.execution x) i r) := by
  refine h.2.resolve_right fun was => ?_
  have nothing : s.told t l = [] := by
    cases l with
    | resume | answer | submitted | replied | expire =>
      obtain rfl := Option.some.inj own
      simp only [told, was]
    | call | alive | deliver | renew | pass => cases own
  rw [any_closes_exchanges step, nothing] at closes
  cases closes

theorem reports_of_reading {x : Execution} {r : RequestId} (own : l.task? = some t)
    (h : s.Shows t (.reading x i r)) (step : s.step l = some s')
    (closes : (s.exchanges t l).any (·.closes r) = true) (h' : s'.phase? t = some φ') :
    φ'.result.executionCount = some (s'.pool.count i) := by
  rw [any_closes_exchanges step] at closes
  rcases cases_of_reading own h step with ⟨m, p, htold, -, rfl⟩ | ⟨htold, -⟩
  · have last : (m.deliveryFor r).closes = true := by simpa [htold, Exchange.closes] using closes
    obtain ⟨φ, hφ, reports⟩ := reports_receive (s := { s with pool := p }) (t := t) (i := i) x last
    obtain rfl := Option.some.inj (hφ.symm.trans h')
    exact reports
  · simp [htold] at closes

end Services

/-! ## Reports -/

/-- Of the tasks in a list without repetitions, just those in a sublist are in it. -/
theorem countP_of_sublist {xs ys : List TaskId} (h : xs.Sublist ys) (single : ys.Nodup) :
    ys.countP (· ∈ xs) = xs.length := by
  rw [List.countP_eq_length_filter]
  refine List.Perm.length_eq ?_
  refine (List.perm_ext_iff_of_nodup (single.filter _) (single.sublist h)).mpr fun a => ?_
  rw [List.mem_filter, decide_eq_true_eq]
  exact and_iff_right_of_imp fun ha => h.subset ha

namespace Reported

variable {request : ExecuteRequest} {held counted : List TaskId} {t u : TaskId} {b : Bool}
  {n : Option Nat}

/-- Who is granted the slot later does not matter. -/
theorem granted (h : Reported request held counted t b n) (us : List TaskId) :
    Reported request (held ++ us) counted t b n := by
  cases h with
  | failed uncounted => exact .failed uncounted
  | aside earlier later quiet turn uncounted =>
    refine .aside earlier (later ++ us) quiet ?_ uncounted
    rw [turn, List.append_assoc, List.cons_append]
  | counted k loud left turn => exact .counted k loud left turn

/-- Nor does the count of another one who held the slot last. -/
theorem another (h : Reported request held counted t b n) (single : held.Nodup) (hne : u ≠ t)
    (last : ∃ earlier, held = earlier ++ [u]) : Reported request held (counted ++ [u]) t b n := by
  have still : t ∉ counted → t ∉ counted ++ [u] := by
    intro ht hmem
    rcases List.mem_append.mp hmem with hmem | hmem
    · exact ht hmem
    · exact hne (List.mem_singleton.mp hmem).symm
  cases h with
  | failed uncounted => exact .failed (still uncounted)
  | aside earlier later quiet turn uncounted =>
    obtain ⟨front, last⟩ := last
    have behind : u ∈ t :: later := by
      have hlast := congrArg List.getLast? (turn.symm.trans last)
      rw [List.getLast?_append_cons, List.getLast?_concat] at hlast
      exact List.mem_of_getLast? hlast
    have absent : u ∉ earlier := fun hu =>
      (List.nodup_append.mp (turn ▸ single)).2.2 u hu u behind rfl
    have same : earlier.countP (· ∈ counted) = earlier.countP (· ∈ counted ++ [u]) := by
      refine List.countP_congr fun a ha => ?_
      have hau : a ≠ u := fun h => absent (h ▸ ha)
      simp [hau]
    rw [same]
    exact .aside earlier later quiet turn (still uncounted)
  | counted k loud left turn =>
    refine .counted k loud left ?_
    rw [List.getElem?_append_left (List.getElem?_eq_some_iff.mp turn).1]
    exact turn

end Reported

namespace Services

variable {config : Config} {catalog : Catalog} {before during ls : List Label}
  {s s₀ s' d : Services} {l : Label} {t u : TaskId} {i j : Nat} {φ φ' : Phase}
  {request : ExecuteRequest} {sink : Sink} {held counted : List TaskId} {x : Execution}
  {r : RequestId} {seen : List Exchange}

/-- One step, seen from an execution for the kernel of an entry. -/
structure Passage (i : Nat) (request : ExecuteRequest) (t : TaskId) (held counted : List TaskId)
    (s : Services) (l : Label) (s' : Services) : Prop where
  kernel : request.kernel = .fresh i
  sound : s.scene.Sound
  executes : s.Executes t request
  step : s.step l = some s'
  tally : Tally i s l s'
  before : Tallied i held counted s
  after : Tallied i (held ++ s.granted i l) (counted ++ s.counted i l) s'

namespace Passage

theorem ungranted (p : Passage i request t held counted s l s') (shown : s.Shows t φ)
    (h : ∀ x, φ ≠ .acquiring x) : t ∉ s.granted i l := by
  intro ht
  cases p.tally with
  | aside ungranted | leaves _ _ ungranted => simp [ungranted] at ht
  | enters u begun was granted =>
    obtain ⟨x, was⟩ := was
    obtain rfl := List.mem_singleton.mp (granted ▸ ht)
    exact h x (eq_of_shows shown was)

theorem uncounted (p : Passage i request t held counted s l s') (shown : s.Shows t φ)
    (h : ∀ x r, φ ≠ .reading x i r) : t ∉ s.counted i l := by
  intro ht
  cases p.tally with
  | aside _ uncounted | enters _ _ _ _ uncounted => simp [uncounted] at ht
  | leaves u was _ counted =>
    obtain ⟨x, r, was⟩ := was
    obtain rfl := List.mem_singleton.mp (counted ▸ ht)
    exact h x r (eq_of_shows shown was)

/-- What an execution has reported stands. -/
theorem stands {b : Bool} {n : Option Nat} (p : Passage i request t held counted s l s')
    (shown : s.Shows t φ) (off : φ.channel? = none) (h : Reported request held counted t b n) :
    Reported request (held ++ s.granted i l) (counted ++ s.counted i l) t b n := by
  cases p.tally with
  | aside ungranted uncounted =>
    rw [ungranted, uncounted, List.append_nil, List.append_nil]
    exact h
  | enters u _ _ _ uncounted =>
    rw [uncounted, List.append_nil]
    exact h.granted _
  | leaves u was ungranted counted =>
    rw [ungranted, counted, List.append_nil]
    obtain ⟨x, r, was⟩ := was
    obtain ⟨earlier, last, -⟩ := p.before.seat u _ was rfl
    refine h.another p.before.single ?_ ⟨earlier, last⟩
    rintro rfl
    obtain rfl := eq_of_shows shown was
    cases off

theorem still_uncounted (p : Passage i request t held counted s l s') (shown : s.Shows t φ)
    (h : ∀ x r, φ ≠ .reading x i r) (ht : t ∉ counted) : t ∉ counted ++ s.counted i l := by
  intro hmem
  rcases List.mem_append.mp hmem with hmem | hmem
  · exact ht hmem
  · exact p.uncounted shown h hmem

/-- Who uses the channel is not counted yet. -/
theorem uncounted_of_channel? (p : Passage i request t held counted s l s') (shown : s.Shows t φ)
    (on : φ.channel? = some i) : t ∉ counted := by
  obtain ⟨earlier, rfl, order⟩ := p.before.seat t φ (phase?_of_shows shown) on
  intro ht
  exact (List.nodup_append.mp p.before.single).2.2 t (order.subset ht) t
    (List.mem_singleton_self t) rfl

/-- The slot is that of the request's kernel. -/
theorem entry_eq (p : Passage i request t held counted s l s') (shown : s.Shows t (.acquiring x))
    (acquired : .acquired j ∈ s.exchanges t l) : j = i := by
  have own := own_of_exchanges p.sound p.executes.begun p.step (List.ne_nil_of_mem acquired)
  obtain ⟨was, -⟩ := execute_of_acquired own shown p.step acquired
  have aimed := p.executes.aimed _ _ j was rfl
  exact KernelId.fresh_injective (aimed.symm.trans p.kernel)

/-- An execution with nothing left to submit reports how many were counted before. -/
theorem reported_blank (p : Passage i request t held counted s l s')
    (shown : s.Shows t (.acquiring x)) (shown' : s'.Shows t φ') (unheld : t ∉ held)
    (acquired : .acquired i ∈ s.exchanges t l) (own : x.request = request)
    (blank : x.request.submission.code.allBlank = true) :
    φ'.result.executionCount = some (s'.pool.count i) ∧
      Reported request (held ++ s.granted i l) (counted ++ s.counted i l) t false
        (some (s'.pool.count i)) := by
  have hl := own_of_exchanges p.sound p.executes.begun p.step (List.ne_nil_of_mem acquired)
  refine ⟨reports_of_blank hl shown p.step acquired blank (phase?_of_shows shown'), ?_⟩
  have turn : t ∈ s.granted i l :=
    mem_granted.mpr ⟨hl, executing?_of_phase? (phase?_of_shows shown) rfl, acquired⟩
  have uncounted : s.counted i l = [] := counted_eq_nil hl (p.uncounted shown (by simp))
  have granted : s.granted i l = [t] := by
    cases p.tally with
    | aside ungranted | leaves _ _ ungranted => simp [ungranted] at turn
    | enters u _ _ granted =>
      obtain rfl := List.mem_singleton.mp (granted ▸ turn)
      exact granted
  have count := p.after.count
  rw [uncounted, List.append_nil] at count ⊢
  rw [granted, count, ← countP_of_sublist p.before.order p.before.single]
  exact .aside held [] (.inr (own ▸ blank)) rfl fun h => unheld (p.before.order.subset h)

/-- An execution at the end of its stream is counted, or it is silent and reports how many were
counted before. -/
theorem reported_closes (p : Passage i request t held counted s l s')
    (shown : s.Shows t (.reading x i r)) (shown' : s'.Shows t φ')
    (closes : (s.exchanges t l).any (·.closes r) = true) (own : x.request = request)
    (left : request.submission.code.allBlank = false) :
    φ'.result.executionCount = some (s'.pool.count i) ∧
      Reported request (held ++ s.granted i l) (counted ++ s.counted i l) t false
        (some (s'.pool.count i)) := by
  have passed : s.exchanges t l ≠ [] := by
    intro nothing
    simp [nothing] at closes
  have hl := own_of_exchanges p.sound p.executes.begun p.step passed
  refine ⟨reports_of_reading hl shown p.step closes (phase?_of_shows shown'), ?_⟩
  have was := receiving_of_closes hl shown p.step closes
  have ungranted : s.granted i l = [] := granted_eq_nil hl (p.ungranted shown (by simp))
  obtain ⟨earlier, rfl, order⟩ := p.before.seat t _ (phase?_of_shows shown) rfl
  have single : earlier.Nodup := (List.nodup_append.mp p.before.single).1
  rw [p.after.count, ungranted, List.append_nil]
  cases silent : request.silent with
  | true =>
    have uncounted : s.counted i l = [] := by
      refine counted_eq_nil hl fun ht => ?_
      obtain ⟨-, w, r', was', loud, -⟩ := mem_counted.mp ht
      obtain ⟨rfl, -⟩ := Activity.receiving.inj (Option.some.inj (was.symm.trans was'))
      simp [Work.isLoud, own, silent] at loud
    rw [uncounted, List.append_nil, ← countP_of_sublist order single]
    exact .aside earlier [] (.inl silent) rfl (p.uncounted_of_channel? shown rfl)
  | false =>
    have loud : (Work.execution x).isLoud = true := by simp [Work.isLoud, own, silent]
    have counted : s.counted i l = [t] := by
      rw [counted_eq hl, was, Option.any_some]
      simp [Activity.counts, loud, closes]
    rw [counted, List.length_append]
    refine .counted _ silent left ?_
    rw [List.getElem?_append_right (Nat.le_refl _), Nat.sub_self]
    rfl

end Passage

/-- What an execution has to do with the account of the slot, in each phase; `R` says of a count
that it was read off. -/
inductive Account (request : ExecuteRequest) (i : Nat) (R : Nat → Prop) (held counted : List TaskId)
    (t : TaskId) (seen : List Exchange) : Phase → Prop
  | acquiring (x : Execution) (unheld : t ∉ held) (unreported : x.result.executionCount = none) :
      Account request i R held counted t seen (.acquiring x)
  | seated (φ : Phase) (on : φ.channel? = some i) (unreported : φ.result.executionCount = none) :
      Account request i R held counted t seen φ
  | through (φ : Phase) (isOver : φ.isOver = true)
      (reported : Reported request held counted t (seen.any Exchange.fails)
        φ.result.executionCount)
      (read : ∀ n, φ.result.executionCount = some n → R n) :
      Account request i R held counted t seen φ

namespace Account

variable {R R' : Nat → Prop}

/-- An execution that fails before it has a stream to read reports nothing. -/
theorem failed (fails : seen.any Exchange.fails = true) (isOver : φ.isOver = true)
    (unreported : φ.result.executionCount = none) (uncounted : t ∉ counted) :
    Account request i R held counted t seen φ := by
  refine .through φ isOver ?_ fun n hn => ?_
  · rw [fails, unreported]
    exact .failed uncounted
  · cases unreported.symm.trans hn

/-- An execution that gives up its slot reports the count that it reads off. -/
theorem counts {n : Nat} (quiet : seen.any Exchange.fails = false) (isOver : φ.isOver = true)
    (reports : φ.result.executionCount = some n ∧ Reported request held counted t false (some n))
    (read : R n) : Account request i R held counted t seen φ := by
  refine .through φ isOver ?_ fun k hk => ?_
  · rw [quiet, reports.1]
    exact reports.2
  · exact Option.some.inj (reports.1.symm.trans hk) ▸ read

theorem any_fails_of_reading {i : Nat} (h : Course request sink seen (.reading x i r)) (m : Mail) :
    (seen ++ [Exchange.received m]).any Exchange.fails = false := by
  cases h
  simp [Exchange.fails]

theorem next (h : Account request i R held counted t seen φ) (course : Course request sink seen φ)
    (p : Passage i request t held counted s l s') (shown : s.Shows t φ) (shown' : s'.Shows t φ')
    (next : φ.Next (s.exchanges t l) φ') (mono : ∀ n, R n → R' n)
    (read : φ.isOver = false → φ'.isOver = true → R' (s'.countOf i)) :
    Account request i R' (held ++ s.granted i l) (counted ++ s.counted i l) t
      (seen ++ s.exchanges t l) φ' := by
  rw [countOf_eq] at read
  cases h with
  | acquiring x unheld unreported =>
    have uncounted := p.still_uncounted shown (by simp) fun ht => unheld (p.before.order.subset ht)
    generalize hex : s.exchanges t l = ex at next ⊢
    cases next with
    | stay =>
      refine .acquiring x (fun ht => ?_) unreported
      rcases List.mem_append.mp ht with ht | ht
      · exact unheld ht
      · have acquired := (mem_granted.mp ht).2.2
        rw [hex] at acquired
        cases acquired
    | refused x f now => exact failed (by simp [Exchange.fails]) rfl unreported uncounted
    | blank x j n now hblank =>
      obtain rfl := p.entry_eq (j := j) shown (hex ▸ List.mem_singleton_self _)
      cases course with
      | acquiring _ took =>
        have reports := p.reported_blank shown shown' unheld (hex ▸ List.mem_singleton_self _)
          took.request hblank
        exact counts rfl rfl reports (read rfl rfl)
    | submit x j hleft =>
      obtain rfl := p.entry_eq (j := j) shown (hex ▸ List.mem_cons_self ..)
      exact .seated _ rfl ((executionCount_noticed x).trans unreported)
  | seated φ on unreported =>
    have uncounted := p.uncounted_of_channel? shown on
    generalize hex : s.exchanges t l = ex at next ⊢
    cases next with
    | stay => exact .seated φ on unreported
    | accepted | skip | output => exact .seated _ on unreported
    | rejected x j code f now =>
      exact failed (by simp [Exchange.fails]) rfl unreported
        (p.still_uncounted shown (by simp) uncounted)
    | close x y j r m n now hc | fail x y j r m n hc =>
      obtain rfl := Option.some.inj on
      have quiet := any_fails_of_reading course m
      cases course with
      | reading _ _ _ _ left _ took =>
        have closes : (s.exchanges t l).any (·.closes r) = true := by
          simpa [hex, Exchange.closes] using (took.closes hc).2
        have reports := p.reported_closes shown shown' closes took.request left
        exact counts quiet rfl reports (read rfl rfl)
    | refused | blank | submit | removed => cases on
  | through φ isOver reported read' =>
    have stands := p.stands shown (φ.channel?_of_isOver isOver) reported
    generalize s.exchanges t l = ex at next ⊢
    cases next with
    | stay =>
      rw [List.append_nil]
      exact .through φ isOver stands fun n hn => mono n (read' n hn)
    | removed x now =>
      rw [List.append_nil]
      exact .through _ rfl stands fun n hn => mono n (read' n hn)
    | refused | blank | submit | rejected | accepted | skip | output | close | fail => cases isOver

theorem of_call (tallied : Tallied i held counted s) (fresh : s.scene.Fresh)
    (step : s.step (.call (.execute request sink)) = some s') (shown : s'.Shows s.nextTask φ) :
    Account request i R held counted s.nextTask
      (s.exchanges s.nextTask (.call (.execute request sink))) φ := by
  have unheld : s.nextTask ∉ held := fun h => Nat.lt_irrefl _ (tallied.past _ h).1
  cases commences_of_call fresh step with
  | acquiring x j found was shown' unreported =>
    obtain rfl := eq_of_shows shown (phase?_of_shows shown')
    exact .acquiring x unheld unreported
  | refused r f shown' told unreported =>
    obtain rfl := eq_of_shows shown (phase?_of_shows shown')
    rw [told]
    exact failed rfl rfl unreported fun h => unheld (tallied.order.subset h)

end Account

/-- An execution that was called after `before`, and what the account of its kernel's slot says of it
after the labels `rest`. -/
def Followed (config : Config) (catalog : Catalog) (i : Nat) (request : ExecuteRequest) (sink : Sink)
    (before : List Label) (s₀ : Services) (rest : List Label) (s : Services) : Prop :=
  ∃ φ, s.Shows s₀.nextTask φ ∧
    Course request sink (s₀.gather (exchanges s₀.nextTask) rest) φ ∧
    Account request i (ReadOff i s₀.nextTask (init config catalog) (before ++ rest))
      ((init config catalog).gather (granted i) (before ++ rest))
      ((init config catalog).gather (Services.counted i) (before ++ rest)) s₀.nextTask
      (s₀.gather (exchanges s₀.nextTask) rest) φ

namespace Followed

variable {rest : List Label}

theorem of_call (reached : (init config catalog).run before = some s₀)
    (untouched : Untouched i (init config catalog) before)
    (step : s₀.step (.call (.execute request sink)) = some s') :
    Followed config catalog i request sink before s₀ [.call (.execute request sink)] s' := by
  let call : Label := .call (.execute request sink)
  have fresh := (sound_run (sound_init config catalog) reached).fresh
  obtain ⟨φ, shown, course⟩ := course_of_call fresh step
  have account := Account.of_call
    (R := ReadOff i s₀.nextTask (init config catalog) (before ++ [call]))
    (tallied_run untouched reached) fresh step shown
  have nothing : s₀.granted i call = [] ∧ s₀.counted i call = [] := ⟨rfl, rfl⟩
  rw [Followed, gather_append_singleton reached, gather_append_singleton reached, gather_cons step,
    gather, List.append_nil, nothing.1, nothing.2, List.append_nil, List.append_nil]
  exact ⟨φ, shown, course, account⟩

theorem step (h : Followed config catalog i request sink before s₀ rest s)
    (kernel : request.kernel = .fresh i) (executes : s.Executes s₀.nextTask request)
    (reached : (init config catalog).run (before ++ rest) = some s) (start : s₀.run rest = some s)
    (untouched : Untouched i (init config catalog) (before ++ rest ++ [l]))
    (step : s.step l = some s') :
    Followed config catalog i request sink before s₀ (rest ++ [l]) s' := by
  obtain ⟨φ, shown, course, account⟩ := h
  have sound := sound_run (sound_init config catalog) reached
  have after := tallied_run untouched (run_concat reached step)
  rw [gather_append_singleton reached, gather_append_singleton reached] at after
  have passage : Passage i request s₀.nextTask _ _ s l s' :=
    ⟨kernel, sound, executes, step, tally_of_step reached step,
      tallied_run untouched.of_append reached, after⟩
  obtain ⟨φ', shown', next⟩ := next_of_step sound executes.begun shown step
  rw [Followed, ← List.append_assoc, gather_append_singleton reached,
    gather_append_singleton reached, gather_append_singleton start]
  refine ⟨φ', shown', course.next next, account.next course passage shown shown' next ?_ ?_⟩
  · exact fun n h => h.append [l]
  · exact fun going off => ⟨_, l, [], s, s', rfl, reached, step,
      ⟨φ, phase?_of_shows shown, going⟩, ⟨φ', phase?_of_shows shown', off⟩, rfl⟩

end Followed

/-- An execution for the kernel of an entry, from its call on. -/
theorem followed_run (kernel : request.kernel = .fresh i)
    (reached : (init config catalog).run before = some s₀)
    (untouched : Untouched i (init config catalog)
      (before ++ .call (.execute request sink) :: during))
    (run : s₀.run (.call (.execute request sink) :: during) = some s) :
    Followed config catalog i request sink before s₀ (.call (.execute request sink) :: during) s := by
  let call : Label := .call (.execute request sink)
  obtain ⟨s₁, first, run⟩ := Option.bind_eq_some_iff.mp run
  refine run_induction (I := fun ks d => Untouched i (init config catalog) (before ++ call :: ks) →
    Followed config catalog i request sink before s₀ (call :: ks) d) ?_ ?_ run untouched
  · exact fun untouched => .of_call reached untouched.of_append first
  · intro ks l d d' reached' step ih untouched
    have start : s₀.run (call :: ks) = some d := (run_cons first).trans reached'
    have whole : (init config catalog).run (before ++ call :: ks) = some d := by
      rw [run_append, reached, Option.bind_some, start]
    rw [← List.cons_append, ← List.append_assoc] at untouched
    exact (ih untouched.of_append).step kernel (executes_of_begun reached start) whole start
      untouched step

/-- Whoever was granted the slot was called to execute a request for the kernel. -/
theorem begun_of_granted (run : (init config catalog).run ls = some s)
    (h : t ∈ (init config catalog).gather (granted i) ls) :
    ∃ before request sink during s₀, ls = before ++ .call (.execute request sink) :: during ∧
      (init config catalog).run before = some s₀ ∧ request.kernel = .fresh i ∧ t = s₀.nextTask := by
  obtain ⟨upto, l, rest, d, rfl, reached, ht⟩ := mem_gather h
  rw [run_append, reached, Option.bind_some] at run
  obtain ⟨d', step, -⟩ := Option.bind_eq_some_iff.mp run
  obtain ⟨own, ⟨id, executing⟩, acquired⟩ := mem_granted.mp ht
  obtain ⟨-, -, x, -, shown, -⟩ := shows_of_granted reached step ht
  obtain ⟨before, request, sink, during, s₀, rfl, reached', rfl⟩ :=
    begun_of_executing reached executing
  have executes := executes_of_begun reached' (run_of_begun reached' reached)
  obtain ⟨was, -⟩ := execute_of_acquired own shown step acquired
  refine ⟨before, request, sink, during ++ l :: rest, s₀, ?_, reached', ?_, rfl⟩
  · rw [List.append_assoc, List.cons_append]
  · exact executes.aimed _ _ i was rfl

end Services

namespace Transcript

variable {request : ExecuteRequest} {seen : List Exchange} {es : List OutputEvent}
  {f : Option Failure}

theorem any_fails (h : Transcript request seen es f) : seen.any Exchange.fails = f.isSome := by
  cases h <;> simp [Exchange.fails]

end Transcript

namespace Services

/-- Whatever the settings, the other calls and the order of the steps: as long as nobody restarts
the kernel and no caller counts on its slot, its count is the number of the executions that were not
silent and came to the end of their streams on it, and these ended in the order in which they held
the slot. Of the executions for the kernel that have returned, each of these reports its number among
them; one that is silent or had nothing left to submit reports how many of them held the slot before
it, and is none of them; and one that was refused or could not submit reports nothing, and is none of
them. A count that is reported is the kernel's after the step with which the execution gave up its
slot. -/
theorem executions_numbered (config : Config) (catalog : Catalog) (ls : List Label) (s : Services)
    (i : Nat) (unrestarted : .call (.pool (.restart (.fresh i))) ∉ ls)
    (unrecorded : ∀ before slot during d, ls = before ++ .call (.record slot) :: during →
      (init config catalog).run before = some d → d.held? slot ≠ some i)
    (run : (init config catalog).run ls = some s) :
    ∃ held counted, (init config catalog).gather (granted i) ls = held ∧
      (init config catalog).gather (Services.counted i) ls = counted ∧
      held.Nodup ∧ counted.Sublist held ∧ s.countOf i = counted.length ∧
      (∀ t ∈ held, ∃ before request sink during s₀,
        ls = before ++ .call (.execute request sink) :: during ∧
        (init config catalog).run before = some s₀ ∧ request.kernel = .fresh i ∧
        t = s₀.nextTask) ∧
      ∀ before request sink during s₀ reply,
        ls = before ++ .call (.execute request sink) :: during →
        (init config catalog).run before = some s₀ → request.kernel = .fresh i →
        s.replies.get? s₀.nextTask = some reply →
          ∃ res es f, reply = .result res (sink.after es) ∧
            Transcript request
              (s₀.gather (exchanges s₀.nextTask) (.call (.execute request sink) :: during)) es f ∧
            Reported request held counted s₀.nextTask f.isSome res.executionCount ∧
            ∀ n, res.executionCount = some n →
              ReadOff i s₀.nextTask (init config catalog) ls n := by
  have untouched : Untouched i (init config catalog) ls := ⟨unrestarted, unrecorded⟩
  have tallied := tallied_run untouched run
  refine ⟨_, _, rfl, rfl, tallied.single, tallied.order, countOf_eq.trans tallied.count,
    fun t => begun_of_granted run, ?_⟩
  rintro before request sink during s₀ reply rfl reached kernel returned
  obtain ⟨φ, shown, course, account⟩ :=
    followed_run kernel reached untouched (run_of_begun reached run)
  generalize s₀.gather (exchanges s₀.nextTask) (.call (.execute request sink) :: during) = seen
    at course account ⊢
  cases course with
  | ended _ es f res went =>
    refine ⟨res, es, f, Option.some.inj (returned.symm.trans shown.1), went, ?_⟩
    rw [← went.any_fails]
    cases account with
    | through _ _ reported read => exact ⟨reported, read⟩
    | seated _ on => cases on
  | acquiring | submitting | reading | removing =>
    exact absurd (shown.1.symm.trans returned) (by simp)

/-- While an execution has the slot, another one waits for it that has nothing to submit. -/
def queueing : List Label :=
  booting ++ [.call (.execute printer.request printer.sink), idly (.fresh 0), .resume 1, .resume 1]

/-- A third one queues up behind them, and each has its turn. -/
def takingTurns : List Label :=
  [.resume 2, .resume 3, .submitted 1 ⟨"r"⟩,
    .deliver 0 (.message ⟨some ⟨"r"⟩, "status", .object [("execution_state", .string "idle")]⟩),
    .resume 1, .resume 2, .resume 3, .submitted 3 ⟨"q"⟩,
    .deliver 0 (.message ⟨some ⟨"q"⟩, "status", .object [("execution_state", .string "idle")]⟩),
    .resume 3]

/-- The third execution is the second that is counted. -/
theorem executions_numbered_queueing :
    ∃ s₀ s res k, (init { } [.python3]).run queueing = some s₀ ∧
      s₀.run (.call (.execute printer.request printer.sink) :: takingTurns) = some s ∧
      s.replies.get? 3 = some (.result res k) ∧ res.executionCount = some 2 ∧ s.countOf 0 = 2 := by
  let ls := queueing ++ .call (.execute printer.request printer.sink) :: takingTurns
  have h : ((init { } [.python3]).run queueing).bind (fun s₀ =>
      (s₀.run (.call (.execute printer.request printer.sink) :: takingTurns)).bind fun s =>
        (s.replies.get? s₀.nextTask).map fun _ => s₀.nextTask) = some 3 := by
    decide
  have order : (init { } [.python3]).gather (Services.counted 0) ls = [1, 3] := by decide
  have unrecorded : ∀ before slot during d, ls = before ++ .call (.record slot) :: during →
      (init { } [.python3]).run before = some d → d.held? slot ≠ some 0 := by
    intro before slot during d hls
    have called : .call (.record slot) ∈ ls :=
      hls ▸ List.mem_append_right _ (List.mem_cons_self ..)
    simp [ls, queueing, takingTurns, booting, idly] at called
  obtain ⟨s₀, start, h⟩ := Option.bind_eq_some_iff.mp h
  obtain ⟨s, run, h⟩ := Option.bind_eq_some_iff.mp h
  obtain ⟨reply, returned, next⟩ := Option.map_eq_some_iff.mp h
  have reached : (init { } [.python3]).run ls = some s := by
    rw [run_append, start, Option.bind_some, run]
  obtain ⟨held, counted, -, rfl, -, -, count, -, reports⟩ :=
    executions_numbered { } [.python3] ls s 0 (by decide) unrecorded reached
  obtain ⟨res, es, f, rfl, -, reported, -⟩ :=
    reports queueing printer.request printer.sink takingTurns s₀ reply rfl start rfl returned
  rw [order] at count reported
  rw [next] at returned reported
  have second : ∀ {b n}, Reported printer.request held [1, 3] 3 b n → n = some 2 := by
    intro b n h
    cases h with
    | failed uncounted | aside _ _ _ _ uncounted => simp at uncounted
    | counted k _ _ turn =>
      rcases k with _ | _ | k
      · cases turn
      · rfl
      · cases turn
  exact ⟨s₀, s, res, _, start, run, returned, second reported, count⟩

end Services
end NotebookKernels
