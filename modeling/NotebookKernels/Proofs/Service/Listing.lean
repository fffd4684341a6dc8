import NotebookKernels.Proofs.Listing.Parsing
import NotebookKernels.Proofs.Service.Deeds
import NotebookKernels.Proofs.Service.Reading

/- The listing of a kernel's variables.

   A listing runs a script on the kernel and reads what the script prints (`Activity.Lists`). It reads the
   output of its own request as any other reader does, and keeps the text on the standard output
   (`listening`). When the stream has ended, this text alone decides what is listed, however it
   was cut into events and whatever else came between them (`variables_listed`). -/
namespace NotebookKernels

namespace Poll

/-- The piece of standard output that a message of the request brings. -/
def piece? (r : RequestId) (p : Poll) : Option String := (p.event? r).bind OutputEvent.stdoutText?

/-- The text on the standard output of a request, up to the end of its stream. -/
def printed (r : RequestId) (ps : List Poll) : String :=
  String.join ((ps.takeWhile fun p => !p.ends r).filterMap (piece? r))

/-- The last word of a failure is no standard output. -/
theorem printed_eq (r : RequestId) (ps : List Poll) :
    printed r ps = String.join ((yielded r ps).filterMap OutputEvent.stdoutText?) := by
  have last : ∀ p : Poll, p.lastWord?.toList.filterMap OutputEvent.stdoutText? = [] := by
    intro p
    cases p <;> rfl
  have hlast : ((ps.find? (ends r)).bind lastWord?).toList.filterMap OutputEvent.stdoutText? = [] := by
    cases ps.find? (ends r) with
    | none => rfl
    | some p => exact last p
  rw [printed, yielded, List.filterMap_append, hlast, List.append_nil, List.filterMap_filterMap]
  rfl

end Poll

/-- What a task does that lists variables. It submits its script to a worker that there is. -/
inductive Activity.Lists (p : Pool) : Activity → Prop
  | acquiring (stage : Stage) : Lists p (.pool .introspection stage)
  | submitting {i : Nat} (code : Code) (has : p.Has i) :
    Lists p (.submitting (.listing ⟨.python, [], 0⟩) i code)
  | receiving (l : Listing) (i : Nat) (r : RequestId) : Lists p (.receiving (.listing l) i r)
  | pausing (l : Listing) (i : Nat) (r : RequestId) : Lists p (.pausing (.listing l) i r)

theorem Activity.Lists.mono {p p' : Pool} {a : Activity} (h : a.Lists p)
    (has : ∀ i, p.Has i → p'.Has i) : a.Lists p' := by
  cases h with
  | acquiring stage => exact .acquiring stage
  | submitting code there => exact .submitting code (has _ there)
  | receiving l i r => exact .receiving l i r
  | pausing l i r => exact .pausing l i r

/-- The reply is a listing of variables, or a failure. -/
inductive Reply.IsListing : Reply → Prop
  | listing (vs : List Variable) : IsListing (.listing vs)
  | failed (f : Failure) : IsListing (.pool (.failed f))

/-- The calls to list variables. -/
inductive Call.Lists : Call → Prop
  | list (i : Nat) : Lists (.list i)
  | introspect (id : KernelId) : Lists (.introspect id)

namespace Services

open Poll (yielded ends printed)

variable {s s' s₀ s₁ : Services} {t : TaskId} {i : Nat} {r : RequestId} {l : Label}
  {ls : List Label} {ps : List Poll}

/-! ## What a listing takes in -/

/-- A listing keeps the text on the standard output, and replies what it parses to. -/
def listening : Intake where
  holds es w := ∃ l : Listing, w = .listing l ∧ l.inspector = .python ∧
    l.stdout = es.filterMap OutputEvent.stdoutText?
  reply es := .listing (Inspector.python.parse (String.join (es.filterMap OutputEvent.stdoutText?)))

theorem listening_faithful : listening.Faithful := by
  rintro s t w i r es m fresh ⟨l, rfl, hinspector, hstdout⟩
  have hset (l' : Listing) (hi : l'.inspector = .python) (es' : List OutputEvent)
      (hl : l'.stdout = es'.filterMap OutputEvent.stdoutText?) :
      (s.setTask t (.receiving (.listing l') i r)).TakesIn listening t i r es' false :=
    ⟨fresh, _, ⟨l', rfl, hi, hl⟩, .inl (Table.get?_set_self ..)⟩
  have hend (l' : Listing) (hi : l'.inspector = .python) (es' : List OutputEvent)
      (hl : l'.stdout = es'.filterMap OutputEvent.stdoutText?) :
      (s.endStream t i (.listing l')).TakesIn listening t i r es' true := by
    have hreply : listening.reply es' = .listing (l'.inspector.parse (String.join l'.stdout)) := by
      rw [hi, hl]
      rfl
    exact ⟨hreply ▸ Table.get?_set_self .., Table.get?_erase_self ..⟩
  let heard (e : OutputEvent) : Listing :=
    { l with stdout := l.stdout ++ e.stdoutText?.toList, deadline := s.listingDeadline }
  have hheard (e : OutputEvent) :
      (heard e).stdout = (es ++ [e]).filterMap OutputEvent.stdoutText? := by
    show l.stdout ++ e.stdoutText?.toList = _
    rw [hstdout, List.filterMap_append]
    cases h : e.stdoutText? <;> simp [h]
  rw [receive]
  rcases delivery_cases r m with ⟨hm, hends, hes⟩ | ⟨e, hm, hends, hes⟩ | ⟨hm, hends, hes⟩ |
      ⟨f, hm, hends, hes⟩ <;> rw [hm, hends, hes]
  · exact hset l hinspector _ (by rw [List.append_nil, hstdout])
  · exact hset (heard e) hinspector _ (hheard e)
  · exact hend l hinspector _ (by rw [List.append_nil, hstdout])
  · exact hend (heard (.ofFailure f)) hinspector _ (hheard _)

/-! ## The stages of a listing -/

/-- The task lists variables, or is done. -/
structure Lists (s : Services) (t : TaskId) : Prop where
  activity : ∀ a, s.tasks.get? t = some a → a.Lists s.pool

/-- The task takes no more than a slot from the pool, and replies with a listing or fails. -/
structure Inspects (s : Services) (t : TaskId) : Prop extends s.Lists t where
  acquires : ∀ stage, s.tasks.get? t = some (.pool .introspection stage) → stage.Acquires
  reply : ∀ r, s.replies.get? t = some r → r.IsListing

theorem inspects_setTask {a : Activity} (owed : s.replies.get? t = none) (ha : a.Lists s.pool)
    (acquires : ∀ stage, a = .pool .introspection stage → stage.Acquires) :
    (s.setTask t a).Inspects t := by
  have hset : (s.setTask t a).tasks.get? t = some a := Table.get?_set_self ..
  refine ⟨⟨fun b hb => ?_⟩, fun stage hb => ?_, fun r hr => absurd (owed.symm.trans hr) (by simp)⟩
  · obtain rfl := Option.some.inj (hset.symm.trans hb)
    exact ha
  · exact acquires stage (Option.some.inj (hset.symm.trans hb))

theorem inspects_finish (s : Services) (t : TaskId) {reply : Reply} (h : reply.IsListing) :
    (s.finish t reply).Inspects t := by
  have herased : (s.finish t reply).tasks.get? t = none := Table.get?_erase_self ..
  have hset : (s.finish t reply).replies.get? t = some reply := Table.get?_set_self ..
  refine ⟨⟨fun a ha => absurd (herased.symm.trans ha) (by simp)⟩,
    fun stage ha => absurd (herased.symm.trans ha) (by simp), fun r hr => ?_⟩
  obtain rfl := Option.some.inj (hset.symm.trans hr)
  exact h

/-- A listing that has its channel submits the script, or there is none. -/
theorem inspects_list (owed : s.replies.get? t = none) (i : Nat) : (s.list t i).Inspects t := by
  unfold list
  split
  · exact inspects_finish _ t (.listing [])
  · next inspector h =>
    obtain ⟨e, he, -⟩ := Option.bind_eq_some_iff.mp h
    cases inspector
    exact inspects_setTask owed (.submitting _ (Pool.has_of_entry?_eq_some he)) (by simp)

/-- A slot is all that a listing takes from the pool, if it does not fail. -/
theorem inspects_move (owed : s.replies.get? t = none) {m : Move}
    (h : (∃ st, m = .wait st ∧ st.Acquires) ∨ (∃ i, m = .finish (.slot i)) ∨
      ∃ f, m = .finish (.failed f)) : (s.move t .introspection m).Inspects t := by
  rcases h with ⟨st, rfl, acquires⟩ | ⟨i, rfl⟩ | ⟨f, rfl⟩
  · refine inspects_setTask owed (.acquiring st) fun stage hstage => ?_
    cases hstage
    exact acquires
  · exact inspects_list (s := { s with slots := s.slots.set t i }) owed i
  · exact inspects_finish s t (.failed f)

theorem inspects_receive (owed : s.replies.get? t = none) (l : Listing) (i : Nat) (r : RequestId)
    (m : Mail) : (s.receive t (.listing l) i r m).Inspects t := by
  unfold receive
  split
  · exact inspects_setTask owed (.receiving ..) (by simp)
  · exact inspects_setTask owed (.receiving ..) (by simp)
  · exact inspects_finish _ t (.listing _)
  · exact inspects_finish _ t (.listing _)

/-- Whatever happens in a step, a listing goes on listing, or replies. -/
theorem inspects_of_step (sound : s.scene.Sound) (ht : t < s.nextTask) (h : s.Inspects t)
    (step : s.step l = some s') : s'.Inspects t := by
  by_cases hl : l.task? = some t
  · obtain ⟨a, ha, happens⟩ := activity_of_step hl step
    have owed : s.replies.get? t = none := sound.fresh.owed t a ha
    cases h.activity a ha with
    | acquiring stage =>
      obtain ⟨p, m, adv, rfl, -⟩ := move_of_step hl ha step
      exact inspects_move (s := { s with pool := p }) owed (adv.acquires (h.acquires stage ha))
    | submitting =>
      rcases happens with ⟨rfl, h⟩ | ⟨ans, rfl, h⟩ | ⟨r, rfl, h⟩ | ⟨v, rfl, h⟩ | ⟨rfl, h⟩
      · cases h
      · cases ans with
        | failed f =>
          obtain rfl := Option.some.inj h
          exact inspects_finish _ t (.failed f)
        | _ => cases h
      · obtain rfl := Option.some.inj h
        exact inspects_setTask owed (.receiving ..) (by simp)
      · cases h
      · cases h
    | receiving x i r =>
      rcases happens with ⟨rfl, h⟩ | ⟨ans, rfl, h⟩ | ⟨r, rfl, h⟩ | ⟨v, rfl, h⟩ | ⟨rfl, h⟩
      · simp only [resume] at h
        split at h
        · cases h
        · next m rest _ =>
          obtain rfl := Option.some.inj h
          exact inspects_receive
            (s := { s with pool := s.pool.modify i ({ · with mail := rest }) }) owed x i r m
      · cases ans with
        | failed f =>
          obtain rfl := Option.some.inj h
          exact inspects_receive owed x i r (.failure f)
        | elapsed =>
          obtain rfl := Option.some.inj h
          exact inspects_setTask owed (.pausing ..) (by simp)
        | ok => cases h
      · cases h
      · cases h
      · obtain rfl := Option.some.inj h
        exact inspects_finish _ t (.listing _)
    | pausing x i r =>
      rcases happens with ⟨rfl, h⟩ | ⟨ans, rfl, h⟩ | ⟨r, rfl, h⟩ | ⟨v, rfl, h⟩ | ⟨rfl, h⟩
      · cases h
      · cases ans with
        | elapsed =>
          obtain rfl := Option.some.inj h
          exact inspects_setTask owed (.receiving ..) (by simp)
        | _ => cases h
      · cases h
      · cases h
      · obtain rfl := Option.some.inj h
        exact inspects_finish _ t (.listing _)
  · obtain ⟨htasks, hreplies⟩ := frame_of_step sound ht hl step
    exact ⟨⟨fun a ha => (h.activity a (htasks.symm.trans ha)).mono fun i has =>
      has_step sound has step⟩, fun stage ha => h.acquires stage (htasks.symm.trans ha),
      fun r hr => h.reply r (hreplies.symm.trans hr)⟩

/-- A call to list variables begins a listing. -/
theorem inspects_of_call {c : Call} (sound : s.scene.Sound) (hc : c.Lists)
    (step : s.step (.call c) = some s') : s'.Inspects s.nextTask := by
  obtain rfl := Option.some.inj step
  have owed : s.replies.get? s.nextTask = none := sound.fresh.reply _ (Nat.le_refl _)
  let d : Services := { s with nextTask := s.nextTask + 1 }
  cases hc with
  | list i => exact inspects_list (s := d) owed i
  | introspect id =>
    let b := s.pool.start s.catalog s.nextTask (.acquire id)
    let e := ({ d with pool := b.pool } : Services).move s.nextTask .introspection b.move
    have hnext : s.nextTask < e.nextTask :=
      (Nat.lt_succ_self _).trans_eq (nextTask_move (s := { d with pool := b.pool }) b.move).symm
    have begins : (∃ st, b.move = .wait st ∧ st.Acquires) ∨ (∃ i, b.move = .finish (.slot i)) ∨
        ∃ f, b.move = .finish (.failed f) := by
      rcases Pool.start_acquire s.pool s.catalog s.nextTask id with ⟨i, hmove⟩ | ⟨f, hmove⟩
      · exact .inl ⟨_, hmove, trivial⟩
      · exact .inr (.inr ⟨f, hmove⟩)
    have he : e.Inspects s.nextTask := inspects_move (s := { d with pool := b.pool }) owed begins
    obtain ⟨htasks, hreplies⟩ := reap_of_lt b.dead hnext
    refine ⟨⟨fun a ha => (he.activity a (htasks.symm.trans ha)).mono fun i has => ?_⟩,
      fun stage ha => he.acquires stage (htasks.symm.trans ha),
      fun r hr => he.reply r (hreplies.symm.trans hr)⟩
    exact (pool_reap (s := e) b.dead).symm ▸ has

/-- When a worker accepts the script, the listing begins to read. -/
theorem reads_of_submitted (h : s.Lists t) (step : s.step (.submitted t r) = some s') :
    ∃ i l, s'.tasks.get? t = some (.receiving (.listing l) i r) ∧ l.inspector = .python ∧
      l.stdout = [] ∧ s'.pool.Has i ∧ s'.replies = s.replies := by
  obtain ⟨a, ha, haccept⟩ := Option.bind_eq_some_iff.mp step
  cases h.activity a ha with
  | @submitting i code has =>
    obtain rfl := Option.some.inj haccept
    exact ⟨i, _, Table.get?_set_self .., rfl, rfl, has, rfl⟩
  | acquiring | receiving | pausing => cases haccept

/-- A call to list variables, as far as it has come. -/
theorem inspects_of_run {c : Call} (sound : s₀.scene.Sound) (hc : c.Lists)
    (run : s₀.run (.call c :: ls) = some s) :
    s.scene.Sound ∧ s₀.nextTask < s.nextTask ∧ s.Inspects s₀.nextTask := by
  obtain ⟨s₁, step, run⟩ := Option.bind_eq_some_iff.mp run
  have hlt : s₀.nextTask < s₁.nextTask := nextTask_le_step sound step
  refine run_keeps (P := fun _ => True)
    (I := fun s => s.scene.Sound ∧ s₀.nextTask < s.nextTask ∧ s.Inspects s₀.nextTask)
    ?_ (fun _ _ => trivial) ⟨sound_step sound step, hlt, inspects_of_call sound hc step⟩ run
  rintro s l s' - ⟨sound, ht, inspects⟩ step
  have hle := Nat.le_trans (nextTask_le_stir s l) (nextTask_le_step sound step)
  exact ⟨sound_step sound step, Nat.lt_of_lt_of_le ht hle, inspects_of_step sound ht inspects step⟩

/-- When the stream of a listing has ended, its reply is what the printed text parses to. -/
theorem reply_of_run {c : Call} {during : List Label} (sound : s₀.scene.Sound) (hc : c.Lists)
    (begun : s₀.run (.call c :: during) = some s₁)
    (run : s₁.run (.submitted s₀.nextTask r :: ls) = some s)
    (polled : s₁.gather (polls s₀.nextTask) (.submitted s₀.nextTask r :: ls) = ps)
    (ended : ps.any (ends r) = true) (intime : .expire s₀.nextTask ∉ ls) :
    s.replies.get? s₀.nextTask = some (.listing (Inspector.python.parse (printed r ps))) := by
  obtain ⟨sound₁, ht, inspects⟩ := inspects_of_run sound hc begun
  obtain ⟨s₂, step, run⟩ := Option.bind_eq_some_iff.mp run
  obtain ⟨i, l, reading, inspector, stdout, -, replies⟩ := reads_of_submitted inspects.toLists step
  have first : s₂.TakesIn listening s₀.nextTask i r [] false := by
    refine ⟨?_, _, ⟨l, rfl, inspector, stdout⟩, .inl reading⟩
    obtain ⟨a, ha, -⟩ := Option.bind_eq_some_iff.mp step
    rw [replies]
    exact sound₁.fresh.owed _ a ha
  have hpolled : s₂.gather (polls s₀.nextTask) ls = ps := by
    rw [gather_cons step] at polled
    exact polled
  have hlt := Nat.lt_of_lt_of_le ht
    (Nat.le_trans (nextTask_le_stir s₁ _) (nextTask_le_step sound₁ step))
  have htakes := takesIn_of_run listening_faithful (.inl intime) (sound_step sound₁ step) hlt first run
  rw [hpolled, ended] at htakes
  rw [Poll.printed_eq]
  exact htakes.1

/-! ## Listings in time -/

/-- A call to list variables, begun as the task, has been accepted as the request, and these are the
outcomes of its polls: the stream has ended, and no wait for an event was too long. -/
inductive Listed (s : Services) (t : TaskId) (r : RequestId) (ps : List Poll) : Prop
  | mk {config : Config} {catalog : Catalog} {before during ls : List Label} {s₀ s₁ : Services}
    {c : Call} (start : (init config catalog).run before = some s₀) (task : s₀.nextTask = t)
    (call : c.Lists) (begun : s₀.run (.call c :: during) = some s₁)
    (accepted : s₁.run (.submitted t r :: ls) = some s)
    (polled : s₁.gather (polls t) (.submitted t r :: ls) = ps) (ended : ps.any (ends r) = true)
    (intime : .expire t ∉ ls)

theorem Listed.reply (h : Listed s t r ps) :
    s.replies.get? t = some (.listing (Inspector.python.parse (printed r ps))) := by
  obtain @⟨config, catalog, before, during, ls, s₀, s₁, c, start, rfl, call, begun, accepted, polled,
    ended, intime⟩ := h
  exact reply_of_run (sound_run (sound_init config catalog) start) call begun accepted polled ended
    intime

/-- A listing that has been accepted can be given every sequence of outcomes up to one that ends the
stream. -/
theorem Listed.realize {qs : List Poll} (h : Listed s t r ps)
    (going : ∀ q ∈ qs.dropLast, q.ends r = false) (ended : qs.any (ends r) = true) :
    ∃ d, Listed d t r qs := by
  obtain @⟨config, catalog, before, during, ls, s₀, s₁, c, start, rfl, call, begun, accepted, -, -, -⟩ := h
  obtain ⟨sound₁, -, inspects⟩ :=
    inspects_of_run (sound_run (sound_init config catalog) start) call begun
  obtain ⟨s₂, step, -⟩ := Option.bind_eq_some_iff.mp accepted
  obtain ⟨i, l, reading, -, -, has, -⟩ := reads_of_submitted inspects.toLists step
  let s₃ : Services := { s₂ with pool := s₂.pool.modify i ({ · with mail := [] }) }
  have hrenew : s₂.step (.renew i) = some s₃ := rfl
  have awaits : s₃.Awaits s₀.nextTask i r := by
    refine ⟨⟨_, reading⟩, Pool.has_modify.mpr has, ?_⟩
    exact (Pool.mail_modify_mail (fun _ => []) has).trans (if_pos rfl)
  obtain ⟨d, hrun, hpolls⟩ := feed_all awaits going
  refine ⟨d, @Listed.mk _ _ _ _ config catalog before during (.renew i :: qs.flatMap (feed s₀.nextTask i))
    s₀ s₁ c start rfl call begun ?_ ?_ ended ?_⟩
  · rw [run_cons step, run_cons hrenew]
    exact hrun
  · rw [gather_cons step, gather_cons hrenew]
    exact hpolls
  · have hfeed : ∀ q : Poll, .expire s₀.nextTask ∉ feed s₀.nextTask i q := by
      intro q
      cases q <;> simp [feed]
    simp [hfeed]

/-- What a listing replies depends on the standard output of its own request alone: any other listing
with the same text, however it came and whatever came between, replies the same, and there is a run for
every way in which it can come. If the text has a last line that is a JSON array, the variables are those
of its records, in order, but for internal names; all other items are left out. Of the JSON of some
variables these are the variables themselves. No name in a reply begins with an underscore. -/
theorem variables_listed (listed : Listed s t r ps) :
    (∃ vs, s.replies.get? t = some (.listing vs) ∧ ∀ v ∈ vs, v.name.toList.head? ≠ some '_') ∧
    (∀ (d : Services) (u : TaskId) (r' : RequestId) (qs : List Poll), Listed d u r' qs →
      printed r' qs = printed r ps → d.replies.get? u = s.replies.get? t) ∧
    (∀ qs : List Poll, (∀ q ∈ qs.dropLast, q.ends r = false) → qs.any (ends r) = true →
      ∃ d, Listed d t r qs) ∧
    (∀ (line : Text) (items : List Json) (vs : List (Option Variable)),
      Inspector.Closing line (printed r ps).toList → (Json.array items).WrittenIn line.trim →
      List.Forall₂ Variable.Entry items vs →
      s.replies.get? t =
        some (.listing (vs.reduceOption.filter fun v => ¬Inspector.Internal v.name))) ∧
    (∀ (line : Text) (vs : List Variable), Inspector.Closing line (printed r ps).toList →
      (Json.Source.ofValue (.array (vs.map Variable.json))).Spaced line.trim →
      (∀ v ∈ vs, v.size < Decimal.wordLimit) →
      s.replies.get? t = some (.listing (vs.filter fun v => ¬Inspector.Internal v.name))) := by
  have hreply := listed.reply
  refine ⟨⟨_, hreply, fun v hv => ?_⟩, ?_, fun qs => listed.realize, ?_, ?_⟩
  · exact fun underscore => Inspector.not_internal_of_mem_parse hv (.inl underscore)
  · intro d u r' qs listed' same
    rw [listed'.reply, same, hreply]
  · intro line items vs closing array entries
    rw [hreply, Inspector.parse_of_closing closing array entries]
  · intro line vs closing written words
    rw [hreply, Inspector.parse_of_json closing written words]

/-- A message on the standard output of a request. -/
def stdoutOf (r : RequestId) (text : String) : Mail :=
  .message ⟨some r, "stream", .object [("name", .string "stdout"), ("text", .string text)]⟩

/-- The stream of the request ends. -/
def idleOf (r : RequestId) : Mail :=
  .message ⟨some r, "status", .object [("execution_state", .string "idle")]⟩

/-- A script prints in two pieces, with an error output and somebody else's array between them. -/
def pieces : List Label :=
  [.deliver 0 (stdoutOf ⟨"r"⟩ "hello\n[\x7b\"name\": \"x\", \"ty"),
    .deliver 0 (.message ⟨some ⟨"r"⟩, "stream",
      .object [("name", .string "stderr"), ("text", .string "[]\n")]⟩),
    .deliver 0 (stdoutOf ⟨"q"⟩ "[]\n"), .resume 1, .resume 1, .resume 1, .answer 1 .elapsed,
    .answer 1 .elapsed,
    .deliver 0 (stdoutOf ⟨"r"⟩
      "pe\": \"int\"\x7d, 3, \x7b\"name\": \"_y\", \"type\": \"int\"\x7d]\nbye\n"),
    .deliver 0 (idleOf ⟨"r"⟩), .resume 1, .resume 1]

/-- Two records of variables with a number between them. -/
def records : String :=
  "[\x7b\"name\": \"x\", \"type\": \"int\"\x7d, 3, \x7b\"name\": \"_y\", \"type\": \"int\"\x7d]"

/-- A record of an integer. -/
def integer (name : String) : Json := .object [("name", .string name), ("type", .string "int")]

/-- The same text in one piece. -/
def onePiece : List Label :=
  [.deliver 0 (stdoutOf ⟨"r"⟩ ("hello\n" ++ records ++ "\nbye\n")), .deliver 0 (idleOf ⟨"r"⟩),
    .resume 1, .resume 1]

/-- Both runs list the one variable that is not internal. -/
theorem variables_listed_pieces :
    ∃ s d ps qs, Listed s 1 ⟨"r"⟩ ps ∧ Listed d 1 ⟨"r"⟩ qs ∧
      s.replies.get? 1 = some (.listing [⟨"x", "int", "", "", 0⟩]) ∧
      d.replies.get? 1 = s.replies.get? 1 := by
  have run (ls : List Label) (intime : .expire 1 ∉ ls)
      (h : ((init { } [.python3]).run booting).bind (fun s₀ =>
        (s₀.run [.call (.list 0)]).bind fun s₁ => (s₁.run (.submitted 1 ⟨"r"⟩ :: ls)).map fun _ =>
          (s₀.nextTask, printed ⟨"r"⟩ (s₁.gather (polls 1) (.submitted 1 ⟨"r"⟩ :: ls)),
            (s₁.gather (polls 1) (.submitted 1 ⟨"r"⟩ :: ls)).any (ends ⟨"r"⟩))) =
          some (1, "hello\n" ++ records ++ "\nbye\n", true)) :
      ∃ s ps, Listed s 1 ⟨"r"⟩ ps ∧ printed ⟨"r"⟩ ps = "hello\n" ++ records ++ "\nbye\n" := by
    obtain ⟨s₀, start, h⟩ := Option.bind_eq_some_iff.mp h
    obtain ⟨s₁, begun, h⟩ := Option.bind_eq_some_iff.mp h
    obtain ⟨s, accepted, h⟩ := Option.map_eq_some_iff.mp h
    obtain ⟨next, h⟩ := Prod.mk.inj h
    obtain ⟨text, ended⟩ := Prod.mk.inj h
    exact ⟨s, _, .mk start next (.list 0) begun accepted rfl ended intime, text⟩
  obtain ⟨s, ps, listed, hps⟩ := run pieces (by decide) (by decide +kernel)
  obtain ⟨d, qs, listed', hqs⟩ := run onePiece (by decide) (by decide +kernel)
  obtain ⟨-, agree, -, list, -⟩ := variables_listed listed
  have array : (Json.array [integer "x", .nat 3, integer "_y"]).WrittenIn (Text.trim records.toList) :=
    Json.read?_eq_some_iff.mp (by decide +kernel)
  have closing : Inspector.Closing records.toList (printed ⟨"r"⟩ ps).toList := by
    rw [hps]
    have hbye : Json.read? "bye".toList = none := by decide +kernel
    refine @Inspector.Closing.mk _ _ ["hello".toList] ["bye".toList] (by decide +kernel) ?_
    intro l hl items hitems
    obtain rfl := List.mem_singleton.mp hl
    exact absurd (hbye.symm.trans (Json.read?_eq_some_iff.mpr hitems)) (by simp)
  have entry (name : String) : Variable.Entry (integer name) (some ⟨name, "int", "", "", 0⟩) :=
    .record (.object ⟨rfl, rfl, rfl, rfl, rfl, (by decide : 0 < Decimal.wordLimit)⟩)
  have other : Variable.Entry (.nat 3) none := .other (by rintro v ⟨⟩)
  have hlist := list _ _ _ closing array (.cons (entry "x") (.cons other (.cons (entry "_y") .nil)))
  exact ⟨s, d, ps, qs, listed, listed', hlist, agree d 1 ⟨"r"⟩ qs listed' (hqs.trans hps.symm)⟩

end Services
end NotebookKernels
