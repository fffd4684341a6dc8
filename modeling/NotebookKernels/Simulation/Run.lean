import NotebookKernels.Simulation.World

/- Running the services in a world.

   One task runs at a time, as far as it can; those that it wakes run after it,
   in the order in which they were woken. Time passes only when no task can run,
   and then up to the next timer. So a run is determined by its calls. -/
namespace NotebookKernels

/-- Something to do. -/
inductive Job (τ : Type) where
  /-- A task runs. -/
  | task (t : TaskId)
  /-- A world gets a token back. -/
  | token (token : τ)
  /-- A call or a wait ends. -/
  | answer (k : Ticket) (a : Answer)
  /-- The deadline of a listing is looked at. -/
  | deadline (t : TaskId)

/-- Something to do at a time. -/
structure Timer (τ : Type) where
  due : Nat
  job : Job τ

/-- How far a task has come. -/
structure Progress where
  /-- The steps that it has taken. -/
  turn : Nat := 0
  /-- Has it begun what it waits for now? -/
  begun : Bool := false

/-- The services in a world. -/
structure Simulation (σ τ : Type) where
  services : Services
  world : σ
  /-- What can be done now, in this order. -/
  ready : List (Job τ) := []
  /-- What is to be done later, the next one first. -/
  timers : List (Timer τ) := []
  progress : Table TaskId Progress := []
  /-- The ends of calls to workers that were not made by a task of the services. -/
  answers : Table TaskId Answer := []

namespace Job

def isTask {τ : Type} (t : TaskId) : Job τ → Bool
  | .task u => t = u
  | _ => false

end Job

namespace Simulation

variable {σ τ : Type}

/-- The time, in milliseconds. -/
def now (m : Simulation σ τ) : Nat := m.services.pool.now

def progressOf (m : Simulation σ τ) (t : TaskId) : Progress := (m.progress.get? t).getD { }

def ticket (m : Simulation σ τ) (t : TaskId) : Ticket := ⟨t, (m.progressOf t).turn⟩

/-- Adds a timer behind those that are due no later. -/
def insertTimer (x : Timer τ) : List (Timer τ) → List (Timer τ)
  | [] => [x]
  | y :: r => if y.due ≤ x.due then y :: insertTimer x r else x :: y :: r

/-- Does a job after a delay. -/
def after (m : Simulation σ τ) (delay : Nat) (job : Job τ) : Simulation σ τ :=
  { m with timers := insertTimer ⟨m.now + delay, job⟩ m.timers }

/-- Does a job when those that are ready are done. -/
def soon (m : Simulation σ τ) (job : Job τ) : Simulation σ τ := { m with ready := m.ready ++ [job] }

def isEnabled (w : World σ τ) (m : Simulation σ τ) (t : TaskId) : Bool :=
  (m.services.step (.resume t)).isSome ||
    match m.services.tasks.get? t with
    | some (.receiving _ i _) => (w.closed? m.world i (m.progressOf t).begun).isSome
    | _ => false

/-- Wakes the tasks that have something to do. -/
def wake (w : World σ τ) (m : Simulation σ τ) : Simulation σ τ :=
  let woken := m.services.tasks.keys.filter fun t => !m.ready.any (·.isTask t) && m.isEnabled w t
  { m with ready := m.ready ++ woken.map .task }

/-- The services take a step, if they can. -/
def step? (w : World σ τ) (m : Simulation σ τ) (l : Label) : Option (Simulation σ τ) :=
  (m.services.step l).map fun services => { m with services }.wake w

/-- The services take a step, or stay as they are. -/
def step (w : World σ τ) (m : Simulation σ τ) (l : Label) : Simulation σ τ := (m.step? w l).getD m

/-- A task takes a step, and with it gives up what it waited for. -/
def turn (w : World σ τ) (m : Simulation σ τ) (t : TaskId) (l : Label) :
    Option (Simulation σ τ) :=
  { m with progress := m.progress.set t ⟨(m.progressOf t).turn + 1, false⟩ }.step? w l

/-- What a task waited for has come, unless it waits for something else by now. -/
def serve (w : World σ τ) (m : Simulation σ τ) (k : Ticket) (l : Label) : Simulation σ τ :=
  if m.ticket k.task = k then
    match m.turn w k.task l with
    | some m => if m.ready.any (·.isTask k.task) then m else m.soon (.task k.task)
    | none => m
  else m

def answer (w : World σ τ) (m : Simulation σ τ) (k : Ticket) (a : Answer) : Simulation σ τ :=
  match m.services.tasks.get? k.task with
  | some _ => m.serve w k (.answer k.task a)
  | none => { m with answers := m.answers.set k.task a }

def effect (w : World σ τ) (m : Simulation σ τ) : Effect τ → Simulation σ τ
  | .answer k a => m.answer w k a
  | .submitted k r => m.serve w k (.submitted k.task r)
  | .replied k v => m.serve w k (.replied k.task v)
  | .alive i alive => m.step w (.alive i alive)
  | .deliver i mail => m.step w (.deliver i mail)
  | .renew i => m.step w (.renew i)
  | .after delay token => m.after delay (.token token)
  | .soon token => m.soon (.token token)

/-- The world goes into a state and does some things. -/
def act (w : World σ τ) (m : Simulation σ τ) (r : σ × List (Effect τ)) : Simulation σ τ :=
  r.2.foldl (effect w) ({ m with world := r.1 }.wake w)

/-- The wait of a task is over after a time; at once, if there is none. -/
def limitWait (w : World σ τ) (m : Simulation σ τ) (k : Ticket) (limit : Span) : Simulation σ τ :=
  if limit.coverMillis = 0 then m.answer w k .elapsed
  else m.after limit.coverMillis (.answer k .elapsed)

/-- A task begins to wait. What it waits for may be there at once, even if no time is left. -/
def beginWait (w : World σ τ) (m : Simulation σ τ) (t : TaskId) (a : Activity) : Simulation σ τ :=
  let k := m.ticket t
  let config := m.services.pool.config
  let m := { m with progress := m.progress.set t ⟨k.turn, true⟩ }
  match a with
  | .pool _ stage => match stage.call? with
    | none => m
    | some (i, c) =>
      let m := m.act w (w.call m.world k i c config.kernelTimeout)
      if c = .waitReady && m.ticket t = k then m.limitWait w k config.kernelTimeout else m
  | .submitting _ i code => m.act w (w.submit m.world k i code)
  | .querying i request => m.act w (w.query m.world k i request config.queryTimeout)
  | .receiving work i _ => match w.closed? m.world i false with
    | some f => m.answer w k (.failed f)
    | none =>
      let m := m.after config.pollTimeout.coverMillis (.answer k .elapsed)
      match work with
      | .listing l =>
        if m.now < l.deadline then m.after (l.deadline - m.now) (.deadline t)
        else m.serve w k (.expire t)
      | _ => m
  | .pausing .. => m.after config.pollBackoff.coverMillis (.answer k .elapsed)

/-- A task takes its next step or begins to wait; nothing if it waits already or has ended. -/
def advance? (w : World σ τ) (m : Simulation σ τ) (t : TaskId) : Option (Simulation σ τ) :=
  match m.turn w t (.resume t), m.services.tasks.get? t with
  | some m, _ => some m
  | none, none => none
  | none, some a =>
    if (m.progressOf t).begun then match a with
      | .receiving _ i _ => (w.closed? m.world i true).map fun f => m.answer w (m.ticket t) (.failed f)
      | _ => none
    else some (m.beginWait w t a)

/-- A task runs until it waits or has ended, for at most `fuel` steps. -/
def runTask (w : World σ τ) (t : TaskId) : Nat → Simulation σ τ → Simulation σ τ
  | 0, m => m
  | fuel + 1, m => match m.advance? w t with
    | some m => runTask w t fuel m
    | none => { m with ready := m.ready.filter fun j => !j.isTask t }

def isOverdue (m : Simulation σ τ) (t : TaskId) : Bool :=
  match m.services.tasks.get? t with
  | some (.receiving (.listing l) _ _) | some (.pausing (.listing l) _ _) => l.deadline ≤ m.now
  | _ => false

/-- The steps that one run of a task may take, and the jobs that may be done before time passes. -/
def patience : Nat := 1000000

def runJob (w : World σ τ) (m : Simulation σ τ) : Job τ → Simulation σ τ
  | .task t => runTask w t patience m
  | .token token => m.act w (w.fire m.world token)
  | .answer k a => m.answer w k a
  | .deadline t => if m.isOverdue t then m.serve w (m.ticket t) (.expire t) else m

/-- Does what can be done before time passes, at most `fuel` jobs. -/
def settleFor (w : World σ τ) : Nat → Simulation σ τ → Simulation σ τ
  | 0, m => m
  | fuel + 1, m => match m.ready with
    | [] => m
    | j :: rest => settleFor w fuel ({ m with ready := rest }.runJob w j)

/-- Does what can be done before time passes. -/
def settle (w : World σ τ) (m : Simulation σ τ) : Simulation σ τ := settleFor w patience m

/-- Time passes up to the next timer, if it is due by then, and its job is done. -/
def tick? (w : World σ τ) (latest : Nat) (m : Simulation σ τ) : Option (Simulation σ τ) :=
  match m.timers with
  | [] => none
  | x :: rest =>
    if x.due ≤ latest then
      some ((({ m with timers := rest }.step w (.pass (x.due - m.now))).runJob w x.job).settle w)
    else none

/-- Time passes until the condition holds or the time `latest` has come; at most `fuel` timers. -/
def waitFor (w : World σ τ) (done : Simulation σ τ → Bool) (latest : Nat) :
    Nat → Simulation σ τ → Simulation σ τ
  | 0, m => m
  | fuel + 1, m =>
    if done m then m
    else match m.tick? w latest with
      | some m => waitFor w done latest fuel m
      | none => m

/-- Waits until the condition holds, for at most a time. -/
def waitUntil (w : World σ τ) (m : Simulation σ τ) (limit : Nat) (done : Simulation σ τ → Bool) :
    Simulation σ τ :=
  let m := m.settle w
  waitFor w done (m.now + limit) patience m

/-- Time passes. -/
def pass (w : World σ τ) (m : Simulation σ τ) (duration : Nat) : Simulation σ τ :=
  let m := m.settle w
  let latest := m.now + duration
  let m := waitFor w (fun _ => false) latest patience m
  m.step w (.pass (latest - m.now))

/-- A call begins, as the task with this name. -/
def begin (w : World σ τ) (m : Simulation σ τ) (c : Call) : TaskId × Simulation σ τ :=
  let t := m.services.nextTask
  (t, (m.step w (.call c)).soon (.task t))

/-- A kernel is to be created: its worker is launched, if its kind is known. -/
def create (w : World σ τ) (m : Simulation σ τ) (request : KernelCreate) :
    TaskId × Simulation σ τ :=
  match m.services.catalog.find? request.name with
  | none => m.begin w (.pool (.create request none))
  | some spec =>
    let (world, refusal) := w.launch m.world spec
    { m with world }.begin w (.pool (.create request refusal))

def reply? (m : Simulation σ τ) (t : TaskId) : Option Reply := m.services.replies.get? t

/-- Waits until a call has ended, for at most a minute. -/
def join (w : World σ τ) (m : Simulation σ τ) (t : TaskId) : Simulation σ τ :=
  m.waitUntil w 60000 fun m => (m.reply? t).isSome

/-- Makes a call and waits until it has ended. -/
def call (w : World σ τ) (m : Simulation σ τ) (c : Call) : Option Reply × Simulation σ τ :=
  let (t, m) := m.begin w c
  let m := m.join w t
  (m.reply? t, m)

/-! ## Workers without a pool -/

/-- Calls a worker and waits until the call has ended. -/
def callWorker (w : World σ τ) (m : Simulation σ τ) (i : Nat) (c : WorkerCall) (limit : Span) :
    Option Answer × Simulation σ τ :=
  let t := m.services.nextTask
  let m := { m with services := { m.services with nextTask := t + 1 } }
  let m := (m.act w (w.call m.world ⟨t, 0⟩ i c limit)).waitUntil w 60000 fun m =>
    (m.answers.get? t).isSome
  (m.answers.get? t, m)

/-- The event queue of a worker. -/
def mail (m : Simulation σ τ) (i : Nat) : List Mail := (m.services.pool.entry? i).elim [] (·.mail)

/-- Waits for the next event of a worker, for at most a time in milliseconds, and takes it. -/
def receive (w : World σ τ) (m : Simulation σ τ) (i duration : Nat) :
    Option Mail × Simulation σ τ :=
  match w.closed? m.world i false, m.mail i with
  | some f, [] => (some (.failure f), m)
  | _, _ =>
    let m := m.waitUntil w duration fun m =>
      !(m.mail i).isEmpty || (w.closed? m.world i true).isSome
    match m.mail i with
    | mail :: rest =>
      let pool := m.services.pool.modify i ({ · with mail := rest })
      (some mail, { m with services := { m.services with pool } })
    | [] => ((w.closed? m.world i true).map .failure, m)

end Simulation
end NotebookKernels
