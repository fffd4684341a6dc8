import NotebookKernels.Service.Step

/- Worlds: the workers that the services talk to, as a simulation plays them.

   A world answers the calls of the services. What an answer or an event needs
   time for is a token: the world asks to have it back later, and goes on then. -/
namespace NotebookKernels

/-- Names one wait of a task: the task, and how many steps it had taken before. -/
structure Ticket where
  task : TaskId
  turn : Nat
  deriving DecidableEq, Repr

/-- What a world does. -/
inductive Effect (τ : Type) where
  /-- A call to a worker ends. -/
  | answer (k : Ticket) (a : Answer)
  /-- A worker accepts code. -/
  | submitted (k : Ticket) (r : RequestId)
  /-- A worker replies to a query. -/
  | replied (k : Ticket) (v : Json)
  /-- A worker starts to run, or stops. -/
  | alive (i : Nat) (alive : Bool)
  /-- A worker sends something. -/
  | deliver (i : Nat) (m : Mail)
  /-- A worker's event queue is replaced by an empty one. -/
  | renew (i : Nat)
  /-- The world wants a token back after this many milliseconds. -/
  | after (delay : Nat) (token : τ)
  /-- The world wants a token back as soon as the tasks that can run now have run. -/
  | soon (token : τ)

/-- A world with states `σ` and tokens `τ`. Workers are numbered like the entries of the pool. -/
structure World (σ τ : Type) where
  /-- A worker is to be launched; a failure says that it was not. -/
  launch : σ → KernelSpec → σ × Option Failure
  /-- A call to a worker begins; the span bounds a wait until it is ready. -/
  call : σ → Ticket → Nat → WorkerCall → Span → σ × List (Effect τ)
  /-- Code is submitted to a worker. -/
  submit : σ → Ticket → Nat → Code → σ × List (Effect τ)
  /-- A worker is asked a query, and has this long to reply. -/
  query : σ → Ticket → Nat → ShellRequest → Span → σ × List (Effect τ)
  /-- A token comes back. -/
  fire : σ → τ → σ × List (Effect τ)
  /-- Why nothing more will come from a worker, if so, to a task that waits for an event already, or to
  one that is about to wait. -/
  closed? : σ → Nat → Bool → Option Failure

end NotebookKernels
