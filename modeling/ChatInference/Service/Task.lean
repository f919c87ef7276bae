import ChatInference.Service.Turn

/-! Tasks: turns that are submitted by one call and collected, once, by another. -/

namespace ChatInference

namespace Service

variable {σ : Type}

def expect (s : Service σ) (task : TaskId) (c : Collectable) : Service σ :=
  { s with collectable := s.collectable.set task c }

/-- Takes back a task that still waits in the queue. -/
def cancelTask (s : Service σ) (task : TaskId) : Except Error Unit × Service σ :=
  match s.queue.cancel task with
  | (some t, _, queue) => (.ok (), { s with queue }.send [Queue.cancelled t])
  | (none, _, queue) => (.error (.notFound s!"queued task {task}"), { s with queue })

/-- The outcome that has come by mail, if one has. -/
def received (s : Service σ) (ticket : Nat) : Option Outcome := s.mail.lookup ticket

/-- The outcome of a task, none while there is none yet. An outcome is handed out once. -/
def taskResult (s : Service σ) (task : TaskId) : Except Error (Option String) × Service σ :=
  let outcome := match s.collectable.get? task with
    | none => some (.error (.notFound s!"task {task}"))
    | some (.ready outcome) => some outcome
    | some (.posted ticket) => s.received ticket
  match outcome with
  | some outcome => (some <$> outcome, { s with collectable := s.collectable.erase task })
  | none => (.ok none, s)

variable [InferenceEngine σ]

/-- Lets the worker go on past the deadline of every task, so that each has an outcome. -/
def settle (s : Service σ) (now : Nat) : Service σ :=
  (s.work now).work (now + s.config.limits.taskTimeoutMs + 1)

/-- Runs a turn, and waits for its outcome where it has to be queued. -/
def infer (s : Service σ) (now : Nat) (id : SessionId) (prompt : String) (o : Overrides) :
    Outcome × Service σ :=
  match s.submit now id prompt o with
  | (.error e, s) => (.error e, s)
  | (.ok (.completed text), s) => (.ok text, s)
  | (.ok (.queued _ ticket), s) =>
    let s := s.settle now
    ((s.received ticket).getD (.error .cancelled), s)

/-- Submits a turn whose reply is collected later; a turn that fails at once is no task. -/
def submitTask (s : Service σ) (now : Nat) (id : SessionId) (prompt : String) (o : Overrides) :
    Except Error TaskId × Service σ :=
  match s.submit now id prompt o with
  | (.error e, s) => (.error e, s)
  | (.ok (.completed text), s) =>
    (.ok s.nextInline,
      { s.expect s.nextInline (.ready (.ok text)) with nextInline := s.nextInline + 1 })
  | (.ok (.queued task ticket), s) => (.ok task, s.expect task (.posted ticket))

end Service

end ChatInference
