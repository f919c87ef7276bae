import ChatInference.Service.Basic

/-!
Turns of the service. Each part that others can come between is a step of its own: the check, the
slot or the place in the queue, the start of the turn, its end, and the way of a queued task through the
worker.
-/

namespace ChatInference

/-- What becomes of a turn that is asked for. -/
inductive Admission where
  /-- It has a compute slot. -/
  | slot
  | queued (task : TaskId) (ticket : Nat)
  deriving DecidableEq, Inhabited

/-- A turn that was let in: under way, or in the queue. -/
inductive Opening where
  | started (turn : Turn)
  | queued (task : TaskId) (ticket : Nat)
  deriving Inhabited

/-- A submitted turn: over, or in the queue. -/
inductive Submission where
  | completed (text : String)
  | queued (task : TaskId) (ticket : Nat)
  deriving DecidableEq, Inhabited

namespace Service

variable {σ : Type}

/-- A turn needs an open session and a model. -/
def checkTurn (s : Service σ) (id : SessionId) : Except Error Unit :=
  if s.sessions.contains id then (fun _ => ()) <$> s.currentGraph
  else .error (SessionTable.missing id)

/-- Takes a compute slot for a turn, or queues the turn where none is free. -/
def enter (s : Service σ) (now : Nat) (id : SessionId) (prompt : String) (o : Overrides) :
    Except Error Admission × Service σ :=
  match s.gate.acquire? with
  | some gate => (.ok .slot, { s with gate })
  | none =>
    let task : Task :=
      { session := id, createdAt := now, deadline := now + s.config.limits.taskTimeoutMs
        prompt, ticket := s.nextTicket }
    let (r, answers, queue) := s.queue.enqueue now (task.withOverrides o)
    let s := { s with queue, nextTicket := s.nextTicket + 1 }.send answers
    ((.queued · task.ticket) <$> r, s)

def releaseSlot (s : Service σ) : Service σ := { s with gate := s.gate.release }

variable [InferenceEngine σ]

def request (id : SessionId) (messages : List Message) (c : ModelConfig) : Request :=
  { seq := id, messages, sampling := c.sampling, maxTokens := c.model.predict
    stop := c.stopping.stop, ignoreEos := c.stopping.ignoreEos }

/-- Puts the prompt into the history and makes room in the cache. -/
def startTurn (s : Service σ) (now : Nat) (id : SessionId) (prompt : String) (o : Overrides) :
    Except Error Turn × Service σ :=
  match s.model.state.usable with
  | .error e => (.error e, s)
  | .ok model =>
    let c := o.apply model.config
    match s.sessions.beginTurn id now prompt with
    | .error e => (.error e, s)
    | .ok (session, sessions) =>
      let incoming := InferenceEngine.pendingTokens s.model.engine id session.history
      let (memory, engine) :=
        s.memory.prepareTurn s.model.engine id incoming c.model.predict s.usage
      (.ok ⟨id, request id session.history c, KvCache.nPast engine id⟩,
        { s with sessions, memory, model := { s.model with engine } })

/-- Records the end of a turn, unless its session is gone. -/
def record (s : Service σ) (now : Nat) (id : SessionId) (reply : Option String) (nPast : Nat) :
    Service σ :=
  match s.sessions.finishTurn id now reply nPast with
  | .ok sessions => { s with sessions }
  | .error _ => s

/-- Generates the reply. -/
def endTurn (s : Service σ) (now : Nat) (t : Turn) : Outcome × Service σ :=
  let (r, engine) := InferenceEngine.generate s.model.engine t.request
  let s := { s with model := { s.model with engine } }
  match r with
  | .ok g => (.ok g.text, s.record now t.session (some g.text) (KvCache.nPast engine t.session))
  | .error e => (.error (.ofEngine e), s.record now t.session none t.nPast)

/-- Ends a turn that has a slot, and gives the slot back. -/
def closeTurn (s : Service σ) (now : Nat) (t : Turn) : Outcome × Service σ :=
  let (r, s) := s.endTurn now t
  (r, s.releaseSlot)

/-- Lets a turn in. One that has a slot starts, and gives the slot back if it cannot. -/
def openTurn (s : Service σ) (now : Nat) (id : SessionId) (prompt : String) (o : Overrides) :
    Except Error Opening × Service σ :=
  match s.checkTurn id with
  | .error e => (.error e, s)
  | .ok _ =>
    match s.enter now id prompt o with
    | (.error e, s) => (.error e, s)
    | (.ok (.queued task ticket), s) => (.ok (.queued task ticket), s)
    | (.ok .slot, s) =>
      match s.startTurn now id prompt o with
      | (.error e, s) => (.error e, s.releaseSlot)
      | (.ok t, s) => (.ok (.started t), s)

/-- Runs a turn at once if a slot is free, else queues it. -/
def submit (s : Service σ) (now : Nat) (id : SessionId) (prompt : String) (o : Overrides) :
    Except Error Submission × Service σ :=
  match s.openTurn now id prompt o with
  | (.error e, s) => (.error e, s)
  | (.ok (.queued task ticket), s) => (.ok (.queued task ticket), s)
  | (.ok (.started t), s) =>
    let (r, s) := s.closeTurn now t
    (.completed <$> r, s)

def noSlot : Error := .timeout "no compute slot became free before the task deadline"

/-- The next step of the worker. It stays where it is while the queue is empty, and while no slot is
free and the task it holds is not past its deadline. -/
def workerStep (s : Service σ) (now : Nat) : Service σ :=
  match s.worker with
  | .idle =>
    if s.queue.running then
      let (task, answers, queue) := s.queue.dequeue now
      let s := { s with queue }.send answers
      match task with
      | some t => { s with worker := .waiting t }
      | none => s
    else { s with worker := .stopped }
  | .waiting t =>
    match s.gate.acquire? with
    | some gate => { s with gate, worker := .admitted t }
    | none =>
      if t.deadline ≤ now then
        { s with queue := s.queue.markTimedOut, worker := .unsent t (.error noSlot) }
      else s
  | .admitted t =>
    match s.startTurn now t.session t.prompt t.overrides with
    | (.error e, s) => { s with worker := .over t (.error e) }
    | (.ok turn, s) => { s with worker := .running t turn }
  | .running t turn =>
    let (r, s) := s.endTurn now turn
    { s with worker := .over t r }
  | .over t r => { s.releaseSlot with worker := .uncounted t r }
  | .uncounted t r => { s with queue := s.queue.markCompleted, worker := .unsent t r }
  | .unsent t r => { s.send [(t, r)] with worker := .idle }
  | .stopped => s

/-- How many steps take the worker from one task to the next. -/
def stepsPerTask : Nat := 7

def workTask (s : Service σ) (now : Nat) : Service σ :=
  (List.range stepsPerTask).foldl (fun s _ => s.workerStep now) s

/-- Lets the worker go on until it has to wait; each task takes a millisecond. -/
def work (s : Service σ) (now : Nat) : Service σ :=
  (List.range (s.queue.size + 2)).foldl (fun s i => s.workTask (now + i)) s

/-- Ends the service: waiting tasks are cancelled, the worker ends its own, and the model goes. -/
def shutdown (s : Service σ) (now : Nat) : Service σ :=
  let (answers, queue) := s.queue.shutdown
  let s := ({ s with queue }.send answers).work now
  { s with model := s.model.unload }

end Service

end ChatInference
