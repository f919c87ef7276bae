import ChatInference.Cache.Document
import ChatInference.Config.Service
import ChatInference.Gate
import ChatInference.Queue.Basic
import ChatInference.Service.Switch

/-!
The service: one model, the sessions opened on it, and the turns of their conversations. A turn runs
at once while a compute slot is free; else it waits in the queue for the worker. Time is in
milliseconds.
-/

namespace ChatInference

/-- A turn under way. -/
structure Turn where
  session : SessionId
  request : Request
  /-- The next free position of the sequence before the turn. -/
  nPast : Nat
  deriving Inhabited

/-- What the worker does with the task it took last. -/
inductive Worker where
  | idle
  /-- Waits for a compute slot. -/
  | waiting (task : Task)
  /-- Has a slot. -/
  | admitted (task : Task)
  | running (task : Task) (turn : Turn)
  /-- The turn is over, and its slot still taken. -/
  | over (task : Task) (outcome : Outcome)
  /-- The slot is free again, and the queue has not counted the task. -/
  | uncounted (task : Task) (outcome : Outcome)
  /-- All is done but to send the outcome. -/
  | unsent (task : Task) (outcome : Outcome)
  | stopped
  deriving Inhabited

/-- How the outcome of a submitted task is known. -/
inductive Collectable where
  | ready (outcome : Outcome)
  /-- It will come by mail. -/
  | posted (ticket : Nat)
  deriving Inhabited

structure Service (σ : Type) where
  config : ServiceConfig
  sessions : SessionTable := {}
  queue : Queue
  gate : Gate
  memory : Memory
  model : Switch σ
  worker : Worker := .idle
  /-- The outcomes sent to submitters so far, by ticket. -/
  mail : List (Nat × Outcome) := []
  nextTicket : Nat := 0
  /-- Submitted tasks whose outcome nobody has collected. -/
  collectable : Keyed Collectable := ∅
  /-- The id of the next submitted task that does not have to wait. -/
  nextInline : TaskId := 0x8000000000000000
  /-- The memory in use, in bytes, as it measures now. -/
  usage : Nat := 0

namespace Service

def version : String := "0.5.0"

variable {σ : Type}

def ofConfig (config : ServiceConfig) (engine : σ) : Service σ :=
  { config
    queue := .ofLimits config.limits
    gate := .ofLimit config.limits.maxConcurrent
    memory := { policy := config.memory }
    model := { engine } }

def send (s : Service σ) (answers : List Answer) : Service σ :=
  { s with mail := s.mail ++ answers.map fun a => (a.1.ticket, a.2) }

/-- Takes the waiting tasks of a session out of the queue. -/
def cancelTasksOf (s : Service σ) (id : SessionId) : Service σ :=
  let (gone, queue) := s.queue.cancelSession id
  { s with queue }.send (gone.map Queue.cancelled)

/-- Work that uses the model or will: tasks without an outcome, and turns under way. -/
def outstanding (s : Service σ) : Nat := s.queue.active + s.gate.inFlight

def currentGraph (s : Service σ) : Except Error GraphId := (·.graph) <$> s.model.state.usable

def sessionPolicy (s : Service σ) : SessionPolicy := s.config.limits.sessionPolicy

/-- Conversations do not outlive their model. -/
def onModelReplaced (s : Service σ) : Service σ :=
  let s := s.sessions.sessions.keys.foldl cancelTasksOf s
  { s with sessions := s.sessions.clear, gate := s.gate.resetSessions }

def toJson (s : Service σ) : Json :=
  .obj [("version", .str version), ("model", s.model.snapshot.toJson),
    ("sessions", .nat s.sessions.size), ("gate", s.gate.toJson), ("queue", s.queue.toJson),
    ("memory", s.memory.toJson)]

variable [InferenceEngine σ]

/-- Loads a model; no turn may be under way, and a load that fails touches no session. -/
def load (s : Service σ) (path : String) (text : Option String) :
    Except Error GraphId × Service σ :=
  match s.model.begin with
  | .error e => (.error e, s)
  | .ok model =>
    match model.replace path text with
    | (.ok graph, model) =>
      let s := { s with model }.onModelReplaced
      (.ok graph, { s with model := s.model.finish })
    | (.error e, model) => (.error e, { s with model := model.finish })

/-- Deletes what the cache holds for a session, or all of it. -/
def clearCache (s : Service σ) (seq : Option SeqId) : Service σ :=
  let (memory, engine) := s.memory.clear s.model.engine seq
  { s with memory, model := { s.model with engine } }

/-- Frees what a session that is out of the table still has. -/
def retireOne (s : Service σ) (id : SessionId) : Service σ :=
  (s.cancelTasksOf id).clearCache (some id)

def retire (s : Service σ) (ids : List SessionId) : Service σ :=
  ids.foldl retireOne { s with gate := s.gate.closeSessions ids.length }

/-- Opens a session on the graph of the last load, the only one that may be asked for. -/
def createSession (s : Service σ) (now : Nat) (graph : Option GraphId) :
    Except Error SessionId × Service σ :=
  match s.currentGraph with
  | .error e => (.error e, s)
  | .ok current =>
    match graph.filter (· != current) with
    | some g => (.error (.notFound s!"graph {g} (current graph is {current})"), s)
    | none =>
      let (idle, sessions) := s.sessions.evictIdle s.sessionPolicy now
      let s := { s with sessions }.retire idle
      match s.gate.openSession with
      | .error e => (.error e, s)
      | .ok gate =>
        match s.sessions.create s.sessionPolicy now none with
        | (.ok created, sessions) =>
          (.ok created.id, { s with sessions, gate }.retire created.evicted)
        | (.error e, sessions) => (.error e, { s with sessions, gate := gate.closeSessions 1 })

/-- Closes a session; with the last one the whole cache is cleared. -/
def closeSession (s : Service σ) (id : SessionId) : Except Error Unit × Service σ :=
  match s.sessions.close id with
  | .error e => (.error e, s)
  | .ok (_, sessions) =>
    let s := { s with sessions }.retire [id]
    (.ok (), if s.sessions.sessions.isEmpty then s.clearCache none else s)

end Service

end ChatInference
