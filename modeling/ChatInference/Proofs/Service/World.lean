import ChatInference.Proofs.Service.Frames
import Mathlib.Logic.Relation

/-!
A service with several calls under way. Opening a session, closing one and dropping all after a load
are done under one lock, in steps between which turns go on; here each of these steps is one of its
own, and any call may take the next step at any time.
-/

namespace ChatInference

/-- What follows once the tasks and the caches of closed sessions are gone. -/
inductive AfterRetire where
  /-- The gate is asked for one more session. -/
  | atGate
  | answer (id : SessionId)
  /-- The whole cache is cleared with the last session. -/
  | last

/-- What the call that holds the lock does next. -/
inductive Held where
  | free
  | sweep
  /-- The table has let sessions go that the gate still counts. -/
  | owe (ids : List SessionId) (next : AfterRetire)
  | retire (ids : List SessionId) (next : AfterRetire)
  | atGate
  /-- The gate counts a session that the table has not got. -/
  | insert
  | giveBack (e : Error)
  | close (id : SessionId)
  | last
  | replaced
  | cancel (ids : List SessionId)
  /-- The table is empty, and the gate counts what was in it. -/
  | cleared

/-- How many sessions the gate counts where so many are open. -/
def Held.Accounts (counted size : Nat) : Held → Prop
  | .owe ids _ => counted = size + ids.length
  | .insert => counted = size + 1
  | .giveBack e => counted = size + 1 ∧ ∃ why, e = .resourceExhausted why
  | .cleared => size = 0
  | .free | .sweep | .retire _ _ | .atGate | .close _ | .last | .replaced | .cancel _ => counted = size

/-- A turn that runs in the call it was submitted by, from the permit on. -/
inductive InlineTurn where
  | admitted (id : SessionId) (prompt : String) (overrides : Overrides)
  | running (turn : Turn)
  | ended (outcome : Outcome)

inductive LoadPhase where
  | none
  | begun
  /-- The new model is in place, and the sessions of the one before are still open. -/
  | replaced
  | ended

/-- A service with the calls that are under way. -/
structure World (σ : Type) where
  service : Service σ
  held : Held := .free
  turns : List InlineTurn := []
  load : LoadPhase := .none
  /-- What the calls for new sessions were answered. -/
  answers : List (Except Error SessionId) := []

namespace World

variable {σ : Type}

def opened (config : ServiceConfig) (e : σ) : World σ := { service := .ofConfig config e }

/-- How many turns hold a permit. -/
def permits (w : World σ) : Nat := w.turns.length + w.service.worker.permits

/-- A turn gets a permit, or goes to the queue. -/
def enter (w : World σ) (now : Nat) (id : SessionId) (prompt : String) (o : Overrides) : World σ :=
  match w.service.enter now id prompt o with
  | (.ok .slot, service) => { w with service, turns := w.turns ++ [.admitted id prompt o] }
  | (_, service) => { w with service }

variable [InferenceEngine σ]

/-- The next step of the call that holds the lock. -/
def advance (w : World σ) (now : Nat) : World σ :=
  let s := w.service
  match w.held with
  | .free => w
  | .sweep =>
    let (idle, sessions) := s.sessions.evictIdle s.sessionPolicy now
    { w with service := { s with sessions }, held := .owe idle .atGate }
  | .owe ids next =>
    { w with service := { s with gate := s.gate.closeSessions ids.length }, held := .retire ids next }
  | .retire (id :: ids) next => { w with service := s.retireOne id, held := .retire ids next }
  | .retire [] .atGate => { w with held := .atGate }
  | .retire [] (.answer id) => { w with held := .free, answers := w.answers ++ [.ok id] }
  | .retire [] .last => { w with held := .last }
  | .atGate =>
    match s.gate.openSession with
    | .error e => { w with held := .free, answers := w.answers ++ [.error e] }
    | .ok gate => { w with service := { s with gate }, held := .insert }
  | .insert =>
    match s.sessions.create s.sessionPolicy now none with
    | (.ok c, sessions) =>
      { w with service := { s with sessions }, held := .owe c.evicted (.answer c.id) }
    | (.error e, sessions) => { w with service := { s with sessions }, held := .giveBack e }
  | .giveBack e =>
    { w with
      service := { s with gate := s.gate.closeSessions 1 }
      held := .free
      answers := w.answers ++ [.error e] }
  | .close id =>
    match s.sessions.close id with
    | .error _ => { w with held := .free }
    | .ok (_, sessions) => { w with service := { s with sessions }, held := .owe [id] .last }
  | .last =>
    { w with
      service := if s.sessions.sessions.isEmpty then s.clearCache none else s
      held := .free }
  | .replaced => { w with held := .cancel s.sessions.sessions.keys }
  | .cancel (id :: ids) => { w with service := s.cancelTasksOf id, held := .cancel ids }
  | .cancel [] => { w with service := { s with sessions := s.sessions.clear }, held := .cleared }
  | .cleared =>
    { w with service := { s with gate := s.gate.resetSessions }, held := .free, load := .ended }

/-- The next step of an inline turn; the last one gives the permit back. -/
def turnStep (w : World σ) (i : Nat) (now : Nat) : World σ :=
  match w.turns[i]? with
  | none => w
  | some (.admitted id prompt o) =>
    match w.service.startTurn now id prompt o with
    | (.error e, service) => { w with service, turns := w.turns.set i (.ended (.error e)) }
    | (.ok turn, service) => { w with service, turns := w.turns.set i (.running turn) }
  | some (.running turn) =>
    let (r, service) := w.service.endTurn now turn
    { w with service, turns := w.turns.set i (.ended r) }
  | some (.ended _) => { w with service := w.service.releaseSlot, turns := w.turns.eraseIdx i }

/-- The next step of a load, up to where it needs the lock and from there on. -/
def loadStep (w : World σ) (path : String) (text : Option String) : World σ :=
  let s := w.service
  match w.load with
  | .none =>
    match s.model.begin with
    | .ok model => { w with service := { s with model }, load := .begun }
    | .error _ => w
  | .begun =>
    match s.model.replace path text with
    | (.ok _, model) => { w with service := { s with model }, load := .replaced }
    | (.error _, model) => { w with service := { s with model }, load := .ended }
  | .replaced => w
  | .ended => { w with service := { s with model := s.model.finish }, load := .none }

/-- One step of any call. A search for an id that finds them all in use goes on for ever, so that
its call takes no further step. -/
inductive Step : World σ → World σ → Prop
  | create {w : World σ} (h : w.held = .free) : Step w { w with held := .sweep }
  | close {w : World σ} (id : SessionId) (h : w.held = .free) : Step w { w with held := .close id }
  | replaced {w : World σ} (h : w.held = .free) (hl : w.load = .replaced) :
      Step w { w with held := .replaced }
  | advance {w : World σ} (now : Nat)
      (h : w.held = .insert → w.service.sessions.SearchEnds w.service.sessionPolicy now) :
      Step w (w.advance now)
  | load {w : World σ} (path : String) (text : Option String) : Step w (w.loadStep path text)
  | enter {w : World σ} (now : Nat) (id : SessionId) (prompt : String) (o : Overrides) :
      Step w (w.enter now id prompt o)
  | turn {w : World σ} (i now : Nat) : Step w (w.turnStep i now)
  | worker {w : World σ} (now : Nat) : Step w { w with service := w.service.workerStep now }

/-- Steps of all calls in any number and order. -/
abbrev Run : World σ → World σ → Prop := Relation.ReflTransGen Step

end World

end ChatInference
