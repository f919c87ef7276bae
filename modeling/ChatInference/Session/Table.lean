import ChatInference.Config.Limits
import ChatInference.Error
import ChatInference.Json.Writer
import ChatInference.Keyed.Basic
import ChatInference.Message

/-!
The open conversations, by id. Creating one evicts idle ones first and then, in a full table, the
one used least recently; a session with a running turn is never evicted. Time is in milliseconds.
-/

namespace ChatInference

abbrev SessionId := Nat

inductive SessionState where
  | ready
  /-- A turn is being generated. -/
  | running
  deriving DecidableEq, Inhabited

def SessionState.name : SessionState → String
  | ready => "ready"
  | running => "running"

structure Session where
  id : SessionId
  state : SessionState := .ready
  history : List Message := []
  createdAt : Nat
  lastActivity : Nat
  /-- Answered turns. -/
  turns : Nat := 0
  /-- The next free position of the session's sequence. -/
  nPast : Nat := 0
  deriving DecidableEq, Inhabited

namespace Session

def label (s : Session) : String := s!"session_{s.id}"

def idleFor (s : Session) (now : Nat) : Nat := now - s.lastActivity

def toJson (s : Session) (now : Nat) : Json :=
  .obj [("id", .nat s.id), ("label", .str s.label), ("state", .str s.state.name),
    ("turns", .nat s.turns), ("messages", .nat s.history.length), ("n_past", .nat s.nPast),
    ("idle_ms", .nat (s.idleFor now)), ("age_ms", .nat (now - s.createdAt))]

def begin (s : Session) (now : Nat) (prompt : String) : Session :=
  { s with history := s.history ++ [⟨.user, prompt⟩], state := .running, lastActivity := now }

/-- An unanswered prompt is dropped, so that a history holds answered exchanges. -/
def dropUnanswered (history : List Message) : List Message :=
  match history.getLast? with
  | some m => if m.role = .user then history.dropLast else history
  | none => history

def finish (s : Session) (now : Nat) (reply : Option String) (nPast : Nat) : Session :=
  match reply with
  | some text =>
    { s with
      history := s.history ++ [⟨.assistant, text⟩]
      turns := s.turns + 1
      nPast := nPast
      state := .ready
      lastActivity := now }
  | none =>
    { s with history := dropUnanswered s.history, state := .ready, lastActivity := now }

end Session

structure SessionPolicy where
  maxSessions : Nat
  idleTimeoutMs : Nat
  autoCleanup : Bool
  deriving DecidableEq, Inhabited

def Limits.sessionPolicy (l : Limits) : SessionPolicy :=
  ⟨l.maxSessions, l.idleTimeoutMs, l.autoCleanup⟩

structure SessionTable where
  sessions : Keyed Session := ∅
  nextId : SessionId := 1
  deriving DecidableEq, Inhabited

/-- A new session, and those that had to go for it. -/
structure Created where
  id : SessionId
  evicted : List SessionId
  deriving DecidableEq, Inhabited

namespace SessionTable

def missing (id : SessionId) : Error := .notFound s!"session {id}"

def get (t : SessionTable) (id : SessionId) : Except Error Session :=
  match t.sessions.get? id with
  | some s => .ok s
  | none => .error (missing id)

def contains (t : SessionTable) (id : SessionId) : Bool := t.sessions.contains id

def size (t : SessionTable) : Nat := t.sessions.size

/-- Sessions by their last activity, those of one time by id. -/
def oldestFirst (ss : List Session) : List SessionId :=
  (ss.mergeSort fun a b =>
    a.lastActivity < b.lastActivity || (a.lastActivity == b.lastActivity && a.id ≤ b.id)).map (·.id)

def removeAll (t : SessionTable) (ids : List SessionId) : SessionTable :=
  { t with sessions := t.sessions.filter fun id _ => !ids.contains id }

/-- Sessions without a running turn. -/
def idlers (t : SessionTable) : List Session := t.sessions.values.filter (·.state = .ready)

def evictIdle (t : SessionTable) (p : SessionPolicy) (now : Nat) : List SessionId × SessionTable :=
  if p.autoCleanup then
    let gone := oldestFirst (t.idlers.filter fun s => p.idleTimeoutMs < s.idleFor now)
    (gone, t.removeAll gone)
  else ([], t)

/-- Makes room for one session in a full table, as far as sessions without a running turn allow. -/
def evictOldest (t : SessionTable) (p : SessionPolicy) : List SessionId × SessionTable :=
  if p.autoCleanup && p.maxSessions ≤ t.size then
    let gone := (oldestFirst t.idlers).take (t.size - p.maxSessions + 1)
    (gone, t.removeAll gone)
  else ([], t)

/-- Ids are 32-bit words, and none is zero. -/
def idLimit : Nat := UInt32.size

def succId (id : SessionId) : SessionId := max 1 ((id + 1) % idLimit)

/-- The first id not in use, within `n` steps. -/
def searchId (t : SessionTable) : Nat → SessionId → SessionId
  | 0, id => id
  | n + 1, id => if t.contains id then searchId t n (succId id) else id

/-- Adds a session under an id that is not in use; a requested id moves the next one past it. -/
def insert (t : SessionTable) (now : Nat) (requested : Option SessionId) :
    SessionId × SessionTable :=
  let (id, next) := match requested with
    | some id => (id, max t.nextId (min (id + 1) (idLimit - 1)))
    | none =>
      let id := t.searchId t.size t.nextId
      (id, succId id)
  (id, ⟨t.sessions.set id { id, createdAt := now, lastActivity := now }, next⟩)

def create (t : SessionTable) (p : SessionPolicy) (now : Nat) (requested : Option SessionId) :
    Except Error Created × SessionTable :=
  match requested.filter t.contains with
  | some id => (.error (.invalidArgument s!"session {id} already exists"), t)
  | none =>
    let (idle, t) := t.evictIdle p now
    let (oldest, t) := t.evictOldest p
    if p.maxSessions ≤ t.size then
      (.error (.resourceExhausted s!"session table full ({t.size}/{p.maxSessions})"), t)
    else
      let (id, t) := t.insert now requested
      (.ok ⟨id, idle ++ oldest⟩, t)

def close (t : SessionTable) (id : SessionId) : Except Error (Session × SessionTable) := do
  let s ← t.get id
  return (s, { t with sessions := t.sessions.erase id })

def update (t : SessionTable) (id : SessionId) (f : Session → Session) :
    Except Error SessionTable := do
  let s ← t.get id
  return { t with sessions := t.sessions.set id (f s) }

def touch (t : SessionTable) (id : SessionId) (now : Nat) : Except Error SessionTable :=
  t.update id fun s => { s with lastActivity := now }

def append (t : SessionTable) (id : SessionId) (now : Nat) (m : Message) :
    Except Error SessionTable :=
  t.update id fun s => { s with history := s.history ++ [m], lastActivity := now }

/-- Starts a turn with a prompt; the answer is the session with its history to be rendered. -/
def beginTurn (t : SessionTable) (id : SessionId) (now : Nat) (prompt : String) :
    Except Error (Session × SessionTable) := do
  let t ← t.update id (·.begin now prompt)
  let s ← t.get id
  return (s, t)

/-- Ends a turn, answered or failed. -/
def finishTurn (t : SessionTable) (id : SessionId) (now : Nat) (reply : Option String)
    (nPast : Nat) : Except Error SessionTable :=
  t.update id (·.finish now reply nPast)

def setPast (t : SessionTable) (id : SessionId) (nPast : Nat) : Except Error SessionTable :=
  t.update id ({ · with nPast })

/-- Drops all sessions, and counts ids from one again. -/
def clear (_ : SessionTable) : SessionTable := {}

end SessionTable

end ChatInference
