import ChatInference.Engine.Local
import ChatInference.Json.Text
import ChatInference.Service.Task

/-!
The service behind calls that know numbers and bytes alone. A call answers with a status; texts come
in as bytes, results go out into the caller's memory, and any part of that memory may be missing.
-/

namespace ChatInference

/-- The memory a caller offers for a text: the bytes it holds, and whether the size is wanted. -/
structure Buffer where
  capacity : Option Nat
  wantsSize : Bool := true
  deriving DecidableEq, Inhabited

/-- What a call leaves behind: its status, and the size and the text it wrote. -/
structure Written where
  status : Status
  /-- The bytes of the text and of the zero byte after it. -/
  size : Option Nat := none
  text : Option String := none
  deriving DecidableEq, Inhabited

namespace Boundary

/-- The bytes of an argument, none if it is missing. -/
abbrev Bytes := Option (List UInt8)

variable {σ : Type}

/-- A service, once one was started. -/
abbrev Handle (σ : Type) := Option (Service σ)

/-- A missing text and an empty one are the same. -/
def text? : Bytes → Except Status (Option String)
  | none | some [] => .ok none
  | some bytes =>
    match String.fromUTF8? ⟨bytes.toArray⟩ with
    | some s => .ok (some s)
    | none => .error .invalidEncoding

def required (bytes : Bytes) : Except Status String := do
  match ← text? bytes with
  | some s => return s
  | none => throw .invalidArgument

def service (h : Handle σ) : Except Status (Service σ) :=
  match h with
  | some s => .ok s
  | none => .error .invalidArgument

/-- The bytes a text takes, with the zero byte after it. -/
def needed (text : String) : Nat := text.utf8ByteSize + 1

/-- Writes a text: its size first, and the text itself if the buffer holds it. Sizes are 32-bit
words, and of a text too long for one not even the size is written. -/
def write (b : Buffer) (text : String) : Written :=
  let size := if b.wantsSize then some (needed text) else none
  if UInt32.size ≤ needed text then ⟨.tooLarge, none, none⟩
  else
    match b.capacity with
    | none => ⟨.invalidArgument, size, none⟩
    | some capacity =>
      if capacity < needed text then ⟨.tooLarge, size, none⟩ else ⟨.success, size, some text⟩

def failed (status : Status) : Written := ⟨status, none, none⟩

def statusOf {α : Type} : Except Error α → Status
  | .ok _ => .success
  | .error e => e.status

/-- Writes a number, if there is memory for it. -/
def number {α : Type} (r : Except Error α) (wanted : Bool) : Status × Option α :=
  match r with
  | .ok x => if wanted then (.success, some x) else (.invalidArgument, none)
  | .error e => (e.status, none)

/-- Starts a service on the models of a disk, and opens its log. -/
def init (disk : Disk StoredFile) (wanted : Bool) (config : Bytes) :
    Status × Handle LocalEngine :=
  if wanted then
    match text? config with
    | .error e => (e, none)
    | .ok text =>
      let c := ServiceConfig.parse text
      let disk := match c.logging.file with
        | some path => disk.touch path ⟨.other "", ⟨0, 0⟩⟩
        | none => disk
      (.success, some (.ofConfig c { disk, performance := c.performance }))
  else (.invalidArgument, none)

variable [InferenceEngine σ]

/-- A model that is loaded stays so when there is no memory for its number. -/
def load (h : Handle σ) (path config : Bytes) (wanted : Bool) :
    Status × Option GraphId × Handle σ :=
  let arguments := do return (← service h, ← required path, ← text? config)
  match arguments with
  | .error e => (e, none, h)
  | .ok (s, path, config) =>
    let (r, s) := s.load path config
    let (status, graph) := number r wanted
    (status, graph, some s)

def openSession (h : Handle σ) (now : Nat) (graph : GraphId) (wanted : Bool) :
    Status × Option SessionId × Handle σ :=
  match h with
  | some s =>
    if wanted then
      let (r, s) := s.createSession now (some graph)
      let (status, id) := number r wanted
      (status, id, some s)
    else (.invalidArgument, none, h)
  | none => (.invalidArgument, none, h)

def closeSession (h : Handle σ) (id : SessionId) : Status × Handle σ :=
  match h with
  | some s =>
    let (r, s) := s.closeSession id
    (statusOf r, some s)
  | none => (.invalidArgument, h)

def infer (h : Handle σ) (now : Nat) (id : SessionId) (prompt overrides : Bytes) (b : Buffer) :
    Written × Handle σ :=
  let arguments := do return (← service h, ← required prompt, ← text? overrides)
  match arguments with
  | .error e => (failed e, h)
  | .ok (s, prompt, overrides) =>
    match s.infer now id prompt (.parse overrides) with
    | (.ok text, s) => (write b text, some s)
    | (.error e, s) => (failed e.status, some s)

def submit (h : Handle σ) (now : Nat) (id : SessionId) (prompt overrides : Bytes)
    (wanted : Bool) : Status × Option TaskId × Handle σ :=
  let arguments := do return (← service h, ← required prompt, ← text? overrides)
  match arguments with
  | .error e => (e, none, h)
  | .ok (s, prompt, overrides) =>
    if wanted then
      let (r, s) := s.submitTask now id prompt (.parse overrides)
      let (status, task) := number r wanted
      (status, task, some s)
    else (.invalidArgument, none, h)

/-- Collects the reply of a task, waiting for it when the time to wait is below zero. The flag says
whether there is an outcome, and is missing when it was not written. A reply is handed out before
the buffer is looked at. -/
def taskResult (h : Handle σ) (now : Nat) (task : TaskId) (wait : Int) (b : Buffer)
    (wanted : Bool) : Written × Option Bool × Handle σ :=
  match h with
  | some s =>
    if wanted then
      let s := if wait < 0 then s.settle now else s
      match s.taskResult task with
      | (.ok (some text), s) => (write b text, some true, some s)
      | (.ok none, s) => (⟨.success, none, none⟩, some false, some s)
      | (.error e, s) => (failed e.status, some false, some s)
    else (failed .invalidArgument, none, h)
  | none => (failed .invalidArgument, none, h)

def cancelTask (h : Handle σ) (task : TaskId) : Status × Handle σ :=
  match h with
  | some s =>
    let (r, s) := s.cancelTask task
    (statusOf r, some s)
  | none => (.invalidArgument, h)

/-- Writes a document, if there is one. -/
def document (r : Except Status Json) (b : Buffer) : Written :=
  match r with
  | .ok v => write b v.text
  | .error e => failed e

def statusJson (h : Handle σ) : Except Status Json := (·.toJson) <$> service h

def sessionJson (h : Handle σ) (now : Nat) (id : SessionId) : Except Status Json :=
  match h with
  | some s =>
    match s.sessions.get id with
    | .ok session => .ok (session.toJson now)
    | .error e => .error e.status
  | none => .error .invalidArgument

/-- Ends the service; without one there is nothing to end. -/
def deinit (h : Handle σ) (now : Nat) : Status × Handle σ :=
  let _ := h.map (·.shutdown now)
  (.success, none)

end Boundary

end ChatInference
